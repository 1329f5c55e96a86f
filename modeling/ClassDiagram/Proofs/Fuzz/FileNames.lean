import ClassDiagram.Fuzz.Session
import ClassDiagram.Proofs.Formats.Hexadecimal
import ClassDiagram.Proofs.Paths

/-!
# The files of findings

The report on an input is named for its digest, by eight hexadecimal digits behind which only the
ending stands.  So reports on inputs with different digests go to different files, whenever they are
written and wherever to, and whatever they are about.
-/

namespace ClassDiagram

namespace Digest.Md5

theorem length_bytesOf (n value : Nat) : (bytesOf n value).length = n := by
  induction n generalizing value with
  | zero => rfl
  | succ n ih => simp [bytesOf, ih]

theorem length_hexDigest (message : List UInt8) : (hexDigest message).length = 32 := by
  have hdigest : (digest message).length = 16 := by simp [digest, length_bytesOf]
  rw [hexDigest, List.length_flatMap]
  simp [Text.length_hex, hdigest]

theorem exists_of_mem_hexDigest {message : List UInt8} {c : Char} (h : c ∈ hexDigest message) :
    ∃ d < 16, c = Text.hexDigit d := by
  obtain ⟨b, -, hc⟩ := List.mem_flatMap.mp h
  exact Text.exists_of_mem_hex hc

end Digest.Md5

namespace Fuzz.Finding

theorem length_digestOf (input : String) : (digestOf input).toList.length = 8 := by
  simp [digestOf, Digest.Md5.length_hexDigest]

theorem exists_of_mem_digestOf {input : String} {c : Char} (h : c ∈ (digestOf input).toList) :
    ∃ d < 16, c = Text.hexDigit d := by
  rw [digestOf, String.toList_ofList] at h
  exact Digest.Md5.exists_of_mem_hexDigest (List.mem_of_mem_take h)

variable {bench bench' : Bench} {input input' : String} {concern concern' : Concern}

/-- The file of a report is named for the digest of the input. -/
theorem suffix_pathOf (bench : Bench) (input : String) (concern : Concern) :
    (digestOf input).toList ++ ".txt".toList <:+ (pathOf bench input concern).toList := by
  apply Storage.Path.suffix_display_join
  · rw [fileName, String.toList_append, String.toList_append, List.append_assoc]
    exact List.suffix_append _ _
  · intro hmem
    rcases List.mem_append.mp hmem with hmem | hmem
    · have hdigits : ∀ d < 16, '/' ≠ Text.hexDigit d := by decide
      obtain ⟨d, hd, heq⟩ := exists_of_mem_digestOf hmem
      exact hdigits d hd heq
    · exact absurd hmem (by decide)
  · rw [List.length_append, length_digestOf]
    decide

theorem digestOf_eq_of_pathOf_eq (h : pathOf bench input concern = pathOf bench' input' concern') :
    digestOf input = digestOf input' := by
  have hsuffix := suffix_pathOf bench input concern
  rw [h] at hsuffix
  have hlength : ((digestOf input).toList ++ ".txt".toList).length =
      ((digestOf input').toList ++ ".txt".toList).length := by
    rw [List.length_append, List.length_append, length_digestOf, length_digestOf]
  have hnames := (List.suffix_of_suffix_length_le hsuffix (suffix_pathOf bench' input' concern')
    (Nat.le_of_eq hlength)).eq_of_length hlength
  exact String.toList_inj.mp (List.append_cancel_right hnames)

/-- Reports can be written if neither the directory nor the time of day holds a null character. -/
theorem null_not_mem_pathOf {verdict : Verdict} (hdirectory : '\x00' ∉ bench.directory.toList)
    (htimestamp : '\x00' ∉ bench.timestamp.toList) (h : concern ∈ verdict.concern?) :
    '\x00' ∉ (pathOf bench input concern).toList := by
  apply Storage.Path.null_not_mem_display_join hdirectory
  have hcategory : '\x00' ∉ concern.category.toList := by
    have hall : ∀ category ∈ ["timeout", "mismatch", "crash"], '\x00' ∉ category.toList := by decide
    cases verdict <;> cases h <;> exact hall _ (by simp)
  have hdigest : '\x00' ∉ (digestOf input).toList := by
    intro hmem
    have hdigits : ∀ d < 16, '\x00' ≠ Text.hexDigit d := by decide
    obtain ⟨d, hd, heq⟩ := exists_of_mem_digestOf hmem
    exact hdigits d hd heq
  simp [fileName, hcategory, htimestamp, hdigest]

end Fuzz.Finding

end ClassDiagram
