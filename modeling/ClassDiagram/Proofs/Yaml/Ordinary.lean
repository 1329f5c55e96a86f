import ClassDiagram.Proofs.Yaml.Scalars

/-!
# The characters of YAML

Whatever a text is made of, only line feeds and printable characters of ASCII are written for it:
plain text and text between single quotes has no others, and between double quotes the others are
escaped.
-/

namespace ClassDiagram.Yaml

variable {indent : Nat}

theorem all_newline (indent : Nat) : (newline indent).all isOrdinary = true := by
  rw [newline, List.all_cons, List.all_eq_true.mpr, Bool.and_true]
  · rfl
  · intro c hc
    rw [(List.mem_replicate.mp hc).2]
    rfl

theorem all_plain {text : List Char} (h : text.all isOrdinary = true) (column : Nat)
    (spaced : Bool) : (plain indent column spaced text).all isOrdinary = true := by
  induction text generalizing column spaced with
  | nil => rfl
  | cons c text ih =>
      rw [List.all_cons, Bool.and_eq_true] at h
      rw [plain]
      split
      · rw [List.all_append, all_newline, ih h.2]
        rfl
      · rw [List.all_cons, h.1, ih h.2]
        rfl

theorem all_single {text : List Char} (h : text.all isOrdinary = true) (column : Nat)
    (previous : Option Char) : (single indent column previous text).all isOrdinary = true := by
  induction text generalizing column previous with
  | nil => rfl
  | cons c text ih =>
      rw [List.all_cons, Bool.and_eq_true] at h
      have hfeeds :
          (if previous = some '\n' then ['\n'] else ['\n', '\n']).all isOrdinary = true := by
        split <;> rfl
      have hindent : (if text.head? = some '\n' then [] else List.replicate indent ' ').all
          isOrdinary = true := by
        split
        · rfl
        · exact all_newline indent
      rw [single]
      split
      · rw [List.all_append, List.all_append, hfeeds, hindent, ih h.2]
        rfl
      split
      · rw [List.all_cons, List.all_cons, h.1, ih h.2]
        rfl
      split
      · rw [List.all_append, all_newline, ih h.2]
        rfl
      · rw [List.all_cons, h.1, ih h.2]
        rfl

theorem all_hexUpper (width n : Nat) : (Text.hexUpper width n).all isOrdinary = true := by
  have hall : ∀ d < 16, isOrdinary (Text.hexDigit d).toUpper = true := by decide
  rw [List.all_eq_true]
  intro c hc
  obtain ⟨digit, hdigit, rfl⟩ := List.mem_map.mp hc
  obtain ⟨d, hd, rfl⟩ := Text.exists_of_mem_hex hdigit
  exact hall d hd

theorem all_escape {c : Char} {text : List Char} (h : escape? c = some text) :
    text.all isOrdinary = true := by
  unfold escape? at h
  split at h
  · next letter hletter =>
    obtain ⟨before, after, htable, -⟩ := List.lookup_eq_some_iff.mp hletter
    have hall : ∀ p ∈ before ++ (c, letter) :: after, isOrdinary p.2 = true := by
      rw [← htable]
      decide
    have hordinary := hall (c, letter) (by simp)
    cases h
    rw [List.all_cons, List.all_cons, hordinary]
    rfl
  split at h
  · cases h
  split at h
  · cases h
    rw [List.all_cons, List.all_cons, all_hexUpper]
    rfl
  split at h
  · cases h
    rw [List.all_cons, List.all_cons, all_hexUpper]
    rfl
  · cases h
    rw [List.all_cons, List.all_cons, all_hexUpper]
    rfl

theorem all_fold (indent : Nat) (next : Option Char) :
    (fold indent next).all isOrdinary = true := by
  rw [fold, List.all_cons, List.all_append, all_newline]
  split <;> rfl

theorem all_double (text : List Char) (column : Nat) (spot : Spot) :
    (double indent column spot text).all isOrdinary = true := by
  induction text generalizing column spot with
  | nil => rfl
  | cons c text ih =>
      rw [double]
      split
      · next escaped hescape =>
        split
        · rw [List.all_append, List.all_append, all_escape hescape, all_fold, ih]
          rfl
        · rw [List.all_append, all_escape hescape, ih]
          rfl
      · next hescape =>
        have hc : isOrdinary c = true := by
          simp [isOrdinary, (plain_of_escape?_eq_none hescape).1]
        split
        · rw [List.all_append, all_fold, List.all_cons, hc, ih]
          rfl
        · rw [List.all_cons, hc, ih]
          rfl

theorem all_write (text : List Char) (indent column : Nat) :
    (write indent column text (styleOf text)).all isOrdinary = true := by
  rcases styleOf_cases text with ⟨hstyle, hfits⟩ | ⟨hstyle, hfits⟩ | hstyle
  · rw [hstyle]
    exact all_plain (all_of_fitsSingle (fitsSingle_of_fitsPlain hfits)) column false
  · rw [hstyle, write, List.all_cons, List.all_append, all_single (all_of_fitsSingle hfits)]
    rfl
  · rw [hstyle, write, List.all_cons, List.all_append, all_double]
    rfl

end ClassDiagram.Yaml
