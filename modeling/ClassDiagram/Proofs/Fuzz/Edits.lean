import ClassDiagram.Fuzz.Mutate
import ClassDiagram.Proofs.Fuzz.Documents
import Mathlib.Data.Nat.Bitwise

/-!
# One edit at a time

A mutation never fails, and what it gives differs from the text by one edit.  No piece is empty, and
the pieces put together are the text; so there is always something to choose from, and an edit to
the pieces is an edit to the text.  A changed character is a character: it has the code point that
was asked for, in the same block of 128.
-/

namespace ClassDiagram.Fuzz

namespace Pieces

variable {text piece : List Char}

theorem ne_nil_of_mem_split (h : piece ∈ split text) : piece ≠ [] := by
  fun_induction split text with
  | case1 => cases h
  | case2 c rest n ih =>
      rcases List.mem_cons.mp h with rfl | h
      · have hpos : 0 < n := pieceLength_pos c rest
        simp
        omega
      · exact ih h

theorem flatten_split (text : List Char) : (split text).flatten = text := by
  fun_induction split text with
  | case1 => rfl
  | case2 c rest n ih => rw [List.flatten_cons, ih, List.take_append_drop]

theorem split_eq_nil_iff : split text = [] ↔ text = [] := by
  constructor
  · intro h
    rw [← flatten_split text, h, List.flatten_nil]
  · rintro rfl
    exact split.eq_1

end Pieces

namespace Gen

variable {α : Type} {pieces : List (List Char)} {text : List Char}

/-! ## Random pieces -/

inductive RandomPiece : List Char → Prop
  | keyword {keyword : String} (h : keyword ∈ keywords) : RandomPiece keyword.toList
  | operator {operator : Operator} (h : operator ∈ Operator.table) : RandomPiece operator.spelling
  | punctuation {mark : String} (h : mark ∈ punctuation) : RandomPiece mark.toList
  | visibility (visibility : Visibility) : RandomPiece [visibility.mark]
  | oddity {oddity : String} (h : oddity ∈ oddities) : RandomPiece oddity.toList
  | name {name : String} (h : DrawnName name) : RandomPiece name.toList
  | label {label : List Char} (h : DrawnLabel label) : RandomPiece (Label.written label)
  | space : RandomPiece [' ']
  | lineFeed : RandomPiece ['\n']

theorem yields_piece : Yields piece RandomPiece := by
  refine (yields_choose (by decide)).bind fun keyword hkeyword => ?_
  refine (yields_choose (by decide)).bind fun operator hoperator => ?_
  refine (yields_choose (by decide)).bind fun mark hmark => ?_
  refine (yields_choose (by decide)).bind fun visibility _ => ?_
  refine (yields_choose (by decide)).bind fun oddity hoddity => ?_
  refine yields_drawnName.bind fun name hname => yields_label.bind fun label hlabel => ?_
  refine (yields_choose (List.cons_ne_nil _ _)).mono fun piece hpiece => ?_
  simp only [List.mem_cons, List.not_mem_nil, or_false] at hpiece
  rcases hpiece with rfl | rfl | rfl | rfl | rfl | rfl | rfl | rfl | rfl
  · exact .keyword hkeyword
  · exact .operator hoperator
  · exact .punctuation hmark
  · exact .visibility visibility
  · exact .oddity hoddity
  · exact .name hname
  · exact .label hlabel
  · exact .space
  · exact .lineFeed

/-! ## Changed characters -/

/-- Characters that differ, but not above the lowest seven bits. -/
def SameBlock (c c' : Char) : Prop := c' ≠ c ∧ c'.toNat / 128 = c.toNat / 128

theorem xor_div_block {mask : Nat} (h : mask < 128) (n : Nat) : (n ^^^ mask) / 128 = n / 128 := by
  have hxor : (n ^^^ mask) / 2 ^ 7 = n / 2 ^ 7 ^^^ mask / 2 ^ 7 := Nat.xor_div_two_pow
  have hmask : mask / 2 ^ 7 = 0 := Nat.div_eq_of_lt h
  rwa [hmask, Nat.xor_zero] at hxor

/-- The surrogates begin and end where blocks do, and so do the code points. -/
theorem isValidChar_of_div_eq {m n : Nat} (hn : n.isValidChar) (h : m / 128 = n / 128) :
    m.isValidChar := by
  simp only [Nat.isValidChar] at hn ⊢
  omega

theorem isValidChar_xor {mask : Nat} (h : mask < 128) (c : Char) :
    (c.toNat ^^^ mask).isValidChar :=
  isValidChar_of_div_eq c.valid (xor_div_block h c.toNat)

theorem toNat_flipBits {mask : Nat} (h : mask < 128) (c : Char) :
    (flipBits mask c).toNat = c.toNat ^^^ mask := by
  rw [flipBits, Char.ofNat, dif_pos (isValidChar_xor h c)]
  rfl

theorem sameBlock_flipBits {mask : Nat} (hpos : 1 ≤ mask) (h : mask < 128) (c : Char) :
    SameBlock c (flipBits mask c) := by
  refine ⟨fun heq => ?_, by rw [toNat_flipBits h, xor_div_block h]⟩
  have hxor : c.toNat ^^^ mask = c.toNat := by rw [← toNat_flipBits h, heq]
  have hmask : mask = c.toNat ^^^ (c.toNat ^^^ mask) := by rw [Nat.xor_xor_cancel_left]
  rw [hxor, Nat.xor_self] at hmask
  omega

/-! ## Edits -/

/-- What one edit makes of a text. -/
inductive Edited : List Char → List Char → Prop
  | begun {new : List Char} (hnew : RandomPiece new) : Edited [] new
  | dropped {text piece : List Char} {before after : List (List Char)}
    (h : Pieces.split text = before ++ piece :: after) : Edited text (before ++ after).flatten
  | doubled {text piece : List Char} {before after : List (List Char)}
    (h : Pieces.split text = before ++ piece :: after) :
    Edited text (before ++ piece :: piece :: after).flatten
  | swapped {text p q : List Char} {before after : List (List Char)}
    (h : Pieces.split text = before ++ p :: q :: after) :
    Edited text (before ++ q :: p :: after).flatten
  | alone {text piece : List Char} (h : Pieces.split text = [piece]) : Edited text text
  | inserted {text new : List Char} {before after : List (List Char)} (htext : text ≠ [])
    (h : Pieces.split text = before ++ after) (hnew : RandomPiece new) :
    Edited text (before ++ new :: after).flatten
  | replaced {text : List Char} {o o' : Operator} {before after : List (List Char)}
    (h : Pieces.split text = before ++ o.spelling :: after) (ho : o ∈ Operator.table)
    (ho' : o' ∈ Operator.table) : Edited text (before ++ o'.spelling :: after).flatten
  | flipped {text front back : List Char} {c c' : Char} (h : text = front ++ c :: back)
    (hc : SameBlock c c') : Edited text (front ++ c' :: back)

theorem exists_split {i : Nat} {xs : List α} (h : i < xs.length) :
    ∃ before x after, xs = before ++ x :: after ∧ before.length = i := by
  refine ⟨xs.take i, xs[i], xs.drop (i + 1), ?_, by simp; omega⟩
  rw [← List.drop_eq_getElem_cons h, List.take_append_drop]

theorem split_length_pos (h : text ≠ []) : 0 < (Pieces.split text).length :=
  List.length_pos_iff.mpr (mt Pieces.split_eq_nil_iff.mp h)

theorem yields_drop (h : text ≠ []) :
    Yields (drop (Pieces.split text)) fun pieces => Edited text pieces.flatten := by
  refine (yields_below (split_length_pos h)).bind fun i hi => .pure ?_
  obtain ⟨before, piece, after, hsplit, rfl⟩ := exists_split hi
  rw [hsplit, List.eraseIdx_append_of_length_le le_rfl]
  simpa using Edited.dropped hsplit

theorem yields_duplicate (h : text ≠ []) :
    Yields (duplicate (Pieces.split text)) fun pieces => Edited text pieces.flatten := by
  refine (yields_below (split_length_pos h)).bind fun i hi => .pure ?_
  obtain ⟨before, piece, after, hsplit, rfl⟩ := exists_split hi
  rw [hsplit, List.take_left, List.drop_left]
  simpa using Edited.doubled hsplit

theorem yields_swap (h : text ≠ []) :
    Yields (swap (Pieces.split text)) fun pieces => Edited text pieces.flatten := by
  refine .ite (fun hlength => .pure ?_) fun hlength => ?_
  · have hpos := split_length_pos h
    obtain ⟨piece, hpiece⟩ := List.length_eq_one_iff.mp (by omega : (Pieces.split text).length = 1)
    rw [Pieces.flatten_split]
    exact .alone hpiece
  · refine (yields_below (by omega)).bind fun i hi => .pure ?_
    obtain ⟨before, p, rest, hsplit, rfl⟩ :=
      exists_split (by omega : i < (Pieces.split text).length)
    obtain ⟨q, after, rfl⟩ : ∃ q after, rest = q :: after := by
      refine List.exists_cons_of_ne_nil ?_
      rintro rfl
      simp [hsplit] at hi
    rw [hsplit, List.take_left, List.drop_left]
    exact .swapped hsplit

theorem yields_insert (h : text ≠ []) :
    Yields (insert (Pieces.split text)) fun pieces => Edited text pieces.flatten := by
  refine (yields_below (Nat.succ_pos _)).bind fun i hi => yields_piece.bind fun new hnew => .pure ?_
  exact .inserted h (List.take_append_drop i _).symm hnew

theorem exists_operator_of_mem {i : Nat} (h : i ∈ operatorPositions pieces) :
    ∃ before o after, pieces = before ++ o.spelling :: after ∧ before.length = i ∧
      o ∈ Operator.table := by
  obtain ⟨hi, hoperator⟩ := List.mem_filter.mp h
  obtain ⟨before, piece, after, rfl, rfl⟩ := exists_split (List.mem_range.mp hi)
  obtain ⟨o, ho, hspelling⟩ : ∃ o ∈ Operator.table, o.spelling = piece := by
    simpa [isOperator] using hoperator
  exact ⟨before, o, after, by rw [hspelling], rfl, ho⟩

theorem yields_replaceOperator (h : text ≠ []) :
    Yields (replaceOperator (Pieces.split text)) fun pieces => Edited text pieces.flatten := by
  unfold replaceOperator
  split
  · exact yields_insert h
  · next hne =>
    refine (yields_choose (by decide)).bind fun o' ho' => ?_
    refine (yields_choose hne).bind fun i hi => .pure ?_
    obtain ⟨before, o, after, hsplit, rfl, ho⟩ := exists_operator_of_mem hi
    rw [hsplit]
    simpa using Edited.replaced hsplit ho ho'

theorem yields_flip (h : text ≠ []) :
    Yields (flip (Pieces.split text)) fun pieces => Edited text pieces.flatten := by
  refine (yields_below (split_length_pos h)).bind fun i hi => ?_
  obtain ⟨before, piece, after, hsplit, rfl⟩ := exists_split hi
  have hmem : piece ∈ Pieces.split text := by simp [hsplit]
  have hget : (Pieces.split text).getD before.length [] = piece := by simp [hsplit]
  simp only [hget]
  have hpos : 0 < piece.length := List.length_pos_iff.mpr (Pieces.ne_nil_of_mem_split hmem)
  refine (yields_below hpos).bind fun j hj => ?_
  obtain ⟨front, c, back, rfl, rfl⟩ := exists_split hj
  refine (yields_among (by decide)).bind fun mask hmask => .pure ?_
  have htext : text = (before.flatten ++ front) ++ c :: (back ++ after.flatten) := by
    rw [← Pieces.flatten_split text, hsplit]
    simp
  have hmodify : (front ++ c :: back).modify front.length (flipBits mask) =
      front ++ flipBits mask c :: back := by
    simp [List.modify_eq_take_drop]
  rw [hsplit, hmodify]
  simpa using Edited.flipped htext (sameBlock_flipBits hmask.1 hmask.2 c)

/-- Whatever is drawn, a mutation gives a text with one edit. -/
theorem yields_mutate (text : List Char) : Yields (mutate text) (Edited text) := by
  unfold mutate
  split
  · next h =>
    rw [Pieces.split_eq_nil_iff.mp h]
    exact yields_piece.mono fun _ => .begun
  · next h =>
    have htext : text ≠ [] := mt Pieces.split_eq_nil_iff.mpr h
    refine (yields_choose (List.cons_ne_nil _ _)).bind fun edit hedit => ?_
    have hyields : Yields (edit (Pieces.split text)) fun pieces => Edited text pieces.flatten := by
      simp only [List.mem_cons, List.not_mem_nil, or_false] at hedit
      rcases hedit with rfl | rfl | rfl | rfl | rfl | rfl
      · exact yields_drop htext
      · exact yields_duplicate htext
      · exact yields_swap htext
      · exact yields_insert htext
      · exact yields_replaceOperator htext
      · exact yields_flip htext
    exact hyields.bind fun _ hedited => .pure hedited

/-- Every text has a mutation, whatever is drawn, and it is one edit away.  The code point that a
change of a character asks for is always that of a character. -/
theorem mutate_edits_once (text : List Char) (draws : Draws) :
    (∃ new rest, mutate text draws = .ok new rest ∧ Edited text new) ∧
      ∀ (c : Char) (mask : Nat), mask < 128 →
        (c.toNat ^^^ mask).isValidChar ∧ (flipBits mask c).toNat = c.toNat ^^^ mask :=
  ⟨yields_mutate text draws, fun c _ h => ⟨isValidChar_xor h c, toNat_flipBits h c⟩⟩

/-- The last character before the surrogates with all of its lowest bits changed. -/
theorem mutate_below_surrogates :
    (∃ new rest, mutate ['\ud7ff'] (.ofList [5, 0, 0, 126]) = .ok new rest ∧
        Edited ['\ud7ff'] new) ∧
      ('\ud7ff'.toNat ^^^ 127).isValidChar := by
  obtain ⟨hmutate, hvalid⟩ := mutate_edits_once ['\ud7ff'] (.ofList [5, 0, 0, 126])
  exact ⟨hmutate, (hvalid '\ud7ff' 127 (by decide)).1⟩

end Gen

end ClassDiagram.Fuzz
