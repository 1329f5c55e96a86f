import ClassDiagram.Proofs.Lexing.Spelled

/-!
# Tokens written apart

Lexical tokens can be written so that they are read again: each in its spelling, labels with their
escapes, and a blank behind each.  Only labels hold blanks, and a label ends at its quote; so no
token goes on over the blank behind it, whatever its neighbours are.
-/

namespace ClassDiagram

namespace Token

open Grammar

/-- Only labels are not written as what they say. -/
theorem Spelling.label_or_verbatim {text value : List Char} {kind : Kind}
    (h : Spelling text kind value) :
    kind = .quotation ∧ (∃ raw, text = '"' :: (raw ++ ['"']) ∧ Label.Spelling raw value) ∨
      kind ≠ .quotation ∧ text = value := by
  cases h with
  | operator => exact .inr ⟨nofun, rfl⟩
  | word =>
      refine .inr ⟨?_, rfl⟩
      rcases Kind.ofWord_cases text with hkind | hkind | hkind <;> simp [hkind]
  | mark hmark =>
      refine .inr ⟨?_, rfl⟩
      unfold Kind.ofMark? at hmark
      split at hmark <;> cases hmark <;> decide
  | label hlabel => exact .inl ⟨rfl, _, rfl, hlabel⟩

/-- A token as it can be written. -/
def written (t : Token) : List Char :=
  if t.kind = .quotation then Label.written t.value.toList else t.value.toList

/-- The tokens one after the other, a blank behind each. -/
def writtenAll (tokens : List Token) : List Char := tokens.flatMap fun t => t.written ++ [' ']

theorem Lexical.spelling_written {t : Token} (h : t.Lexical) :
    Spelling t.written t.kind t.value.toList := by
  obtain ⟨text, htext⟩ := h
  rcases htext.label_or_verbatim with ⟨hkind, -⟩ | ⟨hkind, rfl⟩
  · rw [written, if_pos hkind, hkind]
    exact .label (Label.Spelling.escape _)
  · rw [written, if_neg hkind]
    exact htext

/-- Lexical tokens that are written apart are read again. -/
theorem spells_writtenAll {tokens : List Token} (h : ∀ t ∈ tokens, t.Lexical) :
    Spells (writtenAll tokens) (tokens.map unplaced) := by
  induction tokens with
  | nil => exact .nil
  | cons t tokens ih =>
      obtain ⟨ht, htokens⟩ := List.forall_mem_cons.mp h
      have hfirst := Spells.token ht.spelling_written
      rw [String.ofList_toList] at hfirst
      have hmore : Spells (' ' :: writtenAll tokens) (tokens.map unplaced) :=
        .blank (by decide) (ih htokens)
      have hall := hfirst.append hmore (edge_cons (by decide) _)
      simpa [writtenAll, unplaced] using hall

/-- The tokens of a text can be spelled. -/
theorem Cuts.lexical {before run rest : List Char} {tokens : List Token}
    (h : Cuts before run tokens rest) : ∀ t ∈ tokens, t.Lexical := by
  induction h with
  | nil => simp
  | layout _ _ ih => exact ih
  | token hmunch _ ih => exact List.forall_mem_cons.mpr ⟨hmunch.spelling.lexical _, ih⟩

end Token

end ClassDiagram
