import ClassDiagram.Diagram.Written
import ClassDiagram.Proofs.Lexing.Symbol
import Mathlib.Data.List.TakeWhile

/-!
# Spellings of tokens

How a token may be written is told here without a word on how it is found.  A text may begin with
several spellings; `--|>` begins with a marker and with two operators.  The symbol that comes next
in a text is the longest of them, so no order in which they are tried matters.
-/

namespace ClassDiagram

/-- What may stand between the quotes of a label, and what it says. -/
inductive Label.Spelling : List Char → List Char → Prop
  | nil : Spelling [] []
  | plain {c : Char} {raw value : List Char} (hquote : c ≠ '"') (hslash : c ≠ '\\')
      (hfeed : c ≠ '\n') (h : Spelling raw value) : Spelling (c :: raw) (c :: value)
  | escaped {c : Char} {raw value : List Char} (hfeed : c ≠ '\n') (h : Spelling raw value) :
      Spelling ('\\' :: c :: raw) (unescape c :: value)

/-- How a token of a kind is written, and what it then says. -/
inductive Token.Spelling : List Char → Token.Kind → List Char → Prop
  | operator {o : Operator} (h : o ∈ Operator.table) :
      Spelling o.spelling (.operator o.kind) o.spelling
  | word {word : List Char} (hne : word ≠ []) (h : ∀ c ∈ word, Text.isWordChar c = true) :
      Spelling word (.ofWord word) word
  | mark {c : Char} {kind : Token.Kind} (h : Token.Kind.ofMark? c = some kind) :
      Spelling [c] kind [c]
  | label {raw value : List Char} (h : Label.Spelling raw value) :
      Spelling ('"' :: (raw ++ ['"'])) .quotation value

theorem Token.Spelling.ne_nil {text value : List Char} {kind : Token.Kind}
    (h : Spelling text kind value) : text ≠ [] := by
  cases h with
  | operator h => exact Operator.spelling_ne_nil h
  | word hne h => exact hne
  | mark h => exact List.cons_ne_nil _ _
  | label h => exact List.cons_ne_nil _ _

theorem Token.Kind.ofWord_cases (word : List Char) :
    ofWord word = .classWord ∨ ofWord word = .interfaceWord ∨ ofWord word = .identifier := by
  unfold ofWord
  split
  · exact .inl rfl
  split
  · exact .inr (.inl rfl)
  · exact .inr (.inr rfl)

namespace Operator

/-- The table lists longer spellings first. -/
theorem table_pairwise : table.Pairwise fun o o' => o'.spelling.length ≤ o.spelling.length := by
  decide

/-- No word begins with an operator, though one operator begins with a word. -/
theorem not_isPrefix_word {o : Operator} {word : List Char} (h : o ∈ table)
    (hword : ∀ c ∈ word, Text.isWordChar c = true) : ¬ o.spelling <+: word := by
  intro hbegins
  have hall : ∀ o ∈ table, o.spelling.all Text.isWordChar = false := by decide
  have hspelling : o.spelling.all Text.isWordChar = true :=
    List.all_eq_true.mpr fun c hc => hword c (hbegins.subset hc)
  rw [hall o h] at hspelling
  cases hspelling

theorem at?_spelling {o : Operator} (h : o ∈ table) : at? o.spelling = some o := by
  revert o
  decide

theorem at?_quote (rest : List Char) : at? ('"' :: rest) = none := rfl

/-- The operator that is found in a text is the longest one that the text begins with. -/
theorem exists_at?_of_isPrefix {o : Operator} {text : List Char} (ho : o ∈ table)
    (h : o.spelling <+: text) :
    ∃ o', at? text = some o' ∧ o.spelling.length ≤ o'.spelling.length := by
  cases hat : at? text with
  | none =>
      have hnone := List.find?_eq_none.mp hat o ho
      exact absurd (List.isPrefixOf_iff_prefix.mpr h) hnone
  | some o' =>
      refine ⟨o', rfl, ?_⟩
      obtain ⟨-, before, after, htable, hbefore⟩ := List.find?_eq_some_iff_append.mp hat
      rw [htable] at ho
      rcases List.mem_append.mp ho with hmem | hmem
      · have hnone := hbefore o hmem
        simp [List.isPrefixOf_iff_prefix.mpr h] at hnone
      rcases List.mem_cons.mp hmem with rfl | hmem
      · exact Nat.le_refl _
      · have hsorted := table_pairwise
        rw [htable] at hsorted
        have htail := (List.pairwise_append.mp hsorted).2.1
        exact (List.pairwise_cons.mp htail).1 o hmem

end Operator

namespace Label.Spelling

open Grammar.Symbol Grammar

theorem closing?_append {raw value : List Char} (h : Spelling raw value) (rest : List Char) :
    closing? (raw ++ '"' :: rest) = some (raw.length + 1) := by
  induction h with
  | nil =>
      unfold closing?
      rfl
  | plain hquote hslash hfeed _ ih =>
      unfold closing?
      simp [hquote, hslash, hfeed, ih]
  | escaped hfeed _ ih =>
      unfold closing?
      simp [hfeed, ih]

theorem resolve_eq {raw value : List Char} (h : Spelling raw value) :
    unquote.resolve raw = value := by
  induction h with
  | nil => rfl
  | plain hquote hslash hfeed _ ih => rw [resolve_cons hslash, ih]
  | escaped hfeed _ ih => simp [unquote.resolve, ih]

/-- Every text can be told in a label. -/
theorem escape (value : List Char) : Spelling (value.flatMap Label.escape) value := by
  induction value with
  | nil => exact .nil
  | cons c value ih =>
      rw [List.flatMap_cons, Label.escape]
      by_cases hquote : c = '"'
      · subst hquote
        exact .escaped (by decide) ih
      by_cases hslash : c = '\\'
      · subst hslash
        exact .escaped (by decide) ih
      by_cases hfeed : c = '\n'
      · subst hfeed
        exact .escaped (c := 'n') (by decide) ih
      · rw [if_neg hquote, if_neg hslash, if_neg hfeed]
        exact .plain hquote hslash hfeed ih

end Label.Spelling

namespace Grammar.Symbol

theorem exists_spelling_of_closing? {text : List Char} {n : Nat} (h : closing? text = some n) :
    ∃ raw, text.take n = raw ++ ['"'] ∧ Label.Spelling raw (unquote.resolve raw) := by
  fun_induction closing? text generalizing n with
  | case1 => cases h
  | case2 rest =>
      cases h
      exact ⟨[], rfl, .nil⟩
  | case3 => cases h
  | case4 => cases h
  | case5 => cases h
  | case6 d rest hd _ _ ih =>
      obtain ⟨m, hm, rfl⟩ := Option.map_eq_some_iff.mp h
      obtain ⟨raw, htake, hraw⟩ := ih hm
      refine ⟨'\\' :: d :: raw, by simp [htake], ?_⟩
      simpa [unquote.resolve] using Label.Spelling.escaped hd hraw
  | case7 c rest hquote hfeed hslash ih =>
      obtain ⟨m, hm, rfl⟩ := Option.map_eq_some_iff.mp h
      obtain ⟨raw, htake, hraw⟩ := ih hm
      refine ⟨c :: raw, by simp [htake], ?_⟩
      rw [resolve_cons hslash]
      exact .plain hquote hslash hfeed hraw

theorem spelling_of_operator? {text : List Char} {s : Symbol} (h : operator? text = some s) :
    Token.Spelling s.text s.kind s.value ∧ s.text <+: text := by
  obtain ⟨o, ho, rfl⟩ := Option.map_eq_some_iff.mp h
  obtain ⟨rest, hrest⟩ := Operator.spelling_append_of_at? ho
  exact ⟨.operator (Operator.mem_table_of_at? ho), rest, hrest.symm⟩

theorem spelling_of_word? {text : List Char} {s : Symbol} (h : word? text = some s) :
    Token.Spelling s.text s.kind s.value ∧ s.text <+: text := by
  unfold word? at h
  split at h
  · cases h
  · next word hne =>
    cases h
    rw [text_ofWord, kind_ofWord, value_ofWord]
    exact ⟨.word hne fun c hc => List.mem_takeWhile_imp hc, List.takeWhile_prefix _⟩

theorem spelling_of_string? {text : List Char} {s : Symbol} (h : string? text = some s) :
    Token.Spelling s.text s.kind s.value ∧ s.text <+: text := by
  unfold string? at h
  split at h
  · next rest =>
    obtain ⟨n, hn, rfl⟩ := Option.map_eq_some_iff.mp h
    obtain ⟨raw, htake, hraw⟩ := exists_spelling_of_closing? hn
    have htext : ('"' :: rest).take (n + 1) = '"' :: (raw ++ ['"']) := by simp [htake]
    have hvalue : unquote (('"' :: rest).take (n + 1)) = unquote.resolve raw := by
      rw [htext]
      simp [unquote]
    refine ⟨?_, List.take_prefix (n + 1) _⟩
    change Token.Spelling (('"' :: rest).take (n + 1)) .quotation (unquote _)
    rw [hvalue, htext]
    exact .label hraw
  · cases h

theorem spelling_of_mark? {text : List Char} {s : Symbol} (h : mark? text = some s) :
    Token.Spelling s.text s.kind s.value ∧ s.text <+: text := by
  cases text with
  | nil => cases h
  | cons c rest =>
      obtain ⟨hkind, htext, hvalue⟩ := ofMark?_of_mark? h
      rw [htext, hvalue]
      exact ⟨.mark hkind, rest, rfl⟩

/-- The symbol that comes next is a spelling that the text begins with. -/
theorem spelling_of_at? {text : List Char} {s : Symbol} (h : at? text = some s) :
    Token.Spelling s.text s.kind s.value ∧ s.text <+: text := by
  simp only [at?, Option.or_eq_some_iff] at h
  rcases h with h | ⟨-, h | ⟨-, h | ⟨-, h⟩⟩⟩
  · exact spelling_of_operator? h
  · exact spelling_of_word? h
  · exact spelling_of_string? h
  · exact spelling_of_mark? h

theorem at?_of_operator {text : List Char} {o : Operator} (h : Operator.at? text = some o) :
    at? text = some ⟨.operator, o⟩ := by
  unfold at? operator?
  rw [h]
  rfl

theorem word?_append {word : List Char} (hne : word ≠ [])
    (hword : ∀ c ∈ word, Text.isWordChar c = true) (rest : List Char) :
    word? (word ++ rest) = some (ofWord (word ++ rest.takeWhile Text.isWordChar)) := by
  unfold word?
  rw [List.takeWhile_append_of_pos hword]
  split
  · next hnil => exact absurd (List.append_eq_nil_iff.mp hnil).1 hne
  · rfl

theorem at?_of_word {word rest : List Char} (hne : word ≠ [])
    (hword : ∀ c ∈ word, Text.isWordChar c = true) (h : Operator.at? (word ++ rest) = none) :
    at? (word ++ rest) = some (ofWord (word ++ rest.takeWhile Text.isWordChar)) := by
  have hoperator : operator? (word ++ rest) = none := Option.map_eq_none_iff.mpr h
  rw [at?, hoperator, word?_append hne hword, Option.none_or, Option.some_or]

theorem exists_at?_of_word {word : List Char} (hne : word ≠ [])
    (hword : ∀ c ∈ word, Text.isWordChar c = true) (rest : List Char) :
    ∃ s, at? (word ++ rest) = some s ∧ word.length ≤ s.text.length := by
  cases hoperator : Operator.at? (word ++ rest) with
  | none =>
      refine ⟨_, at?_of_word hne hword hoperator, ?_⟩
      simp [text_ofWord]
  | some o =>
      refine ⟨_, at?_of_operator hoperator, ?_⟩
      -- The word ends within the operator, or else it would begin with it.
      by_contra hlt
      obtain ⟨more, hmore⟩ := Operator.spelling_append_of_at? hoperator
      have hshort : o.spelling <+: word := List.prefix_of_prefix_length_le ⟨more, hmore.symm⟩
        (List.prefix_append word rest) (Nat.le_of_lt (Nat.lt_of_not_le hlt))
      exact Operator.not_isPrefix_word (Operator.mem_table_of_at? hoperator) hword hshort

theorem exists_at?_of_mark {c : Char} {kind : Token.Kind} (h : Token.Kind.ofMark? c = some kind)
    (rest : List Char) : ∃ s, at? (c :: rest) = some s ∧ 0 < s.text.length := by
  cases hat : at? (c :: rest) with
  | some s => exact ⟨s, rfl, List.length_pos_iff.mpr (text_ne_nil_of_at? hat)⟩
  | none =>
      simp only [at?, Option.or_eq_none_iff] at hat
      rw [ofMark?_of_mark?_eq_none hat.2.2.2] at h
      cases h

theorem at?_of_label {raw value : List Char} (h : Label.Spelling raw value) (rest : List Char) :
    at? ('"' :: (raw ++ '"' :: rest)) = some ⟨.string, '"' :: (raw ++ ['"'])⟩ := by
  have hoperator : operator? ('"' :: (raw ++ '"' :: rest)) = none :=
    Option.map_eq_none_iff.mpr (Operator.at?_quote _)
  have hword : word? ('"' :: (raw ++ '"' :: rest)) = none := by
    simp [word?, show Text.isWordChar '"' = false by decide]
  have hstring : string? ('"' :: (raw ++ '"' :: rest)) =
      some ⟨.string, '"' :: (raw ++ ['"'])⟩ := by
    have htake : (raw ++ '"' :: rest).take (raw.length + 1) = raw ++ ['"'] := by
      rw [List.take_length_add_append]
      rfl
    simp [string?, h.closing?_append, htake]
  rw [at?, hoperator, hword, hstring, Option.none_or, Option.none_or, Option.some_or]

/-- A text that begins with a spelling has a symbol next, and no shorter one. -/
theorem exists_at?_of_spelling {spelling value text : List Char} {kind : Token.Kind}
    (h : Token.Spelling spelling kind value) (hbegins : spelling <+: text) :
    ∃ s, at? text = some s ∧ spelling.length ≤ s.text.length := by
  cases h with
  | operator ho =>
      obtain ⟨o', hat, hle⟩ := Operator.exists_at?_of_isPrefix ho hbegins
      exact ⟨_, at?_of_operator hat, hle⟩
  | word hne hword =>
      obtain ⟨rest, rfl⟩ := hbegins
      exact exists_at?_of_word hne hword rest
  | mark hmark =>
      obtain ⟨rest, rfl⟩ := hbegins
      exact exists_at?_of_mark hmark rest
  | label hlabel =>
      obtain ⟨rest, rfl⟩ := hbegins
      have hat := at?_of_label hlabel rest
      exact ⟨_, by simpa using hat, Nat.le_refl _⟩

/-- A spelling alone is the token that it spells. -/
theorem exists_at?_self {text value : List Char} {kind : Token.Kind}
    (h : Token.Spelling text kind value) :
    ∃ s, at? text = some s ∧ s.kind = kind ∧ s.value = value := by
  cases h with
  | operator ho => exact ⟨_, at?_of_operator (Operator.at?_spelling ho), rfl, rfl⟩
  | word hne hword =>
      have hoperator : Operator.at? (text ++ []) = none := by
        rw [List.append_nil]
        cases hat : Operator.at? text with
        | none => rfl
        | some o =>
            obtain ⟨rest, hrest⟩ := Operator.spelling_append_of_at? hat
            exact absurd ⟨rest, hrest.symm⟩
              (Operator.not_isPrefix_word (Operator.mem_table_of_at? hat) hword)
      have hat := at?_of_word hne hword hoperator
      simp only [List.append_nil, List.takeWhile_nil] at hat
      exact ⟨_, hat, kind_ofWord _, value_ofWord _⟩
  | @mark c _ hmark =>
      unfold Token.Kind.ofMark? at hmark
      split at hmark <;> cases hmark <;> exact ⟨_, rfl, rfl, rfl⟩
  | @label raw _ hlabel =>
      refine ⟨_, at?_of_label hlabel [], rfl, ?_⟩
      change unquote.resolve ('"' :: (raw ++ ['"'])).tail.dropLast = _
      simpa using hlabel.resolve_eq

end Grammar.Symbol

namespace Token.Spelling

/-- A text is the spelling of at most one token. -/
theorem unique {text value value' : List Char} {kind kind' : Token.Kind}
    (h : Spelling text kind value) (h' : Spelling text kind' value') :
    kind = kind' ∧ value = value' := by
  obtain ⟨s, hat, rfl, rfl⟩ := Grammar.Symbol.exists_at?_self h
  obtain ⟨s', hat', rfl, rfl⟩ := Grammar.Symbol.exists_at?_self h'
  rw [hat] at hat'
  cases hat'
  exact ⟨rfl, rfl⟩

/-- No spelling begins as layout does. -/
theorem exists_head {text value : List Char} {kind : Token.Kind} (h : Spelling text kind value) :
    ∃ c rest, text = c :: rest ∧ Layout.isSpace c = false ∧ c ≠ '/' := by
  cases h with
  | @operator o ho =>
      have hall : ∀ o ∈ Operator.table, o.spelling.head?.any
          (fun c => !Layout.isSpace c && c != '/') = true := by decide
      cases hspelling : o.spelling with
      | nil => exact absurd hspelling (Operator.spelling_ne_nil ho)
      | cons c rest => exact ⟨c, rest, rfl, by simpa [hspelling] using hall o ho⟩
  | word hne hword =>
      obtain ⟨c, rest, rfl⟩ := List.exists_cons_of_ne_nil hne
      have hc := hword c List.mem_cons_self
      refine ⟨c, rest, rfl, ?_, ?_⟩
      · cases hspace : Layout.isSpace c with
        | false => rfl
        | true =>
            simp only [Layout.isSpace, Bool.or_eq_true, beq_iff_eq] at hspace
            rcases hspace with ((rfl | rfl) | rfl) | rfl <;> exact absurd hc (by decide)
      · rintro rfl
        exact absurd hc (by decide)
  | mark hmark =>
      refine ⟨_, _, rfl, ?_⟩
      unfold Token.Kind.ofMark? at hmark
      split at hmark <;> cases hmark <;> decide
  | label hlabel => exact ⟨_, _, rfl, by decide, by decide⟩

end Token.Spelling

end ClassDiagram
