import ClassDiagram.Proofs.Lexing.Spelling

/-!
# Escapes between quotes

In a label a backslash takes the next character with it.  A quote so taken does not close the label,
and a backslash so taken takes nothing.  Hence what stands between two quotes is one label unless a
quote in it is not taken, a backslash is still to take the closing quote, or the line ends in it.

A scanner resolves escapes as it reads, while the grammar finds the whole string first and resolves
them afterwards.  They take the same texts for labels and agree on what those say.
-/

namespace ClassDiagram

namespace Label

/-- Whether a backslash in the text takes the character that follows the text. -/
def escaping (text : List Char) : Bool :=
  text.foldl (fun taken c => !taken && c == '\\') false

/-- The text can stand between quotes: its own quotes are taken by backslashes, the one behind it is
not, and it goes over no end of a line. -/
structure Closable (raw : List Char) : Prop where
  lineFeed_not_mem : '\n' ∉ raw
  quotes : ∀ before after, raw = before ++ '"' :: after → escaping before = true
  closing : escaping raw = false

@[simp] theorem escaping_nil : escaping [] = false := rfl

theorem escaping_cons {c : Char} (h : c ≠ '\\') (text : List Char) :
    escaping (c :: text) = escaping text := by
  have hc : (c == '\\') = false := beq_false_of_ne h
  simp [escaping, hc]

@[simp] theorem escaping_pair (c : Char) (text : List Char) :
    escaping ('\\' :: c :: text) = escaping text := by
  simp [escaping]

theorem Spelling.closable {raw value : List Char} (h : Spelling raw value) : Closable raw := by
  induction h with
  | nil => exact ⟨by simp, by simp, rfl⟩
  | @plain c raw value hquote hslash hfeed _ ih =>
      refine ⟨?_, ?_, ?_⟩
      · simpa [eq_comm, hfeed] using ih.lineFeed_not_mem
      · intro before after heq
        cases before with
        | nil => exact absurd (List.cons.inj heq).1 hquote
        | cons d before =>
            obtain ⟨rfl, hraw⟩ := List.cons.inj heq
            rw [escaping_cons hslash]
            exact ih.quotes before after hraw
      · rw [escaping_cons hslash]
        exact ih.closing
  | @escaped c raw value hfeed _ ih =>
      refine ⟨?_, ?_, ?_⟩
      · simpa [eq_comm, hfeed] using ih.lineFeed_not_mem
      · -- The quote is the character taken, or it stands behind the pair.
        rintro (_ | ⟨d, _ | ⟨e, before⟩⟩) after heq
        · exact absurd (List.cons.inj heq).1 (by decide)
        · obtain ⟨rfl, -⟩ := List.cons.inj heq
          rfl
        · simp only [List.cons_append, List.cons.injEq] at heq
          obtain ⟨rfl, rfl, hraw⟩ := heq
          rw [escaping_pair]
          exact ih.quotes before after hraw
      · rw [escaping_pair]
        exact ih.closing

namespace Closable

variable {c : Char} {raw : List Char}

theorem not_quote (h : Closable ('"' :: raw)) : False := by
  have hnil := h.quotes [] raw rfl
  cases hnil

theorem of_cons (h : Closable (c :: raw)) (hslash : c ≠ '\\') : Closable raw where
  lineFeed_not_mem := List.not_mem_of_not_mem_cons h.lineFeed_not_mem
  quotes before after heq := by
    have hquote := h.quotes (c :: before) after (by rw [heq]; rfl)
    rwa [escaping_cons hslash] at hquote
  closing := by
    have hclosing := h.closing
    rwa [escaping_cons hslash] at hclosing

theorem of_pair (h : Closable ('\\' :: c :: raw)) : Closable raw where
  lineFeed_not_mem hmem := h.lineFeed_not_mem (List.mem_cons_of_mem _ (List.mem_cons_of_mem c hmem))
  quotes before after heq := by
    have hquote := h.quotes ('\\' :: c :: before) after (by rw [heq]; rfl)
    rwa [escaping_pair] at hquote
  closing := by
    have hclosing := h.closing
    rwa [escaping_pair] at hclosing

theorem exists_spelling (h : Closable raw) : ∃ value, Spelling raw value := by
  fun_induction body raw with
  | case1 => exact ⟨[], .nil⟩
  | case2 rest => exact h.not_quote.elim
  | case3 rest => exact absurd List.mem_cons_self h.lineFeed_not_mem
  | case4 => exact absurd h.closing (by decide)
  | case5 rest => exact absurd (List.mem_cons_of_mem _ List.mem_cons_self) h.lineFeed_not_mem
  | case6 c rest hfeed _ ih =>
      obtain ⟨value, hvalue⟩ := ih h.of_pair
      exact ⟨_, .escaped hfeed hvalue⟩
  | case7 c rest hquote hfeed hlast hbroken hpair _ ih =>
      -- A backslash would stand alone, before a line feed, or before another character.
      have hslash : c ≠ '\\' := by
        rintro rfl
        cases rest with
        | nil => exact hlast rfl rfl
        | cons d rest => exact hpair d rest rfl rfl
      obtain ⟨value, hvalue⟩ := ih (h.of_cons hslash)
      exact ⟨_, .plain hquote hslash hfeed hvalue⟩

end Closable

theorem closable_iff {raw : List Char} : Closable raw ↔ ∃ value, Spelling raw value :=
  ⟨Closable.exists_spelling, fun ⟨_, h⟩ => h.closable⟩

end Label

open Grammar Grammar.Symbol

namespace Label

variable {raw value : List Char}

/-- What can stand between quotes is read up to the closing quote. -/
theorem Spelling.body_closed (h : Spelling raw value) :
    body (raw ++ ['"']) = (raw.length + 1, .ok value) := by
  obtain ⟨-, -, hbody⟩ := body_of_closing? (h.closing?_append [])
  rw [hbody, List.take_of_length_le (by simp), List.dropLast_concat, h.resolve_eq]

/-- What is read up to the closing quote can stand between quotes. -/
theorem spelling_of_body {n : Nat} (h : body (raw ++ ['"']) = (n, .ok value))
    (hall : raw.length < n) : Spelling raw value := by
  cases hclosing : closing? (raw ++ ['"']) with
  | none =>
      obtain ⟨problem, hproblem⟩ := body_of_closing?_eq_none hclosing
      rw [h] at hproblem
      cases hproblem
  | some m =>
      obtain ⟨-, hle, hbody⟩ := body_of_closing? hclosing
      rw [h] at hbody
      obtain ⟨rfl, hvalue⟩ := Prod.mk.inj hbody
      obtain ⟨raw', htake, hraw'⟩ := exists_spelling_of_closing? hclosing
      have hlength : (raw ++ ['"']).length ≤ n := by simpa using Nat.succ_le_of_lt hall
      rw [List.take_of_length_le hlength] at htake hvalue
      rw [List.dropLast_concat] at hvalue
      obtain rfl := (List.append_inj' htake rfl).1
      rwa [← Except.ok.inj hvalue] at hraw'

end Label

namespace Grammar.Symbol

theorem unquote_quoted {raw value : List Char} (h : Label.Spelling raw value) :
    unquote ('"' :: (raw ++ ['"'])) = value := by
  simp [unquote, h.resolve_eq]

/-- The grammar takes a text between quotes for one string if the text can stand there. -/
theorem string?_quoted_iff {raw : List Char} :
    string? ('"' :: (raw ++ ['"'])) = some ⟨.string, '"' :: (raw ++ ['"'])⟩ ↔
      Label.Closable raw := by
  rw [Label.closable_iff]
  constructor
  · intro h
    obtain ⟨n, hclosing, hn⟩ := Option.map_eq_some_iff.mp h
    obtain ⟨raw', htake, hraw'⟩ := exists_spelling_of_closing? hclosing
    have hwhole : ('"' :: (raw ++ ['"'])).take (n + 1) = '"' :: (raw ++ ['"']) :=
      congrArg text hn
    rw [List.take_succ_cons, htake] at hwhole
    obtain rfl := (List.append_inj' (List.cons.inj hwhole).2 rfl).1
    exact ⟨_, hraw'⟩
  · rintro ⟨value, h⟩
    have hclosing := h.closing?_append []
    have htake : (raw ++ ['"']).take (raw.length + 1) = raw ++ ['"'] :=
      List.take_of_length_le (by simp)
    simp only [string?, hclosing, Option.map_some, List.take_succ_cons, htake]

end Grammar.Symbol

namespace Scanner

variable {s s' : Scanner} {raw : List Char}

theorem scanLabel_of_spelling {value : List Char} (hs : s.point.rest = raw ++ ['"'])
    (h : Label.Spelling raw value) (start : Place) :
    ∃ s', scanLabel start s = .ok () s' ∧ s'.point.rest = [] ∧
      s'.tokens = s.tokens.push ⟨.quotation, String.ofList value, start⟩ := by
  refine ⟨(s.forward (raw.length + 1)).push .quotation value start, ?_, ?_, rfl⟩
  · simp only [scanLabel, hs, h.body_closed]
  · simp [hs]

theorem spelling_of_scanLabel {start : Place} (hs : s.point.rest = raw ++ ['"'])
    (h : scanLabel start s = .ok () s') (hrest : s'.point.rest = []) :
    ∃ value, Label.Spelling raw value ∧
      s'.tokens = s.tokens.push ⟨.quotation, String.ofList value, start⟩ := by
  cases hbody : Label.body s.point.rest with
  | mk n outcome =>
      simp only [scanLabel, hbody] at h
      cases outcome with
      | error problem => cases h
      | ok value =>
          cases h
          rw [hs] at hbody
          have hend : (raw ++ ['"']).drop n = [] := by simpa [hs] using hrest
          have hall := List.drop_eq_nil_iff.mp hend
          rw [List.length_append] at hall
          exact ⟨value, Label.spelling_of_body hbody hall, rfl⟩

/-- Behind an opening quote, a scanner reads a text and the closing quote behind it as one label
exactly if the grammar takes all of it for one string, and both do unless the text goes over the end
of a line, holds a quote that is not taken by a backslash, or ends on a backslash that takes the
closing quote.  The scanner then resolves the escapes as the grammar does, and a text written with
escapes for its quotes, backslashes and line feeds is told in this way. -/
theorem labels_resolve_alike (hs : s.point.rest = raw ++ ['"']) (start : Place) :
    ((∃ s', scanLabel start s = .ok () s' ∧ s'.point.rest = []) ↔ Label.Closable raw) ∧
    (string? ('"' :: s.point.rest) = some ⟨.string, '"' :: s.point.rest⟩ ↔ Label.Closable raw) ∧
    (∀ s', scanLabel start s = .ok () s' → s'.point.rest = [] →
      s'.tokens = s.tokens.push
        ⟨.quotation, String.ofList (unquote ('"' :: s.point.rest)), start⟩) ∧
    ∀ value : List Char, raw = value.flatMap Label.escape →
      unquote ('"' :: s.point.rest) = value ∧
      ∃ s', scanLabel start s = .ok () s' ∧ s'.point.rest = [] ∧
        s'.tokens = s.tokens.push ⟨.quotation, String.ofList value, start⟩ := by
  refine ⟨⟨?_, fun h => ?_⟩, ?_, fun s' h hrest => ?_, ?_⟩
  · rintro ⟨s', h, hrest⟩
    obtain ⟨value, hvalue, -⟩ := spelling_of_scanLabel hs h hrest
    exact hvalue.closable
  · obtain ⟨value, hvalue⟩ := h.exists_spelling
    obtain ⟨s', hscan, hrest, -⟩ := scanLabel_of_spelling hs hvalue start
    exact ⟨s', hscan, hrest⟩
  · rw [hs]
    exact string?_quoted_iff
  · obtain ⟨value, hvalue, htokens⟩ := spelling_of_scanLabel hs h hrest
    rw [htokens, hs, unquote_quoted hvalue]
  · rintro value rfl
    have hvalue := Label.Spelling.escape value
    rw [hs]
    exact ⟨unquote_quoted hvalue, scanLabel_of_spelling hs hvalue start⟩

/-- A label that says a quote, a backslash and a line feed, and one that a backslash keeps open. -/
theorem labels_resolve_alike_backslashes :
    (∃ s', scanLabel .start (.ofString "\\\"\\\\\\n\"") = .ok () s' ∧ s'.point.rest = [] ∧
      s'.tokens = #[⟨.quotation, "\"\\\n", .start⟩]) ∧
    ¬ ∃ s', scanLabel .start (.ofString "\\\\\\\"") = .ok () s' ∧ s'.point.rest = [] := by
  constructor
  · obtain ⟨-, -, -, hwritten⟩ := @labels_resolve_alike (.ofString "\\\"\\\\\\n\"")
      ['\\', '"', '\\', '\\', '\\', 'n'] rfl .start
    exact (hwritten ['"', '\\', '\n'] rfl).2
  · obtain ⟨hread, -⟩ := @labels_resolve_alike (.ofString "\\\\\\\"") ['\\', '\\', '\\'] rfl .start
    rw [hread]
    intro h
    exact absurd h.closing (by decide)

end Scanner

end ClassDiagram
