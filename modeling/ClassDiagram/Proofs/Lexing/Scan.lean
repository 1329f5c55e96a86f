import ClassDiagram.Proofs.Lexing.Symbol

/-!
# Scanning and lexing agree
-/

namespace ClassDiagram

/-- What is wrong with a text that begins with neither layout nor a token: a label that does not
end, or a character with which nothing begins. -/
inductive LexProblem.Explains : LexProblem → List Char → Prop
  | label {problem : LexProblem} {more : List Char} (h : (Label.body more).2 = .error problem) :
      Explains problem ('"' :: more)
  | character {c : Char} {more : List Char} (h : c ≠ '"') :
      Explains (.unexpectedCharacter c) (c :: more)

theorem LexProblem.Explains.unique {problem problem' : LexProblem} {text : List Char}
    (h : problem.Explains text) (h' : problem'.Explains text) : problem = problem' := by
  cases h with
  | label hbody =>
      cases h' with
      | label hbody' =>
          rw [hbody] at hbody'
          exact Except.error.inj hbody'
      | character hquote => exact absurd rfl hquote
  | character hquote =>
      cases h' with
      | label => exact absurd rfl hquote
      | character => rfl

theorem Point.forward_forward (p : Point) (m n : Nat) :
    (p.forward m).forward n = p.forward (m + n) := by
  induction m generalizing p with
  | zero => simp
  | succ m ih => rw [Nat.succ_add, forward_succ, forward_succ, ih]

namespace Scanner

open Grammar

theorem forward_forward (s : Scanner) (m n : Nat) :
    (s.forward m).forward n = s.forward (m + n) := by
  simp [forward, Point.forward_forward]

section Here

variable {s : Scanner} {c : Char} {rest : List Char} {symbol : Symbol}

theorem scanHere_of_operator? (h : Symbol.operator? s.point.rest = some symbol) :
    scanHere c s =
      .ok () ((s.forward symbol.text.length).push symbol.kind symbol.value s.point.place) := by
  obtain ⟨o, ho, rfl⟩ := Option.map_eq_some_iff.mp h
  simp only [scanHere, ho]
  rfl

theorem scanHere_quotation (h : Symbol.operator? s.point.rest = none) :
    scanHere '"' s = scanLabel s.point.place (s.forward 1) := by
  have hoperator : Operator.at? s.point.rest = none := Option.map_eq_none_iff.mp h
  simp [scanHere, hoperator]

theorem scanHere_word (h : Symbol.operator? s.point.rest = none) (hc : Text.isWordChar c = true) :
    scanHere c s = scanWord [c] s.point.place (s.forward 1) := by
  have hoperator : Operator.at? s.point.rest = none := Option.map_eq_none_iff.mp h
  have hquote : c ≠ '"' := by
    rintro rfl
    exact absurd hc (by decide)
  simp [scanHere, hoperator, hquote, hc]

theorem word?_eq (hrest : s.point.rest = c :: rest) :
    Symbol.word? s.point.rest =
      if Text.isWordChar c then some (.ofWord (c :: rest.takeWhile Text.isWordChar)) else none := by
  by_cases hc : Text.isWordChar c
  · simp [Symbol.word?, hrest, hc]
  · simp [Symbol.word?, hrest, hc]

theorem scanHere_of_word? (hrest : s.point.rest = c :: rest)
    (hoperator : Symbol.operator? s.point.rest = none)
    (h : Symbol.word? s.point.rest = some symbol) :
    scanHere c s =
      .ok () ((s.forward symbol.text.length).push symbol.kind symbol.value s.point.place) := by
  rw [word?_eq hrest] at h
  split at h
  · next hc =>
    obtain rfl := Option.some.inj h
    rw [scanHere_word hoperator hc]
    simp [scanWord, hrest, forward_forward, Symbol.kind_ofWord, Symbol.value_ofWord,
      Symbol.text_ofWord, Nat.add_comm 1]
  · cases h

theorem scanHere_of_string? (hrest : s.point.rest = c :: rest)
    (hoperator : Symbol.operator? s.point.rest = none)
    (h : Symbol.string? s.point.rest = some symbol) :
    scanHere c s =
      .ok () ((s.forward symbol.text.length).push symbol.kind symbol.value s.point.place) := by
  rw [hrest] at h
  unfold Symbol.string? at h
  split at h
  · next heq =>
    obtain ⟨rfl, rfl⟩ := List.cons.inj heq
    obtain ⟨n, hn, rfl⟩ := Option.map_eq_some_iff.mp h
    obtain ⟨-, hle, hbody⟩ := Label.body_of_closing? hn
    have hlength : ('"' :: rest.take n).length = 1 + n := by
      simp [Nat.min_eq_left hle, Nat.add_comm]
    rw [scanHere_quotation hoperator]
    simp only [scanLabel, point_forward, Point.rest_forward, hrest, List.drop_succ_cons,
      List.drop_zero, hbody, forward_forward, ← hlength]
    rfl
  · cases h

theorem scanHere_of_mark? (hrest : s.point.rest = c :: rest)
    (hoperator : Symbol.operator? s.point.rest = none) (hword : Symbol.word? s.point.rest = none)
    (h : Symbol.mark? s.point.rest = some symbol) :
    scanHere c s =
      .ok () ((s.forward symbol.text.length).push symbol.kind symbol.value s.point.place) := by
  rw [hrest] at h
  obtain ⟨hkind, htext, hvalue⟩ := Symbol.ofMark?_of_mark? h
  have hc : Text.isWordChar c = false := by
    rw [word?_eq hrest] at hword
    simpa using hword
  have hquote : c ≠ '"' := by
    rintro rfl
    cases hkind
  have hnone : Operator.at? s.point.rest = none := Option.map_eq_none_iff.mp hoperator
  simp [scanHere, hnone, hquote, hc, hkind, htext, hvalue]

/-- Where there is a symbol, the scanner reads it. -/
theorem scanHere_of_symbol (hrest : s.point.rest = c :: rest)
    (h : Symbol.at? s.point.rest = some symbol) :
    scanHere c s =
      .ok () ((s.forward symbol.text.length).push symbol.kind symbol.value s.point.place) := by
  simp only [Symbol.at?, Option.or_eq_some_iff] at h
  rcases h with h | ⟨hoperator, h | ⟨hword, h | ⟨-, h⟩⟩⟩
  · exact scanHere_of_operator? h
  · exact scanHere_of_word? hrest hoperator h
  · exact scanHere_of_string? hrest hoperator h
  · exact scanHere_of_mark? hrest hoperator hword h

/-- Where there is no symbol, the scanner fails and tells why. -/
theorem scanHere_of_no_symbol (hrest : s.point.rest = c :: rest)
    (h : Symbol.at? s.point.rest = none) :
    ∃ problem s', scanHere c s = .error ⟨problem, s.point.place⟩ s' ∧ s'.tokens = s.tokens ∧
      problem.Explains s.point.rest := by
  simp only [Symbol.at?, Option.or_eq_none_iff] at h
  obtain ⟨hoperator, hword, hstring, hmark⟩ := h
  have hc : Text.isWordChar c = false := by
    rw [word?_eq hrest] at hword
    simpa using hword
  by_cases hquote : c = '"'
  · subst hquote
    rw [hrest] at hstring
    have hn : Symbol.closing? rest = none := Option.map_eq_none_iff.mp hstring
    obtain ⟨problem, hproblem⟩ := Label.body_of_closing?_eq_none hn
    refine ⟨problem, (s.forward 1).forward (Label.body rest).1, ?_, rfl, hrest ▸ .label hproblem⟩
    rw [scanHere_quotation hoperator]
    simp [scanLabel, hrest, hproblem]
  · rw [hrest] at hmark
    have hkind := Symbol.ofMark?_of_mark?_eq_none hmark
    have hnone : Operator.at? s.point.rest = none := Option.map_eq_none_iff.mp hoperator
    refine ⟨.unexpectedCharacter c, s.forward 1, ?_, rfl, hrest ▸ .character hquote⟩
    simp [scanHere, hnone, hquote, hc, hkind]

end Here

end Scanner

end ClassDiagram
