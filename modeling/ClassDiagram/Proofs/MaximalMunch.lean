import ClassDiagram.Proofs.Lexing.Munch
import ClassDiagram.Proofs.Lexing.Trail

/-!
# The tokens of a text

A scanner tries operators before words and words before single characters, and it counts lines and
columns as it goes.  What comes out does not show it: the tokens of a text are those of its cut into
layout and longest spellings, at the places that the characters before them tell, and a text that
cannot be cut to its end fails where the cut ends.
-/

namespace ClassDiagram.Token

open Grammar

/-- Scanning a text follows a cut of it, to the end or to the place where it fails. -/
theorem exists_cuts_ofString (text : String) :
    ∃ run rest lexemes, text.toList = run ++ rest ∧ Cuts [] run lexemes rest ∧ Blocked rest ∧
      (rest = [] ∧ ofString? text = .ok (lexemes ++ [⟨.endOfText, "", .behind text.toList⟩]) ∨
        rest ≠ [] ∧ ∃ problem : LexProblem, problem.Explains rest ∧
          ofString? text = .error ⟨problem, .behind run⟩) := by
  obtain ⟨run, rest, hrun, hcuts, hblocked, hend, hstuck⟩ :=
    exists_cuts (.ofString text) [] rfl
  refine ⟨run, rest, _, hrun, hcuts, hblocked, ?_⟩
  cases h : (Lexing.ofString text).stuck with
  | none =>
      refine .inl ⟨hend h, ?_⟩
      obtain ⟨place, htokens⟩ := ofString?_of_lexemes h
      obtain ⟨before, hbefore⟩ := exists_eq_concat_of_ofString? htokens
      have hlast := (List.append_inj' hbefore rfl).2
      have hplace : place = .behind text.toList := by
        rw [(Token.mk.inj (List.cons.inj hlast).1).2.2]
        exact (Place.behind_append [] text.toList).symm
      rw [htokens, hplace]
      rfl
  | some q =>
      obtain ⟨hne, hrest, hplace⟩ := hstuck q h
      obtain ⟨problem, s, hscan, -, hproblem⟩ := Scanner.scanAll_of_stuck h
      refine .inr ⟨hne, problem, hrest ▸ hproblem, ?_⟩
      rw [ofString?, hscan, hplace]
      rfl

variable {text : String}

theorem ofString?_eq_ok_iff {tokens : List Token} :
    ofString? text = .ok tokens ↔ ∃ lexemes, Cuts [] text.toList lexemes [] ∧
      tokens = lexemes ++ [⟨.endOfText, "", .behind text.toList⟩] := by
  obtain ⟨run, rest, lexemes, htext, hcuts, hblocked, hread⟩ := exists_cuts_ofString text
  constructor
  · intro h
    rcases hread with ⟨rfl, hok⟩ | ⟨-, problem, -, herror⟩
    · rw [h] at hok
      rw [List.append_nil] at htext
      exact ⟨lexemes, htext ▸ hcuts, Except.ok.inj hok⟩
    · rw [h] at herror
      cases herror
  · rintro ⟨lexemes', hcuts', rfl⟩
    have heq : run ++ rest = text.toList ++ [] := by rw [← htext, List.append_nil]
    obtain ⟨rfl, rfl⟩ := hcuts.unique hblocked hcuts' blocked_nil heq
    rcases hread with ⟨-, hok⟩ | ⟨hne, -⟩
    · exact hok
    · exact absurd rfl hne

theorem ofString?_eq_error_iff {e : LexError} :
    ofString? text = .error e ↔ ∃ run rest lexemes, text.toList = run ++ rest ∧ rest ≠ [] ∧
      Cuts [] run lexemes rest ∧ Blocked rest ∧ e.problem.Explains rest ∧
      e.place = .behind run := by
  obtain ⟨run, rest, lexemes, htext, hcuts, hblocked, hread⟩ := exists_cuts_ofString text
  constructor
  · intro h
    rcases hread with ⟨-, hok⟩ | ⟨hne, problem, hproblem, herror⟩
    · rw [h] at hok
      cases hok
    · rw [h] at herror
      cases herror
      exact ⟨run, rest, lexemes, htext, hne, hcuts, hblocked, hproblem, rfl⟩
  · rintro ⟨run', rest', lexemes', htext', hne', hcuts', hblocked', hproblem', hplace⟩
    have heq : run ++ rest = run' ++ rest' := htext.symm.trans htext'
    obtain ⟨rfl, rfl⟩ := hcuts.unique hblocked hcuts' hblocked' heq
    obtain rfl := List.append_cancel_right heq
    rcases hread with ⟨hnil, -⟩ | ⟨-, problem, hproblem, herror⟩
    · exact absurd hnil hne'
    · rw [herror, hproblem.unique hproblem', ← hplace]

theorem exists_error_iff_place {place : Place} :
    (∃ problem, ofString? text = .error ⟨problem, place⟩) ↔
      ∃ run rest lexemes, text.toList = run ++ rest ∧ rest ≠ [] ∧ Cuts [] run lexemes rest ∧
        Blocked rest ∧ place = .behind run := by
  constructor
  · rintro ⟨problem, h⟩
    obtain ⟨run, rest, lexemes, htext, hne, hcuts, hblocked, -, hplace⟩ :=
      ofString?_eq_error_iff.mp h
    exact ⟨run, rest, lexemes, htext, hne, hcuts, hblocked, hplace⟩
  · rintro ⟨run, rest, lexemes, htext, hne, hcuts, hblocked, rfl⟩
    obtain ⟨problem, hproblem⟩ := hblocked.exists_problem hne
    exact ⟨problem, ofString?_eq_error_iff.mpr
      ⟨run, rest, lexemes, htext, hne, hcuts, hblocked, hproblem, rfl⟩⟩

/-- The tokens of a text are read off its cut.  If the text can be cut to its end, these are the
tokens of the cut, none of which stands for the end, and after them one for the end at the place
after the text.  If it cannot, scanning fails, and it does so exactly at the place after what can be
cut off, where neither layout nor a token begins though something is left. -/
theorem ofString?_munches (text : String) :
    (∀ tokens, ofString? text = .ok tokens ↔ ∃ lexemes, Cuts [] text.toList lexemes [] ∧
      (∀ t ∈ lexemes, t.kind ≠ .endOfText) ∧
      tokens = lexemes ++ [⟨.endOfText, "", .behind text.toList⟩]) ∧
    ((∃ e, ofString? text = .error e) ↔ ¬ ∃ lexemes, Cuts [] text.toList lexemes []) ∧
    ∀ place, (∃ problem, ofString? text = .error ⟨problem, place⟩) ↔
      ∃ run rest lexemes, text.toList = run ++ rest ∧ rest ≠ [] ∧ Cuts [] run lexemes rest ∧
        Blocked rest ∧ place = .behind run := by
  refine ⟨fun tokens => ?_, ?_, fun place => exists_error_iff_place⟩
  · rw [ofString?_eq_ok_iff]
    constructor
    · rintro ⟨lexemes, hcuts, htokens⟩
      exact ⟨lexemes, hcuts, hcuts.kind_ne_endOfText, htokens⟩
    · rintro ⟨lexemes, hcuts, -, htokens⟩
      exact ⟨lexemes, hcuts, htokens⟩
  · constructor
    · rintro ⟨e, he⟩ ⟨lexemes, hcuts⟩
      rw [ofString?_eq_ok_iff.mpr ⟨lexemes, hcuts, rfl⟩] at he
      cases he
    · intro hnone
      cases h : ofString? text with
      | ok tokens =>
          obtain ⟨lexemes, hcuts, -⟩ := ofString?_eq_ok_iff.mp h
          exact absurd ⟨lexemes, hcuts⟩ hnone
      | error e => exact ⟨e, rfl⟩

/-- The longest spelling is taken even where a shorter one would leave an operator behind it. -/
theorem ofString?_munches_aggregation :
    Cuts [] "o--o".toList
        [⟨.operator .aggregation, "o--", ⟨1, 1⟩⟩, ⟨.identifier, "o", ⟨1, 4⟩⟩] [] ∧
      ¬ ∃ lexemes, Cuts [] "o.".toList lexemes [] := by
  have hok : ofString? "o--o" = .ok ([⟨.operator .aggregation, "o--", ⟨1, 1⟩⟩,
      ⟨.identifier, "o", ⟨1, 4⟩⟩] ++ [⟨.endOfText, "", ⟨1, 5⟩⟩]) := by
    decide +kernel
  have herror : ofString? "o." = .error ⟨.unexpectedCharacter '.', ⟨1, 2⟩⟩ := by
    decide +kernel
  obtain ⟨lexemes, hcuts, -, htokens⟩ := ((ofString?_munches _).1 _).mp hok
  obtain ⟨rfl, -⟩ := List.append_inj' htokens rfl
  exact ⟨hcuts, (ofString?_munches _).2.1.mp ⟨_, herror⟩⟩

end ClassDiagram.Token
