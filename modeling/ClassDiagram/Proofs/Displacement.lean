import ClassDiagram.Proofs.Descent.Blame
import ClassDiagram.Proofs.Descent.Placement
import ClassDiagram.Proofs.Trees.Declarations
import ClassDiagram.Proofs.Trees.Unplaced

/-!
# Tokens in other places

Two sequences of tokens that differ in places only are read alike.  To see it, the places of a
sequence are replaced by numbers, which name its tokens; both sequences then come from the numbered
one by a move of places.

There is one thing that a place decides: where the token to blame has a place that cannot be
written, it is this failure that is raised.
-/

namespace ClassDiagram

namespace Token

/-- The tokens with their indices in the place of their places. -/
def numbered (tokens : List Token) : List Token :=
  tokens.mapIdx fun i t => { t with place := ⟨i, 0⟩ }

/-- The place of the token with the number that the place holds. -/
def placeAt (tokens : List Token) (p : Place) : Place :=
  (tokens[p.line.toNat]?.map place).getD .nowhere

theorem numbered_congr {tokens tokens' : List Token}
    (h : tokens'.map unplaced = tokens.map unplaced) : numbered tokens' = numbered tokens := by
  refine List.ext_getElem? fun i => ?_
  have hi : tokens'[i]?.map unplaced = tokens[i]?.map unplaced := by
    rw [← List.getElem?_map, h, List.getElem?_map]
  cases ht : tokens[i]? with
  | none =>
      have ht' : tokens'[i]? = none := by simpa [ht] using hi
      simp [numbered, ht, ht']
  | some t =>
      obtain ⟨t', ht', hsame⟩ : ∃ t', tokens'[i]? = some t' ∧ t'.unplaced = t.unplaced := by
        simpa [ht] using hi
      simp only [unplaced, Token.mk.injEq] at hsame
      simp [numbered, ht, ht', hsame]

/-- Numbers can be looked up. -/
theorem numbered_map_placeAt (tokens : List Token) :
    (numbered tokens).map (moved (placeAt tokens)) = tokens := by
  refine List.ext_getElem? fun i => ?_
  cases h : tokens[i]? with
  | none => simp [numbered, h]
  | some t => simp [numbered, h, moved, placeAt]

end Token

/-- On moved tokens, a document goes as it did, in other places. -/
theorem Rule.diagram_moved {tokens : List Token} (closed : Token.Closed tokens) {f : Place → Place}
    (closed' : Token.Closed (tokens.map (Token.moved f))) :
    diagram (Cursor.ofTokens (tokens.map (Token.moved f)) closed') =
      Outcome.moved f (Diagram.moved f) (diagram (Cursor.ofTokens tokens closed)) := by
  rw [Cursor.ofTokens_moved closed closed']
  exact carries_diagram _

namespace Diagram

variable {tokens : List Token} {d : Diagram} {k : Nat} {e : ParseError}

theorem readTokens_of_ofTokens_eq_ok (h : ofTokens tokens = .ok d) : readTokens tokens = .ok d :=
  mapError_eq_ok_iff.mpr h

theorem readTokens_of_ofTokens_eq_broken (h : ofTokens tokens = .error (.broken e)) :
    readTokens tokens = .error (e.token.place.raise (.broken e)) :=
  mapError_eq_error_iff.mpr ⟨_, h, rfl⟩

/-- The tokens are not read, and the cursor has stopped at the index. -/
structure BreaksAt (tokens : List Token) (k : Nat) (e : ParseError) : Prop where
  closed : Token.Closed tokens
  stops : ∃ c, Rule.diagram (Cursor.ofTokens tokens closed) = .error e c ∧ c.index = k

namespace BreaksAt

theorem ofTokens_eq (h : BreaksAt tokens k e) : ofTokens tokens = .error (.broken e) := by
  obtain ⟨c, hc, -⟩ := h.stops
  exact (ofTokens_eq_broken_iff h.closed).mpr ⟨c, hc⟩

theorem readTokens_eq (h : BreaksAt tokens k e) :
    readTokens tokens = .error (e.token.place.raise (.broken e)) :=
  readTokens_of_ofTokens_eq_broken h.ofTokens_eq

/-- The token at the index is the one to blame. -/
theorem getElem? (h : BreaksAt tokens k e) : tokens[k]? = some e.token := by
  obtain ⟨c, hc, hindex⟩ := h.stops
  obtain ⟨run, -, htokens, hlength, -⟩ := Rule.exists_run_of_diagram_eq_error hc
  rw [htokens, ← hindex, hlength]
  simp

theorem moved (h : BreaksAt tokens k e) (f : Place → Place) :
    BreaksAt (tokens.map (Token.moved f)) k (e.moved f) := by
  obtain ⟨c, hc, hindex⟩ := h.stops
  have closed' : Token.Closed (tokens.map (Token.moved f)) := Token.closed_map_moved.mpr h.closed
  have hmoved := Rule.diagram_moved h.closed closed'
  rw [hc] at hmoved
  exact ⟨closed', _, hmoved, hindex⟩

end BreaksAt

theorem ofTokens_moved (h : ofTokens tokens = .ok d) (f : Place → Place) :
    ofTokens (tokens.map (Token.moved f)) = .ok (d.moved f) := by
  have closed := closed_of_ofTokens_eq_ok h
  have closed' : Token.Closed (tokens.map (Token.moved f)) := Token.closed_map_moved.mpr closed
  obtain ⟨c, hc⟩ := (ofTokens_eq_ok_iff closed).mp h
  have hmoved := Rule.diagram_moved closed closed'
  rw [hc] at hmoved
  exact (ofTokens_eq_ok_iff closed').mpr ⟨_, hmoved⟩

/-- Closed tokens are read, or the cursor stops at one of them. -/
theorem ofTokens_eq_ok_or_breaksAt (closed : Token.Closed tokens) :
    (∃ d, ofTokens tokens = .ok d) ∨ ∃ k e, BreaksAt tokens k e := by
  cases hread : Rule.diagram (Cursor.ofTokens tokens closed) with
  | ok d c => exact .inl ⟨d, (ofTokens_eq_ok_iff closed).mpr ⟨c, hread⟩⟩
  | error e c => exact .inr ⟨c.index, e, closed, c, hread, rfl⟩

theorem exists_outline (h : ofTokens tokens = .ok d) :
    ∃ starts, Outline tokens d.declarations starts := by
  have closed := closed_of_ofTokens_eq_ok h
  obtain ⟨starts, houtline⟩ := ((ofTokens_eq_ok_iff_document closed).mp h).exists_outline
  obtain ⟨last, rest, htokens, -⟩ := Token.exists_end closed
  rw [htokens]
  exact ⟨starts, houtline.front _⟩

/-- Closed tokens and the same tokens in any other places are both read or both not.  If they are,
the two trees differ in places only, and their declarations begin at the same tokens, each where its
first token stands.  If not, the token to blame is the same, and so are the words that follow its
place; each of the two errors is raised unless the place that it tells cannot be written. -/
theorem readTokens_carries_places (tokens tokens' : List Token) (closed : Token.Closed tokens)
    (h : tokens'.map Token.unplaced = tokens.map Token.unplaced) :
    (∃ d d' starts, readTokens tokens = .ok d ∧ readTokens tokens' = .ok d' ∧
      d'.unplaced = d.unplaced ∧
      Outline tokens d.declarations starts ∧ Outline tokens' d'.declarations starts) ∨
    ∃ k e e' words, BreaksAt tokens k e ∧ BreaksAt tokens' k e' ∧
      readTokens tokens = .error (e.token.place.raise (.broken e)) ∧
      readTokens tokens' = .error (e'.token.place.raise (.broken e')) ∧
      tokens[k]? = some e.token ∧ tokens'[k]? = some e'.token ∧
      e.message = e.token.place.describe ++ ": " ++ words ∧
      e'.message = e'.token.place.describe ++ ": " ++ words := by
  -- Both sequences are the numbered tokens, moved.
  have hmoved := Token.numbered_map_placeAt tokens
  have hmoved' := Token.numbered_map_placeAt tokens'
  rw [Token.numbered_congr h] at hmoved'
  have hnumbered : Token.Closed (Token.numbered tokens) := by
    rwa [← hmoved, Token.closed_map_moved] at closed
  rcases ofTokens_eq_ok_or_breaksAt hnumbered with ⟨d, hd⟩ | ⟨k, e, hbreaks⟩
  · left
    obtain ⟨starts, houtline⟩ := exists_outline hd
    have hread := readTokens_of_ofTokens_eq_ok (ofTokens_moved hd (Token.placeAt tokens))
    have hread' := readTokens_of_ofTokens_eq_ok (ofTokens_moved hd (Token.placeAt tokens'))
    refine ⟨_, _, starts, hmoved ▸ hread, hmoved' ▸ hread', by simp, ?_, ?_⟩
    · have hfirst := houtline.moved (Token.placeAt tokens)
      rwa [hmoved, ← declarations_moved] at hfirst
    · have hsecond := houtline.moved (Token.placeAt tokens')
      rwa [hmoved', ← declarations_moved] at hsecond
  · right
    have hfirst := hbreaks.moved (Token.placeAt tokens)
    have hsecond := hbreaks.moved (Token.placeAt tokens')
    rw [hmoved] at hfirst
    rw [hmoved'] at hsecond
    exact ⟨k, _, _, _, hfirst, hsecond, hfirst.readTokens_eq, hsecond.readTokens_eq,
      hfirst.getElem?, hsecond.getElem?, rfl, rfl⟩

/-- The tokens of `class A { + x }`. -/
def markedField : List Token :=
  [⟨.classWord, "class", ⟨1, 1⟩⟩, ⟨.identifier, "A", ⟨1, 7⟩⟩, ⟨.leftBrace, "\x7b", ⟨1, 9⟩⟩,
    ⟨.marker .toAll, "+", ⟨1, 11⟩⟩, ⟨.identifier, "x", ⟨1, 13⟩⟩, ⟨.rightBrace, "\x7d", ⟨1, 15⟩⟩,
    ⟨.endOfText, "", ⟨1, 16⟩⟩]

/-- Tokens may all be in one place, and that in no text. -/
theorem readTokens_carries_places_markedField :
    let others := markedField.map (Token.moved fun _ => ⟨-3, 0⟩)
    Token.Closed markedField ∧
      others.map Token.unplaced = markedField.map Token.unplaced ∧
      ∃ d d' starts, readTokens markedField = .ok d ∧ readTokens others = .ok d' ∧
        d.declarations.map Declaration.place = [⟨1, 1⟩, ⟨1, 11⟩] ∧
        d'.declarations.map Declaration.place = [⟨-3, 0⟩, ⟨-3, 0⟩] ∧ d'.unplaced = d.unplaced ∧
        Outline markedField d.declarations starts ∧ Outline others d'.declarations starts := by
  intro others
  have closed : Token.Closed markedField := by decide
  have hsame : others.map Token.unplaced = markedField.map Token.unplaced := by decide
  have hread : ofTokens markedField = .ok { entities := [.classDeclaration
      { name := "A", place := ⟨1, 1⟩,
        members := [.field { name := "x", visibility := some .toAll, place := ⟨1, 11⟩ }] }] } := by
    decide +kernel
  have hfirst := readTokens_of_ofTokens_eq_ok hread
  rcases readTokens_carries_places markedField others closed hsame with
    ⟨d, d', starts, hd, hd', hrest⟩ | ⟨k, e, e', words, -, -, herror, -⟩
  · have hmoved := readTokens_of_ofTokens_eq_ok (ofTokens_moved hread fun _ => ⟨-3, 0⟩)
    obtain rfl := Except.ok.inj (hfirst.symm.trans hd)
    obtain rfl := Except.ok.inj (hmoved.symm.trans hd')
    exact ⟨closed, hsame, _, _, starts, hd, hd', by decide, by decide, hrest⟩
  · rw [hfirst] at herror
    cases herror

/-- The tokens of `}`. -/
def strayBrace : List Token :=
  [⟨.rightBrace, "\x7d", ⟨1, 1⟩⟩, ⟨.endOfText, "", ⟨1, 2⟩⟩]

/-- A place may decide what is raised, though not whether. -/
theorem strayBrace_raises_by_place :
    let others := strayBrace.map (Token.moved fun _ => ⟨Text.firstTooLong, 1⟩)
    Token.Closed strayBrace ∧
      others.map Token.unplaced = strayBrace.map Token.unplaced ∧
      (∃ e, readTokens strayBrace = .error (.error (.broken e))) ∧
      readTokens others = .error .unwritable := by
  intro others
  have closed : Token.Closed strayBrace := by decide
  have hread : ofTokens strayBrace =
      .error (.broken ⟨⟨.rightBrace, "\x7d", ⟨1, 1⟩⟩, .unexpected⟩) := by
    decide +kernel
  rcases ofTokens_eq_ok_or_breaksAt closed with ⟨d, hd⟩ | ⟨k, e, hbreaks⟩
  · rw [hread] at hd
    cases hd
  · have htoken := hbreaks.ofTokens_eq
    rw [hread] at htoken
    cases htoken
    have hplace : Place.Writable ⟨1, 1⟩ :=
      ⟨Text.writable_of_natAbs_lt (by decide), Text.writable_of_natAbs_lt (by decide)⟩
    have hfirst := hbreaks.readTokens_eq
    rw [Place.raise_of_writable hplace] at hfirst
    have hsecond := (hbreaks.moved fun _ => ⟨Text.firstTooLong, 1⟩).readTokens_eq
    refine ⟨closed, rfl, ⟨_, hfirst⟩, hsecond.trans ?_⟩
    exact congrArg Except.error (Place.raise_firstTooLong 1 _)

end Diagram

end ClassDiagram
