import ClassDiagram.Proofs.Denotation
import ClassDiagram.Proofs.Lexing.Apart

/-!
# Texts one below the other

A line feed ends whatever stands before it: no token holds one, a comment goes no further, and a
label that is still open there is broken, just as it would be at the end of the text.  So the tokens
of two texts one below the other are those of the upper one and then those of the lower one, further
down; and as documents are lists of entities, two diagrams are read as one.
-/

namespace ClassDiagram

namespace Place

/-- The place some lines further down. -/
def down (n : Nat) (p : Place) : Place := ⟨p.line + n, p.column⟩

theorem down_after (n : Nat) (p : Place) (c : Char) : (p.down n).after c = (p.after c).down n := by
  by_cases hc : c = '\n'
  · simp [hc, down]
    omega
  · simp [after_of_ne _ hc, down]

theorem down_afterAll (n : Nat) (p : Place) (run : List Char) :
    (p.down n).afterAll run = (p.afterAll run).down n := by
  induction run generalizing p with
  | nil => rfl
  | cons c run ih => rw [afterAll_cons, down_after, ih, afterAll_cons]

theorem behind_line (above run : List Char) :
    behind (above ++ '\n' :: run) = (behind run).down (above.count '\n' + 1) := by
  have hstart : (behind above).after '\n' = (behind []).down (above.count '\n' + 1) := by
    simp [behind, down]
    omega
  rw [List.append_cons, behind_append, behind_concat, hstart, down_afterAll, ← behind_append,
    List.nil_append]

end Place

/-- An open label is broken by the end of its line as it is by the end of the text. -/
theorem Label.body_append_line {rest : List Char} {problem : LexProblem}
    (h : (body rest).2 = .error problem) (more : List Char) :
    (body (rest ++ '\n' :: more)).2 = .error problem := by
  have hmap : ∀ {x : Except LexProblem (List Char)} {f : List Char → List Char},
      x.map f = .error problem → x = .error problem := by
    rintro (e | value) f hx <;> cases hx
    rfl
  fun_induction body rest with
  | case1 => exact h
  | case2 => cases h
  | case3 => exact h
  | case4 => exact h
  | case5 => exact h
  | case6 c rest hfeed after ih =>
      rw [List.cons_append, List.cons_append, body_backslash hfeed, ih (hmap h)]
      rfl
  | case7 c rest hquote hfeed hlone _ hpair after ih =>
      have hslash : c ≠ '\\' := by
        rintro rfl
        cases rest with
        | nil => exact hlone rfl rfl
        | cons d rest => exact hpair d rest rfl rfl
      rw [List.cons_append, body_cons hquote hfeed hslash, ih (hmap h)]
      rfl

theorem LexProblem.Explains.append_line {problem : LexProblem} {rest : List Char}
    (h : problem.Explains rest) (more : List Char) : problem.Explains (rest ++ '\n' :: more) := by
  cases h with
  | label hbody => exact .label (Label.body_append_line hbody more)
  | character hquote => exact .character hquote

def LexError.moved (f : Place → Place) (e : LexError) : LexError := { e with place := f e.place }

namespace Token

theorem Blocked.append_line {rest : List Char} (h : Blocked rest) (hne : rest ≠ [])
    (more : List Char) : Blocked (rest ++ '\n' :: more) where
  layout piece after hpiece heq := by
    obtain ⟨c, rest, rfl⟩ := List.exists_cons_of_ne_nil hne
    cases hpiece with
    | blank hc =>
        obtain ⟨rfl, -⟩ := List.cons.inj heq
        exact h.layout [c] rest (.blank hc) rfl
    | comment hwords hend =>
        obtain ⟨rfl, htail⟩ := List.cons.inj heq
        cases rest with
        | nil => cases htail
        | cons d rest =>
            obtain ⟨rfl, -⟩ := List.cons.inj htail
            obtain ⟨after', hrest, hcomment⟩ := Layout.exists_comment rest
            exact h.layout _ after' hcomment (by rw [List.cons_append, List.cons_append, ← hrest])
  token spelling kind value hspelling hbegins := by
    have hshort : spelling.length ≤ rest.length := by
      -- A longer one would hold the line feed.
      by_contra hlong
      have hover : rest ++ ['\n'] <+: spelling := by
        apply List.prefix_of_prefix_length_le _ hbegins
        · simp only [List.length_append, List.length_singleton]
          omega
        · exact ⟨more, by simp⟩
      exact hspelling.lineFeed_not_mem (hover.subset (by simp))
    exact h.token spelling kind value hspelling
      (List.prefix_of_prefix_length_le hbegins (List.prefix_append _ _) hshort)

theorem Displaced.eq_moved {above : List Char} {t t' : Token}
    (h : Displaced [] (above ++ ['\n']) t t') : t' = t.moved (.down (above.count '\n' + 1)) := by
  obtain ⟨⟨hkind, hvalue⟩, run, hplace, hplace'⟩ := h
  rw [List.append_assoc, List.singleton_append, Place.behind_line, ← List.nil_append run,
    ← hplace] at hplace'
  cases t'
  simp_all [moved]

/-- A text is cut below another one as it is cut alone, some lines further down. -/
theorem Cuts.under {run rest : List Char} {tokens : List Token} (h : Cuts [] run tokens rest)
    (above : List Char) :
    Cuts (above ++ ['\n']) run (tokens.map (moved (.down (above.count '\n' + 1)))) rest := by
  obtain ⟨tokens', hcuts, hall⟩ := h.exists_displaced (above ++ ['\n'])
  have heq : tokens' = tokens.map (moved (.down (above.count '\n' + 1))) := by
    clear hcuts h
    induction hall with
    | nil => rfl
    | cons hfirst _ ih => rw [ih, hfirst.eq_moved, List.map_cons]
  rwa [← heq]

theorem Cuts.join {above run rest : List Char} {tokens more : List Token}
    (h : Cuts [] above tokens []) (h' : Cuts [] run more rest) :
    Cuts [] (above ++ '\n' :: run)
      (tokens ++ more.map (moved (.down (above.count '\n' + 1)))) rest := by
  have hupper : Cuts [] above tokens ('\n' :: run ++ rest) := h.append_line (run ++ rest)
  have hfeed : Layout.Piece ['\n'] (run ++ rest) := .blank (by decide)
  exact hupper.append (.layout hfeed (h'.under above))

end Token

section

variable {above below : String}

theorem toList_line (above below : String) :
    (above ++ "\n" ++ below).toList = above.toList ++ '\n' :: below.toList := by
  simp

namespace Token

theorem ofString?_line_of_error {e : LexError} (h : ofString? above = .error e) :
    ofString? (above ++ "\n" ++ below) = .error e := by
  obtain ⟨run, rest, lexemes, htext, hne, hcuts, hblocked, hproblem, hplace⟩ :=
    ofString?_eq_error_iff.mp h
  apply ofString?_eq_error_iff.mpr
  refine ⟨run, rest ++ '\n' :: below.toList, lexemes, ?_, by simp, hcuts.append_line _,
    hblocked.append_line hne _, hproblem.append_line _, hplace⟩
  rw [toList_line, htext, List.append_assoc]

theorem ofString?_line_of_ok {tokens more : List Token} (h : ofString? above = .ok tokens)
    (h' : ofString? below = .ok more) :
    ofString? (above ++ "\n" ++ below) =
      .ok (tokens.dropLast ++ more.map (moved (.down (above.toList.count '\n' + 1)))) := by
  obtain ⟨lexemes, hcuts, rfl⟩ := ofString?_eq_ok_iff.mp h
  obtain ⟨lexemes', hcuts', rfl⟩ := ofString?_eq_ok_iff.mp h'
  apply ofString?_eq_ok_iff.mpr
  refine ⟨_, by simpa only [toList_line] using hcuts.join hcuts', ?_⟩
  rw [toList_line, Place.behind_line, List.dropLast_concat, List.map_append, List.append_assoc]
  rfl

theorem ofString?_line_of_error_below {tokens : List Token} {e : LexError}
    (h : ofString? above = .ok tokens) (h' : ofString? below = .error e) :
    ofString? (above ++ "\n" ++ below) =
      .error (e.moved (.down (above.toList.count '\n' + 1))) := by
  obtain ⟨lexemes, hcuts, rfl⟩ := ofString?_eq_ok_iff.mp h
  obtain ⟨run, rest, lexemes', htext, hne, hcuts', hblocked, hproblem, hplace⟩ :=
    ofString?_eq_error_iff.mp h'
  apply ofString?_eq_error_iff.mpr
  refine ⟨_, rest, _, ?_, hne, hcuts.join hcuts', hblocked, hproblem, ?_⟩
  · rw [toList_line, htext, List.append_assoc, List.cons_append]
  · rw [Place.behind_line, ← hplace]
    rfl

end Token

end

/-- The two diagrams as one: the entities of the first, and then those of the second. -/
def Diagram.above (d d' : Diagram) : Diagram := { entities := d.entities ++ d'.entities }

theorem DocumentPhrase.above {run more : List Token} {d d' : Diagram} (h : DocumentPhrase run d)
    (h' : DocumentPhrase more d') : DocumentPhrase (run ++ more) (d.above d') := by
  obtain ⟨hentities⟩ := h
  obtain ⟨hentities'⟩ := h'
  exact .intro (hentities.append hentities')

namespace Reader

theorem read_line {reader : Reader} {above below : String} {d d' : Diagram}
    (h : read reader above = .ok d) (h' : read reader below = .ok d') :
    read reader (above ++ "\n" ++ below) =
      .ok (d.above (d'.moved (.down (above.toList.count '\n' + 1)))) := by
  obtain ⟨lexemes, hcuts, hd⟩ := read_eq_ok_iff_cuts.mp h
  obtain ⟨lexemes', hcuts', hd'⟩ := read_eq_ok_iff_cuts.mp h'
  apply read_eq_ok_iff_cuts.mpr
  exact ⟨_, by simpa only [toList_line] using hcuts.join hcuts', hd.above hd'.moved⟩

/-- Documents one below the other.  What is wrong with the upper text stays wrong, and is told in
the same words.  If nothing is, the tokens are those of the upper text but for its end and those of
the lower one so many lines further down, and what is wrong with the lower text is found there too.
And either reader reads one diagram, of the entities of both. -/
theorem reads_line_by_line :
    (∀ above below e, Token.ofString? above = .error e →
      Token.ofString? (above ++ "\n" ++ below) = .error e) ∧
    (∀ above below tokens, Token.ofString? above = .ok tokens →
      Token.ofString? (above ++ "\n" ++ below) =
        ((Token.ofString? below).map fun more => tokens.dropLast ++
          more.map (Token.moved (.down (above.toList.count '\n' + 1)))).mapError
            (LexError.moved (.down (above.toList.count '\n' + 1)))) ∧
    ∀ reader above below d d', read reader above = .ok d → read reader below = .ok d' →
      read reader (above ++ "\n" ++ below) = .ok { entities := d.entities ++
        (d'.moved (.down (above.toList.count '\n' + 1))).entities } := by
  refine ⟨fun above below e h => ?_, fun above below tokens h => ?_, ?_⟩
  · exact Token.ofString?_line_of_error h
  · cases h' : Token.ofString? below with
    | ok more => exact Token.ofString?_line_of_ok h h'
    | error e => exact Token.ofString?_line_of_error_below h h'
  · intro reader above below d d' h h'
    exact read_line h h'

/-- A label that is open at the end of its line, though the next line begins with a quote; and a
comment that ends with its line, so that the relationship below it is read. -/
theorem reads_line_by_line_openLabel :
    Token.ofString? ("a \"b" ++ "\n" ++ "\"") = .error ⟨.unterminatedString, ⟨1, 3⟩⟩ ∧
    Token.ofString? ("o // -" ++ "\n" ++ "-- b") = .ok
      [⟨.identifier, "o", ⟨1, 1⟩⟩, ⟨.operator .association, "--", ⟨2, 1⟩⟩,
        ⟨.identifier, "b", ⟨2, 4⟩⟩, ⟨.endOfText, "", ⟨2, 5⟩⟩] ∧
    read .grammar ("class A // \x7b" ++ "\n" ++ "o -- A") = .ok { entities :=
      [.classDeclaration { name := "A", place := ⟨1, 1⟩ }, .relationship {
        name := "o -- A", source := "o", target := "A", kind := .association, operator := "--",
        place := ⟨2, 1⟩ }] } := by
  refine ⟨reads_line_by_line.1 _ _ _ (by decide +kernel), ?_, ?_⟩
  · have htokens : Token.ofString? "o // -" =
        .ok [⟨.identifier, "o", ⟨1, 1⟩⟩, ⟨.endOfText, "", ⟨1, 7⟩⟩] := by
      decide +kernel
    rw [reads_line_by_line.2.1 _ _ _ htokens]
    decide +kernel
  · have hupper : read .grammar "class A // \x7b" =
        .ok { entities := [.classDeclaration { name := "A", place := ⟨1, 1⟩ }] } := by
      have htokens : Token.ofString? "class A // \x7b" = .ok [⟨.classWord, "class", ⟨1, 1⟩⟩,
          ⟨.identifier, "A", ⟨1, 7⟩⟩, ⟨.endOfText, "", ⟨1, 13⟩⟩] := by
        decide +kernel
      rw [read_eq_ok_iff_ofTokens htokens]
      decide +kernel
    have hlower : read .grammar "o -- A" = .ok { entities := [.relationship {
        name := "o -- A", source := "o", target := "A", kind := .association, operator := "--",
        place := ⟨1, 1⟩ }] } := by
      have htokens : Token.ofString? "o -- A" = .ok [⟨.identifier, "o", ⟨1, 1⟩⟩,
          ⟨.operator .association, "--", ⟨1, 3⟩⟩, ⟨.identifier, "A", ⟨1, 6⟩⟩,
          ⟨.endOfText, "", ⟨1, 7⟩⟩] := by
        decide +kernel
      rw [read_eq_ok_iff_ofTokens htokens]
      decide +kernel
    exact reads_line_by_line.2.2 .grammar _ _ _ _ hupper hlower

end Reader

end ClassDiagram
