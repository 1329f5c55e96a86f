import ClassDiagram.Proofs.Lexing.Run
import ClassDiagram.Proofs.Lexing.Spelling

/-!
# Cutting texts into tokens

A text is cut from left to right: a blank, a comment up to the end of its line, or the longest
spelling of a token that comes next.  A cut is told without a scanner, by what each piece is and
what follows it; there is at most one way to cut a text as far as one can.  The tokens of a text are
those of its cut, each at the place that is counted from the characters before it.
-/

namespace ClassDiagram

/-- The place after a text, counted from one: its line feeds tell the line, and the characters
after the last of them the column. -/
def Place.behind (before : List Char) : Place :=
  ⟨(1 + before.count '\n' : Nat), (1 + (before.reverse.takeWhile (· != '\n')).length : Nat)⟩

/-- A piece of layout and what follows it: a blank, or a comment that runs to the end of a line. -/
inductive Layout.Piece : List Char → List Char → Prop
  | blank {c : Char} {rest : List Char} (h : isSpace c = true) : Piece [c] rest
  | comment {words rest : List Char} (hwords : '\n' ∉ words)
      (hend : rest = [] ∨ ∃ more, rest = '\n' :: more) : Piece ('/' :: '/' :: words) rest

namespace Token

/-- A spelling of a token, longer than which none begins here. -/
structure Munch (text rest : List Char) (kind : Kind) (value : List Char) : Prop where
  spelling : Spelling text kind value
  longest : ∀ other kind' value', Spelling other kind' value' → other <+: text ++ rest →
    other.length ≤ text.length

/-- Between what stands before and the rest, the run is made of layout and of the tokens. -/
inductive Cuts : List Char → List Char → List Token → List Char → Prop
  | nil {before rest : List Char} : Cuts before [] [] rest
  | layout {before piece run rest : List Char} {tokens : List Token}
      (h : Layout.Piece piece (run ++ rest)) (hrun : Cuts (before ++ piece) run tokens rest) :
      Cuts before (piece ++ run) tokens rest
  | token {before text run rest value : List Char} {kind : Kind} {tokens : List Token}
      (h : Munch text (run ++ rest) kind value) (hrun : Cuts (before ++ text) run tokens rest) :
      Cuts before (text ++ run) (⟨kind, String.ofList value, .behind before⟩ :: tokens) rest

/-- The text begins with neither layout nor a token. -/
structure Blocked (text : List Char) : Prop where
  layout : ∀ piece rest, Layout.Piece piece rest → text ≠ piece ++ rest
  token : ∀ spelling kind value, Spelling spelling kind value → ¬ spelling <+: text

end Token

namespace Place

theorem behind_concat (before : List Char) (c : Char) :
    behind (before ++ [c]) = (behind before).after c := by
  by_cases hc : c = '\n'
  · subst hc
    simp [behind, after]
    omega
  · simp [behind, after, hc]
    omega

theorem behind_append (before run : List Char) :
    behind (before ++ run) = (behind before).afterAll run := by
  induction run generalizing before with
  | nil => simp
  | cons c run ih => rw [List.append_cons, ih, behind_concat, afterAll_cons]

end Place

namespace Layout

open Grammar

theorem Piece.gapLength_pos {piece rest : List Char} (h : Piece piece rest) :
    0 < gapLength (piece ++ rest) := by
  cases h with
  | @blank c _ hc =>
      unfold gapLength
      split
      · next heq =>
        obtain ⟨rfl, -⟩ := List.cons.inj heq
        exact absurd hc (by decide)
      · simp [hc]
  | comment hwords hend => simp [gapLength]

theorem exists_comment (text : List Char) :
    ∃ rest, text = text.takeWhile (· != '\n') ++ rest ∧
      Piece ('/' :: '/' :: text.takeWhile (· != '\n')) rest := by
  refine ⟨text.dropWhile (· != '\n'), List.takeWhile_append_dropWhile.symm, ?_⟩
  refine .comment (fun hmem => by simpa using List.mem_takeWhile_imp hmem) ?_
  cases hdrop : text.dropWhile (· != '\n') with
  | nil => exact .inl rfl
  | cons c rest =>
      have hhead := List.head?_dropWhile_not (· != '\n') text
      exact .inr ⟨rest, by simpa [hdrop] using hhead⟩

/-- A gap is either a run of blanks or a single piece. -/
theorem exists_gap (text : List Char) :
    ∃ gap rest, text = gap ++ rest ∧ gap.length = gapLength text ∧
      ((∀ c ∈ gap, isSpace c = true) ∨ Piece gap rest) := by
  unfold gapLength
  split
  · next more =>
    obtain ⟨rest, hmore, hpiece⟩ := exists_comment more
    refine ⟨_, rest, ?_, by simp, .inr hpiece⟩
    rw [List.cons_append, List.cons_append, ← hmore]
  · exact ⟨text.takeWhile isSpace, text.dropWhile isSpace, List.takeWhile_append_dropWhile.symm,
      rfl, .inl fun c hc => List.mem_takeWhile_imp hc⟩

end Layout

namespace Token

open Grammar

theorem Cuts.blanks {before blanks run rest : List Char} {tokens : List Token}
    (h : ∀ c ∈ blanks, Layout.isSpace c = true) (hrun : Cuts (before ++ blanks) run tokens rest) :
    Cuts before (blanks ++ run) tokens rest := by
  induction blanks generalizing before with
  | nil => simpa using hrun
  | cons c blanks ih =>
      rw [List.append_cons] at hrun
      have htail := ih (fun d hd => h d (List.mem_cons_of_mem c hd)) hrun
      change Cuts before ([c] ++ (blanks ++ run)) tokens rest
      exact .layout (.blank (h c List.mem_cons_self)) htail

theorem munch_of_at? {rest : List Char} {s : Symbol} (h : Symbol.at? (s.text ++ rest) = some s) :
    Munch s.text rest s.kind s.value where
  spelling := (Symbol.spelling_of_at? h).1
  longest := by
    intro other kind value hother hbegins
    obtain ⟨s', hat, hle⟩ := Symbol.exists_at?_of_spelling hother hbegins
    rw [h] at hat
    cases hat
    exact hle

theorem blocked_nil : Blocked [] where
  layout piece rest h heq := by
    have hpos := h.gapLength_pos
    rw [← heq] at hpos
    exact absurd hpos (by decide)
  token spelling kind value h hbegins := h.ne_nil (List.prefix_nil.mp hbegins)

theorem blocked_of_at?_eq_none {text : List Char} (hgap : gapLength text = 0)
    (h : Symbol.at? text = none) : Blocked text where
  layout piece rest hpiece heq := by
    have hpos := hpiece.gapLength_pos
    rw [← heq, hgap] at hpos
    exact Nat.lt_irrefl 0 hpos
  token spelling kind value hspelling hbegins := by
    obtain ⟨s, hat, -⟩ := Symbol.exists_at?_of_spelling hspelling hbegins
    rw [h] at hat
    cases hat

/-- Where nothing begins, there is something wrong. -/
theorem Blocked.exists_problem {text : List Char} (h : Blocked text) (hne : text ≠ []) :
    ∃ problem : LexProblem, problem.Explains text := by
  obtain ⟨c, rest, rfl⟩ := List.exists_cons_of_ne_nil hne
  by_cases hquote : c = '"'
  · subst hquote
    cases hclosing : Symbol.closing? rest with
    | none =>
        obtain ⟨problem, hproblem⟩ := Label.body_of_closing?_eq_none hclosing
        exact ⟨problem, .label hproblem⟩
    | some n =>
        obtain ⟨raw, htake, hraw⟩ := Symbol.exists_spelling_of_closing? hclosing
        have hbegins : '"' :: (raw ++ ['"']) <+: '"' :: rest := by
          rw [← htake]
          exact List.prefix_cons_inj _ |>.mpr (List.take_prefix n rest)
        exact absurd hbegins (h.token _ _ _ (.label hraw))
  · exact ⟨_, .character hquote⟩

/-- Lexing cuts a text as far as it can be cut. -/
theorem exists_cuts (p : Point) (before : List Char) (hp : p.place = .behind before) :
    ∃ run rest, p.rest = run ++ rest ∧
      Cuts before run ((Lexing.ofPoint p).lexemes.map Lexeme.token) rest ∧ Blocked rest ∧
      ((Lexing.ofPoint p).stuck = none → rest = []) ∧
      ∀ q, (Lexing.ofPoint p).stuck = some q →
        rest ≠ [] ∧ q.rest = rest ∧ q.place = .behind (before ++ run) := by
  fun_induction Lexing.ofPoint p generalizing before with
  | case1 p hnil => exact ⟨[], [], hnil, .nil, blocked_nil, fun _ => rfl, by simp⟩
  | case2 p hne hgap ih =>
      obtain ⟨gap, after, htext, hlength, hpiece⟩ := Layout.exists_gap p.rest
      have hafter : (p.forward (gapLength p.rest)).rest = after := by
        rw [Point.rest_forward, ← hlength, htext, List.drop_left]
      have hplace : (p.forward (gapLength p.rest)).place = .behind (before ++ gap) := by
        rw [Point.place_forward, ← hlength, htext, List.take_left, hp, Place.behind_append]
      obtain ⟨run, rest, hrun, hcuts, hblocked, hend, hstuck⟩ := ih _ hplace
      rw [hafter] at hrun
      refine ⟨gap ++ run, rest, by rw [htext, hrun, List.append_assoc], ?_, hblocked, hend, ?_⟩
      · rcases hpiece with hblanks | hpiece
        · exact hcuts.blanks hblanks
        · exact .layout (hrun ▸ hpiece) hcuts
      · simpa using hstuck
  | case3 p hne hgap hnone =>
      have hblocked := blocked_of_at?_eq_none (Nat.eq_zero_of_not_pos hgap) hnone
      refine ⟨[], p.rest, rfl, .nil, hblocked, by simp, ?_⟩
      rintro q ⟨rfl⟩
      exact ⟨hne, rfl, by simpa using hp⟩
  | case4 p hne hgap symbol hsome hpos more ih =>
      obtain ⟨after, htext⟩ := (Symbol.spelling_of_at? hsome).2
      have hafter : (p.forward symbol.text.length).rest = after := by
        rw [Point.rest_forward, ← htext, List.drop_left]
      have hplace : (p.forward symbol.text.length).place = .behind (before ++ symbol.text) := by
        rw [Point.place_forward, ← htext, List.take_left, hp, Place.behind_append]
      obtain ⟨run, rest, hrun, hcuts, hblocked, hend, hstuck⟩ := ih _ hplace
      rw [hafter] at hrun
      subst hrun
      have hmunch : Munch symbol.text (run ++ rest) symbol.kind symbol.value :=
        munch_of_at? (htext ▸ hsome)
      have htoken : Lexeme.token ⟨symbol, p.offset, p.place⟩ =
          ⟨symbol.kind, String.ofList symbol.value, .behind before⟩ := by
        rw [← hp]
        rfl
      refine ⟨symbol.text ++ run, rest, by rw [← htext, List.append_assoc], ?_, hblocked, hend, ?_⟩
      · rw [List.map_cons, htoken]
        exact .token hmunch hcuts
      · simpa using hstuck

end Token

/-- A comment is all that stands before the next line feed. -/
theorem Layout.takeWhile_line {words rest : List Char} (hwords : '\n' ∉ words)
    (hend : rest = [] ∨ ∃ more, rest = '\n' :: more) :
    (words ++ rest).takeWhile (· != '\n') = words := by
  rw [List.takeWhile_append_of_pos fun c hc => by simpa using ne_of_mem_of_not_mem hc hwords]
  rcases hend with rfl | ⟨more, rfl⟩ <;> simp

theorem Layout.Piece.unique {piece piece' rest rest' : List Char} (h : Piece piece rest)
    (h' : Piece piece' rest') (heq : piece ++ rest = piece' ++ rest') : piece = piece' := by
  cases h with
  | blank hc =>
      cases h' with
      | blank hc' => rw [(List.cons.inj heq).1]
      | comment hwords' hend' =>
          rw [(List.cons.inj heq).1] at hc
          exact absurd hc (by decide)
  | comment hwords hend =>
      cases h' with
      | blank hc' =>
          rw [← (List.cons.inj heq).1] at hc'
          exact absurd hc' (by decide)
      | comment hwords' hend' =>
          simp only [List.cons_append, List.cons.injEq, true_and] at heq
          rw [← takeWhile_line hwords hend, heq, takeWhile_line hwords' hend']

theorem Layout.Piece.ne_spelling_append {piece text rest rest' value : List Char}
    {kind : Token.Kind} (h : Piece piece rest) (h' : Token.Spelling text kind value) :
    piece ++ rest ≠ text ++ rest' := by
  intro heq
  obtain ⟨c, more, rfl, hspace, hslash⟩ := h'.exists_head
  cases h with
  | blank hc =>
      rw [(List.cons.inj heq).1, hspace] at hc
      cases hc
  | comment hwords hend => exact hslash (List.cons.inj heq).1.symm

namespace Token

open Grammar

theorem Munch.unique {text text' rest rest' value value' : List Char} {kind kind' : Kind}
    (h : Munch text rest kind value) (h' : Munch text' rest' kind' value')
    (heq : text ++ rest = text' ++ rest') :
    text = text' ∧ rest = rest' ∧ kind = kind' ∧ value = value' := by
  have hle : text.length ≤ text'.length :=
    h'.longest _ _ _ h.spelling (heq ▸ List.prefix_append text rest)
  have hge : text'.length ≤ text.length :=
    h.longest _ _ _ h'.spelling (heq ▸ List.prefix_append text' rest')
  obtain ⟨rfl, rfl⟩ := List.append_inj heq (Nat.le_antisymm hle hge)
  exact ⟨rfl, rfl, h.spelling.unique h'.spelling⟩

theorem Blocked.not_layout {piece rest : List Char} (h : Blocked (piece ++ rest)) :
    ¬ Layout.Piece piece rest := fun hpiece => h.layout _ _ hpiece rfl

theorem Blocked.not_munch {text rest value : List Char} {kind : Kind}
    (h : Blocked (text ++ rest)) : ¬ Munch text rest kind value :=
  fun hmunch => h.token _ _ _ hmunch.spelling (List.prefix_append text rest)

/-- A text that is cut as far as it can be is cut in one way. -/
theorem Cuts.unique {before run rest run' rest' : List Char} {tokens tokens' : List Token}
    (h : Cuts before run tokens rest) (hrest : Blocked rest)
    (h' : Cuts before run' tokens' rest') (hrest' : Blocked rest')
    (heq : run ++ rest = run' ++ rest') : rest = rest' ∧ tokens = tokens' := by
  induction h generalizing run' tokens' with
  | nil =>
      cases h' with
      | nil => exact ⟨heq, rfl⟩
      | layout hpiece _ =>
          rw [List.nil_append, List.append_assoc] at heq
          exact absurd hpiece (heq ▸ hrest).not_layout
      | token hmunch _ =>
          rw [List.nil_append, List.append_assoc] at heq
          exact absurd hmunch (heq ▸ hrest).not_munch
  | layout hpiece hrun ih =>
      cases h' with
      | nil =>
          rw [List.nil_append, List.append_assoc] at heq
          exact absurd hpiece (heq ▸ hrest').not_layout
      | layout hpiece' hrun' =>
          rw [List.append_assoc, List.append_assoc] at heq
          obtain rfl := hpiece.unique hpiece' heq
          exact ih hrest hrun' (List.append_cancel_left heq)
      | token hmunch' hrun' =>
          rw [List.append_assoc, List.append_assoc] at heq
          exact absurd heq (hpiece.ne_spelling_append hmunch'.spelling)
  | token hmunch hrun ih =>
      cases h' with
      | nil =>
          rw [List.nil_append, List.append_assoc] at heq
          exact absurd hmunch (heq ▸ hrest').not_munch
      | layout hpiece' hrun' =>
          rw [List.append_assoc, List.append_assoc] at heq
          exact absurd heq.symm (hpiece'.ne_spelling_append hmunch.spelling)
      | token hmunch' hrun' =>
          rw [List.append_assoc, List.append_assoc] at heq
          obtain ⟨rfl, hmore, rfl, rfl⟩ := hmunch.unique hmunch' heq
          obtain ⟨hend, rfl⟩ := ih hrest hrun' hmore
          exact ⟨hend, rfl⟩

theorem Spelling.kind_ne_endOfText {text value : List Char} {kind : Kind}
    (h : Spelling text kind value) : kind ≠ .endOfText := by
  cases h with
  | operator => exact fun h => nomatch h
  | word => rcases Kind.ofWord_cases text with hkind | hkind | hkind <;> simp [hkind]
  | mark hmark =>
      unfold Kind.ofMark? at hmark
      split at hmark <;> cases hmark <;> decide
  | label => decide

theorem Cuts.kind_ne_endOfText {before run rest : List Char} {tokens : List Token}
    (h : Cuts before run tokens rest) : ∀ t ∈ tokens, t.kind ≠ .endOfText := by
  induction h with
  | nil => simp
  | layout _ _ ih => exact ih
  | token hmunch _ ih => exact List.forall_mem_cons.mpr ⟨hmunch.spelling.kind_ne_endOfText, ih⟩

end Token

end ClassDiagram
