import ClassDiagram.Proofs.Denotation
import ClassDiagram.Proofs.Lexing.Apart

/-!
# Layout put in

Blanks and comments can be put into a text wherever no token and no comment goes on: in front of a
token and behind it, between blanks, before the slashes of a comment, and at its end.  There the
last line of what was a comment only becomes longer, and every token ends where it ended.  So the
tokens stay the same, and what the text says does too; only places move.
-/

namespace ClassDiagram

/-- Blanks and comments one after the other, each comment with the line feed that ends it. -/
inductive Layout.Trivia : List Char → Prop
  | nil : Trivia []
  | blank {c : Char} {more : List Char} (hc : isSpace c = true) (h : Trivia more) :
      Trivia (c :: more)
  | comment {words more : List Char} (hwords : '\n' ∉ words) (h : Trivia more) :
      Trivia ('/' :: '/' :: (words ++ '\n' :: more))

namespace Token

/-- What a text begins with, and the tokens that it is: a piece of layout is none, and the longest
spelling is one. -/
inductive Next (before piece rest : List Char) : List Token → Prop
  | layout (h : Layout.Piece piece rest) : Next before piece rest []
  | token {kind : Kind} {value : List Char} (h : Munch piece rest kind value) :
      Next before piece rest [⟨kind, String.ofList value, .behind before⟩]

/-- A token or a comment of the text begins before the offset and ends after it. -/
def Astride (text : List Char) (offset : Nat) : Prop :=
  ∃ front piece back tokens lexemes, text = front ++ (piece ++ back) ∧
    Cuts [] front tokens (piece ++ back) ∧ Next front piece back lexemes ∧
    front.length < offset ∧ offset < front.length + piece.length

theorem Next.ne_nil {before piece rest : List Char} {lexemes : List Token}
    (h : Next before piece rest lexemes) : piece ≠ [] := by
  cases h with
  | layout hpiece => cases hpiece <;> exact List.cons_ne_nil _ _
  | token hmunch => exact hmunch.spelling.ne_nil

theorem Next.unique {before before' piece piece' rest rest' : List Char}
    {lexemes lexemes' : List Token} (h : Next before piece rest lexemes)
    (h' : Next before' piece' rest' lexemes') (heq : piece ++ rest = piece' ++ rest') :
    piece = piece' := by
  cases h with
  | layout hpiece =>
      cases h' with
      | layout hpiece' => exact hpiece.unique hpiece' heq
      | token hmunch' => exact absurd heq (hpiece.ne_spelling_append hmunch'.spelling)
  | token hmunch =>
      cases h' with
      | layout hpiece' => exact absurd heq.symm (hpiece'.ne_spelling_append hmunch.spelling)
      | token hmunch' => exact (hmunch.unique hmunch' heq).1

namespace Cuts

variable {before run rest : List Char} {tokens : List Token}

theorem next {piece : List Char} {lexemes : List Token}
    (hrun : Cuts (before ++ piece) run tokens rest) (h : Next before piece (run ++ rest) lexemes) :
    Cuts before (piece ++ run) (lexemes ++ tokens) rest := by
  cases h with
  | layout hpiece => exact .layout hpiece hrun
  | token hmunch => exact .token hmunch hrun

theorem exists_next (h : Cuts before run tokens rest) :
    (run = [] ∧ tokens = []) ∨ ∃ piece more lexemes tokens', run = piece ++ more ∧
      tokens = lexemes ++ tokens' ∧ Next before piece (more ++ rest) lexemes ∧
      Cuts (before ++ piece) more tokens' rest := by
  cases h with
  | nil => exact .inl ⟨rfl, rfl⟩
  | layout hpiece hrun => exact .inr ⟨_, _, _, _, rfl, rfl, .layout hpiece, hrun⟩
  | token hmunch hrun => exact .inr ⟨_, _, _, _, rfl, rfl, .token hmunch, hrun⟩

theorem eq_nil (h : Cuts before [] tokens rest) : tokens = [] := by
  rcases h.exists_next with ⟨-, htokens⟩ | ⟨piece, more, _, _, hrun, -, hnext, -⟩
  · exact htokens
  · exact absurd (List.append_eq_nil_iff.mp hrun.symm).1 hnext.ne_nil

@[elab_as_elim]
theorem next_induction {rest : List Char}
    {motive : ∀ before run tokens, Cuts before run tokens rest → Prop}
    (nil : ∀ before, motive before [] [] .nil)
    (next : ∀ before piece run lexemes tokens (hnext : Next before piece (run ++ rest) lexemes)
      (hrun : Cuts (before ++ piece) run tokens rest), motive _ _ _ hrun →
      motive before (piece ++ run) (lexemes ++ tokens) (hrun.next hnext))
    {before run : List Char} {tokens : List Token} (h : Cuts before run tokens rest) :
    motive before run tokens h := by
  induction h with
  | nil => exact nil _
  | layout hpiece hrun ih => exact next _ _ _ _ _ (.layout hpiece) hrun (ih nil next)
  | token hmunch hrun ih => exact next _ _ _ _ _ (.token hmunch) hrun (ih nil next)

/-- A cut can be taken apart anywhere, unless one of its pieces goes on there. -/
theorem split_or_exists_next (h : Cuts before run tokens rest) (n : Nat) :
    (∃ left right, tokens = left ++ right ∧ Cuts before (run.take n) left (run.drop n ++ rest) ∧
      Cuts (before ++ run.take n) (run.drop n) right rest) ∨
    ∃ front piece back tokens' lexemes, run = front ++ (piece ++ back) ∧
      Cuts before front tokens' (piece ++ (back ++ rest)) ∧
      Next (before ++ front) piece (back ++ rest) lexemes ∧
      front.length < n ∧ n < front.length + piece.length := by
  induction h using next_induction generalizing n with
  | nil before => exact .inl ⟨[], [], rfl, by simpa using .nil, by simpa using .nil⟩
  | next before piece run lexemes tokens hpiece hrun ih =>
      by_cases hlt : n < piece.length
      · -- The offset is in front of the first piece, or inside it.
        rcases Nat.eq_zero_or_pos n with rfl | hpos
        · exact .inl ⟨[], _, rfl, .nil, by simpa using hrun.next hpiece⟩
        · exact .inr ⟨[], piece, run, [], lexemes, rfl, .nil, by simpa using hpiece, hpos,
            by simpa using hlt⟩
      · obtain ⟨m, rfl⟩ := Nat.exists_eq_add_of_le (Nat.le_of_not_lt hlt)
        rw [List.take_length_add_append, List.drop_length_add_append]
        rcases ih m with ⟨left, right, rfl, hleft, hright⟩ |
          ⟨front, piece', back, tokens', lexemes', rfl, hfront, hpiece', hbegins, hends⟩
        · refine .inl ⟨lexemes ++ left, right, (List.append_assoc ..).symm, hleft.next ?_, ?_⟩
          · rwa [← List.append_assoc, List.take_append_drop]
          · rwa [← List.append_assoc]
        · refine .inr ⟨piece ++ front, piece', back, lexemes ++ tokens', lexemes', by simp,
            hfront.next (by simpa using hpiece), by rwa [← List.append_assoc], ?_, ?_⟩
          all_goals
            rw [List.length_append]
            omega

theorem length_le_or_le {front piece back : List Char} {tokens' lexemes : List Token}
    (h : Cuts before run tokens rest) (h' : Cuts before front tokens' (piece ++ back))
    (hpiece : Next (before ++ front) piece back lexemes)
    (heq : run ++ rest = front ++ (piece ++ back)) :
    run.length ≤ front.length ∨ front.length + piece.length ≤ run.length := by
  induction h using next_induction generalizing front tokens' with
  | nil => exact .inl (Nat.zero_le _)
  | next before first run firsts tokens hfirst hrun ih =>
      rw [List.append_assoc] at heq
      rcases h'.exists_next with ⟨rfl, -⟩ | ⟨first', front, _, _, rfl, -, hfirst', hfront⟩
      · obtain rfl := hfirst.unique hpiece heq
        simp
      · rw [List.append_assoc] at heq
        obtain rfl := hfirst.unique hfirst' heq
        have hle := ih hfront (by rwa [List.append_assoc]) (List.append_cancel_left heq)
        simp only [List.length_append]
        omega

end Cuts

/-- Nothing goes on over an offset if the text up to there can be cut. -/
theorem Cuts.not_astride {before after : List Char} {tokens : List Token}
    (h : Cuts [] before tokens after) : ¬ Astride (before ++ after) before.length := by
  rintro ⟨front, piece, back, tokens', lexemes, heq, hfront, hpiece, hbegins, hends⟩
  have hle := h.length_le_or_le hfront hpiece heq
  omega

end Token

/-! ## Trivia -/

namespace Layout.Trivia

variable {trivia : List Char}

theorem cuts (h : Trivia trivia) (before rest : List Char) :
    Token.Cuts before trivia [] rest := by
  induction h generalizing before with
  | nil => exact .nil
  | @blank c more hc _ ih =>
      have hblank : Piece [c] (more ++ rest) := .blank hc
      exact .layout hblank (ih _)
  | @comment words more hwords _ ih =>
      have hcomment : Piece ('/' :: '/' :: words) ('\n' :: more ++ rest) :=
        .comment hwords (.inr ⟨more ++ rest, rfl⟩)
      have hfeed : Piece ['\n'] (more ++ rest) := .blank (by decide)
      exact .layout hcomment (.layout hfeed (ih _))

theorem edge (h : Trivia trivia) (hne : trivia ≠ []) (rest : List Char) :
    Token.Edge (trivia ++ rest) := by
  cases h with
  | nil => exact absurd rfl hne
  | blank hc => exact Token.edge_cons (.of_isSpace hc) _
  | comment => exact Token.edge_cons (by decide) _

theorem exists_line (h : Trivia trivia) :
    ∃ line more, trivia = line ++ more ∧ '\n' ∉ line ∧ Trivia more ∧
      (more = [] ∨ ∃ after, more = '\n' :: after) := by
  induction h with
  | nil => exact ⟨[], [], rfl, by simp, .nil, .inl rfl⟩
  | @blank c rest hc hrest ih =>
      by_cases hfeed : c = '\n'
      · subst hfeed
        exact ⟨[], _, rfl, by simp, .blank hc hrest, .inr ⟨rest, rfl⟩⟩
      · obtain ⟨line, more, rfl, hline, hmore, hend⟩ := ih
        exact ⟨c :: line, more, rfl, by simp [Ne.symm hfeed, hline], hmore, hend⟩
  | @comment words more hwords hmore _ =>
      exact ⟨'/' :: '/' :: words, '\n' :: more, rfl, by simp [hwords],
        .blank (by decide) hmore, .inr ⟨more, rfl⟩⟩

end Layout.Trivia

namespace Token

open Layout (Trivia)

/-- What is put in behind a cut text is cut off with it.  If a comment stands before it, the comment
takes its first line. -/
theorem Cuts.append_trivia {before run rest trivia : List Char} {tokens : List Token}
    (h : Cuts before run tokens rest) (htrivia : Trivia trivia) :
    Cuts before (run ++ trivia) tokens rest := by
  by_cases hnil : trivia = []
  · rwa [hnil, List.append_nil]
  induction h with
  | nil => exact htrivia.cuts _ _
  | @layout before piece run rest tokens hpiece hrun ih =>
      cases hpiece with
      | blank hc =>
          rw [List.append_assoc]
          exact .layout (.blank hc) ih
      | @comment words _ hwords hend =>
          cases run with
          | cons c run =>
              have hfeed : ∃ more, c :: run ++ trivia ++ rest = '\n' :: more := by
                rcases hend with hend | ⟨more, hend⟩
                · cases hend
                · obtain ⟨rfl, -⟩ := List.cons.inj hend
                  exact ⟨run ++ trivia ++ rest, rfl⟩
              rw [List.append_assoc]
              exact .layout (.comment hwords (.inr hfeed)) ih
          | nil =>
              -- Nothing ends the comment before what is put in, so it goes on to the end of the
              -- line.
              obtain ⟨line, more, rfl, hline, hmore, hends⟩ := htrivia.exists_line
              have hcomment : Layout.Piece ('/' :: '/' :: (words ++ line)) (more ++ rest) := by
                refine .comment (by simp [hwords, hline]) ?_
                rcases hends with rfl | ⟨after, rfl⟩
                · exact hend
                · exact .inr ⟨after ++ rest, rfl⟩
              obtain rfl := hrun.eq_nil
              have hcuts := Cuts.layout hcomment (hmore.cuts (before ++ _) rest)
              simpa using hcuts
  | @token before text run rest value kind tokens hmunch _ ih =>
      have hmunch' : Munch text (run ++ trivia ++ rest) kind value := by
        rw [List.append_assoc]
        exact hmunch.follow (htrivia.edge hnil rest)
      rw [List.append_assoc]
      exact .token hmunch' ih

theorem map_unplaced_of_displaced {front front' : List Char} {tokens tokens' : List Token}
    (h : List.Forall₂ (Displaced front front') tokens tokens') :
    tokens'.map unplaced = tokens.map unplaced := by
  induction h with
  | nil => rfl
  | @cons t t' _ _ hfirst _ ih =>
      obtain ⟨⟨hkind, hvalue⟩, -⟩ := hfirst
      have hunplaced : t'.unplaced = t.unplaced := Token.mk.injEq .. ▸ ⟨hkind, hvalue, rfl⟩
      rw [List.map_cons, List.map_cons, hunplaced, ih]

/-- A cut with layout put in has the same tokens, if at other places. -/
theorem Cuts.exists_insert {text trivia : List Char} {lexemes : List Token} {offset : Nat}
    (h : Cuts [] text lexemes []) (hoffset : ¬ Astride text offset) (htrivia : Trivia trivia) :
    ∃ lexemes', Cuts [] (text.take offset ++ trivia ++ text.drop offset) lexemes' [] ∧
      lexemes'.map unplaced = lexemes.map unplaced := by
  rcases h.split_or_exists_next offset with ⟨left, right, rfl, hleft, hright⟩ | hastride
  · obtain ⟨right', hright', hall⟩ := hright.exists_displaced (text.take offset ++ trivia)
    refine ⟨left ++ right', (hleft.append_trivia htrivia).append hright', ?_⟩
    rw [List.map_append, List.map_append, map_unplaced_of_displaced hall]
  · simp only [List.append_nil, List.nil_append] at hastride
    exact absurd hastride hoffset

end Token

namespace Reader

open Layout (Trivia)

theorem read_of_unplaced {reader : Reader} {text text' : String} {d : Diagram}
    {lexemes lexemes' : List Token} (hcuts : Token.Cuts [] text.toList lexemes [])
    (hcuts' : Token.Cuts [] text'.toList lexemes' [])
    (hsame : lexemes'.map Token.unplaced = lexemes.map Token.unplaced)
    (h : read reader text = .ok d) :
    ∃ d', read reader text' = .ok d' ∧ d'.unplaced = d.unplaced := by
  obtain ⟨lexemes₁, hcuts₁, hd⟩ := read_eq_ok_iff_cuts.mp h
  obtain ⟨-, rfl⟩ := hcuts₁.unique Token.blocked_nil hcuts Token.blocked_nil rfl
  obtain ⟨d', hd', hunplaced⟩ := exists_document_of_unplaced hcuts' hd hsame
  exact ⟨d', read_eq_ok_iff_cuts.mpr ⟨lexemes', hcuts', hd'⟩, hunplaced⟩

/-- Layout means nothing.  Wherever blanks and comments are put into a text that has tokens, but not
into a token or a comment, the tokens stay what they are, and either reader reads the text just if
it did before; what it reads is then the same but for the places. -/
theorem reads_through_layout {text : String} {tokens : List Token} {trivia : List Char}
    {offset : Nat} (h : Token.ofString? text = .ok tokens)
    (hoffset : ¬ Token.Astride text.toList offset) (htrivia : Trivia trivia) :
    let text' := String.ofList (text.toList.take offset ++ trivia ++ text.toList.drop offset)
    (∃ tokens', Token.ofString? text' = .ok tokens' ∧
      tokens'.map Token.unplaced = tokens.map Token.unplaced) ∧
    ∀ reader, ((∃ d', read reader text' = .ok d') ↔ ∃ d, read reader text = .ok d) ∧
      ∀ d d', read reader text = .ok d → read reader text' = .ok d' →
        d'.unplaced = d.unplaced := by
  intro text'
  obtain ⟨lexemes, hcuts, rfl⟩ := Token.ofString?_eq_ok_iff.mp h
  obtain ⟨lexemes', hcuts', hsame⟩ := hcuts.exists_insert hoffset htrivia
  have htext' : Token.Cuts [] text'.toList lexemes' [] := by rwa [String.toList_ofList]
  refine ⟨⟨_, Token.ofString?_eq_ok_iff.mpr ⟨lexemes', htext', rfl⟩, ?_⟩, fun reader => ⟨?_, ?_⟩⟩
  · rw [List.map_append, List.map_append, hsame]
    rfl
  · constructor
    · rintro ⟨d', hd'⟩
      obtain ⟨d, hd, -⟩ := read_of_unplaced htext' hcuts hsame.symm hd'
      exact ⟨d, hd⟩
    · rintro ⟨d, hd⟩
      obtain ⟨d', hd', -⟩ := read_of_unplaced hcuts htext' hsame hd
      exact ⟨d', hd'⟩
  · intro d d' hd hd'
    obtain ⟨d₁, hd₁, hunplaced⟩ := read_of_unplaced hcuts htext' hsame hd
    rw [hd'] at hd₁
    cases hd₁
    exact hunplaced

/-- A blank and a comment behind another comment, which takes them in, in front of its line feed. -/
theorem reads_through_layout_comment :
    Token.ofString? "o// x\n-- b" = .ok [⟨.identifier, "o", ⟨1, 1⟩⟩,
        ⟨.operator .association, "--", ⟨2, 1⟩⟩, ⟨.identifier, "b", ⟨2, 4⟩⟩,
        ⟨.endOfText, "", ⟨2, 5⟩⟩] ∧
      ¬ Token.Astride "o// x\n-- b".toList 5 ∧ Trivia " // -\n".toList ∧
      ∃ d', read .descent "o// x // -\n\n-- b" = .ok d' ∧
        d'.unplaced = { entities := [.relationship {
          name := "o -- b", source := "o", target := "b", kind := .association,
          operator := "--" }] } := by
  have htokens : Token.ofString? "o// x\n-- b" = .ok [⟨.identifier, "o", ⟨1, 1⟩⟩,
      ⟨.operator .association, "--", ⟨2, 1⟩⟩, ⟨.identifier, "b", ⟨2, 4⟩⟩,
      ⟨.endOfText, "", ⟨2, 5⟩⟩] := by
    decide +kernel
  have hoffset : ¬ Token.Astride "o// x\n-- b".toList 5 := by
    have hupper : Token.ofString? "o// x" =
        .ok ([⟨.identifier, "o", ⟨1, 1⟩⟩] ++ [⟨.endOfText, "", ⟨1, 6⟩⟩]) := by
      decide +kernel
    obtain ⟨lexemes, hcuts, -⟩ := Token.ofString?_eq_ok_iff.mp hupper
    exact (hcuts.append_line "-- b".toList).not_astride
  have htrivia : Trivia " // -\n".toList := by
    have hwords : '\n' ∉ " -".toList := by decide
    exact .blank rfl (.comment hwords .nil)
  have hread : read .descent "o// x\n-- b" = .ok { entities := [.relationship {
      name := "o -- b", source := "o", target := "b", kind := .association, operator := "--",
      place := ⟨1, 1⟩ }] } := by
    rw [read_eq_ok_iff_ofTokens htokens]
    decide +kernel
  have htext' : String.ofList ("o// x\n-- b".toList.take 5 ++ " // -\n".toList ++
      "o// x\n-- b".toList.drop 5) = "o// x // -\n\n-- b" := by
    decide +kernel
  obtain ⟨-, halike⟩ := reads_through_layout htokens hoffset htrivia
  obtain ⟨hiff, hsame⟩ := halike .descent
  obtain ⟨d', hd'⟩ := hiff.mpr ⟨_, hread⟩
  exact ⟨htokens, hoffset, htrivia, d', htext' ▸ hd', hsame _ _ hread hd'⟩

end Reader

end ClassDiagram
