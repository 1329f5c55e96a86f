import ClassDiagram.Proofs.Relayout

/-!
# Carriage returns before line feeds

A text may end its lines with a carriage return and a line feed.  The return is a blank like others,
the last character of a comment, or a character of a label that its line breaks off, and it is
never part of a token.  Since the line feed behind it starts a new line, no place moves.
-/

namespace ClassDiagram

/-- The text with a carriage return put before every line feed. -/
def Text.withReturns (text : List Char) : List Char :=
  text.flatMap fun c => if c = '\n' then ['\r', '\n'] else [c]

namespace Text

@[simp] theorem withReturns_nil : withReturns [] = [] := rfl

@[simp] theorem withReturns_lineFeed (text : List Char) :
    withReturns ('\n' :: text) = '\r' :: '\n' :: withReturns text := rfl

theorem withReturns_cons {c : Char} (h : c ≠ '\n') (text : List Char) :
    withReturns (c :: text) = c :: withReturns text := by
  simp [withReturns, h]

@[simp] theorem withReturns_append (text more : List Char) :
    withReturns (text ++ more) = withReturns text ++ withReturns more := List.flatMap_append

theorem withReturns_of_lineFeed_not_mem {text : List Char} (h : '\n' ∉ text) :
    withReturns text = text := by
  induction text with
  | nil => rfl
  | cons c text ih =>
      have hc : '\n' ≠ c := List.ne_of_not_mem_cons h
      rw [withReturns_cons hc.symm, ih (List.not_mem_of_not_mem_cons h)]

@[simp] theorem withReturns_eq_nil_iff {text : List Char} : withReturns text = [] ↔ text = [] := by
  cases text with
  | nil => simp
  | cons c text =>
      by_cases hc : c = '\n'
      · simp [hc]
      · simp [withReturns_cons hc]

/-- What does not end on a return and does not go over the end of a line was there before. -/
theorem isPrefix_of_withReturns {words text : List Char} (h : words <+: withReturns text)
    (hfeed : '\n' ∉ words) (hlast : words.getLast? ≠ some '\r') : words <+: text := by
  induction text generalizing words with
  | nil => simpa using h
  | cons c text ih =>
      cases words with
      | nil => exact List.nil_prefix
      | cons w words =>
          have hwords : '\n' ∉ words := List.not_mem_of_not_mem_cons hfeed
          by_cases hc : c = '\n'
          · -- Only the return stands before the line feed.
            rw [hc, withReturns_lineFeed] at h
            obtain ⟨rfl, hmore⟩ := List.cons_prefix_cons.mp h
            cases words with
            | nil => exact absurd rfl hlast
            | cons w words =>
                obtain ⟨rfl, -⟩ := List.cons_prefix_cons.mp hmore
                exact absurd List.mem_cons_self hwords
          · rw [withReturns_cons hc] at h
            obtain ⟨rfl, hmore⟩ := List.cons_prefix_cons.mp h
            refine (List.prefix_cons_inj w).mpr (ih hmore hwords ?_)
            cases words with
            | nil => simp
            | cons => simpa using hlast

end Text

open Text

theorem Place.afterAll_withReturns (p : Place) (text : List Char) :
    p.afterAll (withReturns text) = p.afterAll text := by
  induction text generalizing p with
  | nil => rfl
  | cons c text ih =>
      by_cases hc : c = '\n'
      · rw [hc, withReturns_lineFeed, afterAll_cons, afterAll_cons, afterAll_cons, ih]
        rfl
      · rw [withReturns_cons hc, afterAll_cons, afterAll_cons, ih]

theorem Place.behind_withReturns (before : List Char) :
    behind (withReturns before) = behind before := by
  rw [← List.nil_append (withReturns before), behind_append, afterAll_withReturns, ← behind_append,
    List.nil_append]

namespace Token

variable {before run rest : List Char} {tokens : List Token}

/-- A spelling goes over no end of a line, with a return or without one. -/
theorem Spelling.within_line {text value : List Char} {kind : Kind} (h : Spelling text kind value) :
    '\n' ∉ text ∧ text.getLast? ≠ some '\r' := by
  refine ⟨h.lineFeed_not_mem, fun hlast => ?_⟩
  rcases h.label_or_plain with ⟨raw, rfl, -⟩ | ⟨-, hplain⟩
  · rw [← List.cons_append, List.getLast?_concat] at hlast
    cases hlast
  · obtain ⟨c, more, htext, hspace, -⟩ := h.exists_head
    rw [hplain '\r' (List.mem_of_getLast? hlast) (by decide)] at htext
    rw [← (List.cons.inj htext).1] at hspace
    cases hspace

theorem Munch.returns {text rest value : List Char} {kind : Kind}
    (h : Munch text rest kind value) : Munch text (withReturns rest) kind value where
  spelling := h.spelling
  longest other kind' value' hother hbegins := by
    obtain ⟨hfeed, hlast⟩ := hother.within_line
    apply h.longest other kind' value' hother
    apply isPrefix_of_withReturns _ hfeed hlast
    rwa [withReturns_append, withReturns_of_lineFeed_not_mem h.spelling.within_line.1]

/-- A blank is cut off by itself. -/
theorem Cuts.of_blank {c : Char} (h : Cuts before (c :: run) tokens rest)
    (hc : Layout.isSpace c = true) : Cuts (before ++ [c]) run tokens rest := by
  rcases h.exists_next with ⟨hnil, -⟩ | ⟨piece, more, lexemes, tokens', hrun, rfl, hnext, hmore⟩
  · cases hnil
  have hblank : Next before [c] (run ++ rest) [] := .layout (.blank hc)
  have hpiece : piece = [c] := by
    apply hnext.unique hblank
    rw [← List.append_assoc, ← hrun]
    rfl
  subst hpiece
  obtain rfl := (List.cons.inj hrun).2
  cases hnext with
  | layout => exact hmore
  | token hmunch =>
      obtain ⟨d, more, heq, hspace, -⟩ := hmunch.spelling.exists_head
      rw [← (List.cons.inj heq).1, hc] at hspace
      cases hspace

theorem Cuts.blank_returns {c : Char} (hc : Layout.isSpace c = true)
    (h : Cuts (withReturns (before ++ [c])) (withReturns run) tokens rest) :
    Cuts (withReturns before) (withReturns (c :: run)) tokens rest := by
  rw [withReturns_append] at h
  by_cases hfeed : c = '\n'
  · subst hfeed
    have hends : ∀ d ∈ ['\r', '\n'], Layout.isSpace d = true := by simp [Layout.isSpace]
    exact .blanks hends h
  · rw [withReturns_cons hfeed] at h ⊢
    have hall : ∀ d ∈ [c], Layout.isSpace d = true := by simpa using hc
    exact .blanks hall h

/-- A comment takes the return before the line feed that ends it. -/
theorem Cuts.comment_returns {words : List Char} (hwords : '\n' ∉ words)
    (hend : run ++ rest = [] ∨ ∃ more, run ++ rest = '\n' :: more) (hrest : rest.head? ≠ some '\n')
    (h : Cuts (withReturns before ++ '/' :: '/' :: words) (withReturns run) tokens
      (withReturns rest)) :
    Cuts (withReturns before) ('/' :: '/' :: words ++ withReturns run) tokens
      (withReturns rest) := by
  cases run with
  | nil =>
      have hnil : rest = [] := by
        rcases hend with hend | ⟨more, rfl⟩
        · exact hend
        · exact absurd rfl hrest
      exact .layout (.comment hwords (.inl (by simp [hnil]))) h
  | cons c run =>
      obtain rfl : c = '\n' := by
        rcases hend with hend | ⟨more, hend⟩
        · cases hend
        · exact (List.cons.inj hend).1
      have hfeed : Cuts (withReturns before ++ '/' :: '/' :: words ++ ['\r'])
          ('\n' :: withReturns run) tokens (withReturns rest) := h.of_blank (by decide)
      have hcomment : Layout.Piece ('/' :: '/' :: (words ++ ['\r']))
          ('\n' :: withReturns run ++ withReturns rest) :=
        .comment (by simp [hwords]) (.inr ⟨_, rfl⟩)
      have hcuts := Cuts.layout hcomment (by simpa using hfeed)
      simpa using hcuts

/-- Returns change no cut that does not end before a line feed. -/
theorem Cuts.returns (h : Cuts before run tokens rest) (hrest : rest.head? ≠ some '\n') :
    Cuts (withReturns before) (withReturns run) tokens (withReturns rest) := by
  induction h with
  | nil => exact .nil
  | @layout before piece run rest tokens hpiece hrun ih =>
      have hmore := ih hrest
      cases hpiece with
      | blank hc => exact hmore.blank_returns hc
      | @comment words _ hwords hend =>
          have hpiece : withReturns ('/' :: '/' :: words) = '/' :: '/' :: words :=
            withReturns_of_lineFeed_not_mem (by simpa using hwords)
          rw [withReturns_append, hpiece] at hmore ⊢
          exact hmore.comment_returns hwords hend hrest
  | @token before text run rest value kind tokens hmunch _ ih =>
      have htext := withReturns_of_lineFeed_not_mem hmunch.spelling.within_line.1
      have hmore := ih hrest
      have hmunch' := hmunch.returns
      rw [withReturns_append, htext] at hmore ⊢
      rw [withReturns_append] at hmunch'
      rw [← Place.behind_withReturns]
      exact .token hmunch' hmore

theorem Blocked.returns (h : Blocked rest) : Blocked (withReturns rest) where
  layout piece more hpiece heq := by
    cases hpiece with
    | @blank c _ hc =>
        cases rest with
        | nil => cases heq
        | cons d rest =>
            by_cases hd : d = '\n'
            · exact h.layout ['\n'] rest (.blank (by decide)) (by rw [hd]; rfl)
            · rw [withReturns_cons hd] at heq
              obtain rfl := (List.cons.inj heq).1
              exact h.layout [d] rest (.blank hc) rfl
    | @comment words _ hwords hend =>
        have hslashes : ['/', '/'] <+: rest :=
          isPrefix_of_withReturns ⟨words ++ more, heq.symm⟩ (by decide) (by decide)
        obtain ⟨line, rfl⟩ := hslashes
        obtain ⟨after, hline, hpiece⟩ := Layout.exists_comment line
        refine h.layout _ after hpiece ?_
        exact congrArg (fun more => '/' :: '/' :: more) hline
  token spelling kind value hspelling hbegins := by
    obtain ⟨hfeed, hlast⟩ := hspelling.within_line
    exact h.token spelling kind value hspelling (isPrefix_of_withReturns hbegins hfeed hlast)

end Token

end ClassDiagram
