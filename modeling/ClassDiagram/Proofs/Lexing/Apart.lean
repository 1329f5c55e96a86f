import ClassDiagram.Proofs.Lexing.Munch
import Mathlib.Data.List.Forall2

/-!
# What keeps tokens apart

Most characters take part in no longer spelling, except within a label: blanks, slashes, and every
mark but the dash.  Where such a character comes, the token before it has ended, whatever else may
follow; so a cut of a text up to there does not depend on what stands there.

Cuts can be joined, taken apart, and moved behind another text, which changes nothing but places.
-/

namespace ClassDiagram

theorem Label.Spelling.lineFeed_not_mem {raw value : List Char} (h : Spelling raw value) :
    '\n' ∉ raw := by
  induction h with
  | nil => simp
  | plain _ _ hfeed _ ih => simpa [eq_comm, hfeed] using ih
  | escaped hfeed _ ih => simpa [eq_comm, hfeed] using ih

theorem Layout.Piece.append_line {piece rest : List Char} (h : Piece piece rest)
    (more : List Char) : Piece piece (rest ++ '\n' :: more) := by
  cases h with
  | blank hc => exact .blank hc
  | comment hwords hend =>
      refine .comment hwords (.inr ?_)
      rcases hend with rfl | ⟨rest, rfl⟩
      · exact ⟨more, rfl⟩
      · exact ⟨rest ++ '\n' :: more, rfl⟩

/-- A comment is ended by its line feed, or by nothing, whatever comes after. -/
theorem Layout.Piece.alone {piece run rest : List Char} (h : Piece piece (run ++ rest)) :
    Piece piece run := by
  cases h with
  | blank hc => exact .blank hc
  | comment hwords hend =>
      refine .comment hwords ?_
      cases run with
      | nil => exact .inl rfl
      | cons c run =>
          rcases hend with hend | ⟨more, hend⟩
          · cases hend
          · obtain ⟨rfl, -⟩ := List.cons.inj hend
            exact .inr ⟨run, rfl⟩

namespace Token

/-- The character takes part in no spelling of more than one character, unless it is in a label. -/
def Apart (c : Char) : Prop :=
  Text.isWordChar c = false ∧ ∀ o ∈ Operator.table, c ∉ o.spelling

instance (c : Char) : Decidable (Apart c) := inferInstanceAs (Decidable (_ ∧ _))

/-- The text is empty, or a character keeps it apart from what stands before it. -/
def Edge (text : List Char) : Prop := ∀ c ∈ text.head?, Apart c

theorem edge_nil : Edge [] := by simp [Edge]

theorem edge_cons {c : Char} (h : Apart c) (text : List Char) : Edge (c :: text) := by
  simpa [Edge] using h

theorem Edge.append {text more : List Char} (h : Edge text) (hmore : Edge more) :
    Edge (text ++ more) := by
  cases text with
  | nil => exact hmore
  | cons c text => exact edge_cons (h c rfl) (text ++ more)

theorem Apart.of_isSpace {c : Char} (h : Layout.isSpace c = true) : Apart c := by
  simp only [Layout.isSpace, Bool.or_eq_true, beq_iff_eq] at h
  rcases h with ((rfl | rfl) | rfl) | rfl <;> decide

/-- Unless it is a label, a spelling holds no quote, and a character that keeps apart only if it is
all there is. -/
theorem Spelling.label_or_plain {text value : List Char} {kind : Kind}
    (h : Spelling text kind value) :
    (∃ raw, text = '"' :: (raw ++ ['"']) ∧ Label.Spelling raw value) ∨
      '"' ∉ text ∧ ∀ c ∈ text, Apart c → text = [c] := by
  cases h with
  | @operator o ho =>
      have hquote : ∀ o ∈ Operator.table, '"' ∉ o.spelling := by decide
      exact .inr ⟨hquote o ho, fun c hc hapart => absurd hc (hapart.2 o ho)⟩
  | word hne hword =>
      refine .inr ⟨fun hmem => absurd (hword _ hmem) (by decide), fun c hc hapart => ?_⟩
      have hno := hapart.1
      rw [hword c hc] at hno
      cases hno
  | mark hmark =>
      refine .inr ⟨?_, fun c hc _ => by rw [List.mem_singleton.mp hc]⟩
      unfold Kind.ofMark? at hmark
      split at hmark <;> cases hmark <;> decide
  | label hlabel => exact .inl ⟨_, rfl, hlabel⟩

/-- A spelling that is the longest one stays so if something else follows after an edge. -/
theorem Munch.follow {text run rest rest' value : List Char} {kind : Kind}
    (h : Munch text (run ++ rest) kind value) (hedge : Edge rest') :
    Munch text (run ++ rest') kind value where
  spelling := h.spelling
  longest other kind' value' hother hbegins := by
    have hpos : 0 < text.length := List.length_pos_iff.mpr h.spelling.ne_nil
    rcases hother.label_or_plain with ⟨raw', rfl, hraw'⟩ | ⟨-, hplain⟩
    · -- A label begins with its quote, so the given spelling is a label too; it ends at its quote.
      rcases h.spelling.label_or_plain with ⟨raw, rfl, hraw⟩ | ⟨hquote, -⟩
      · obtain ⟨s, hs, hle⟩ := Grammar.Symbol.exists_at?_of_spelling hother hbegins
        have hat := Grammar.Symbol.at?_of_label hraw (run ++ rest')
        rw [List.cons_append, List.append_assoc, List.singleton_append, hat] at hs
        cases hs
        exact hle
      · obtain ⟨c, more, rfl⟩ := List.exists_cons_of_ne_nil h.spelling.ne_nil
        obtain ⟨rfl, -⟩ := List.cons_prefix_cons.mp hbegins
        exact absurd List.mem_cons_self hquote
    · by_cases hle : other.length ≤ (text ++ run).length
      · -- It ends before the edge, so it was there before.
        have hwithin : other <+: text ++ run := by
          apply List.prefix_of_prefix_length_le hbegins _ hle
          rw [← List.append_assoc]
          exact List.prefix_append _ rest'
        apply h.longest other kind' value' hother
        rw [← List.append_assoc]
        exact hwithin.trans (List.prefix_append _ rest)
      · -- It takes the character at the edge, and hence is no more than that.
        cases rest' with
        | nil =>
            rw [List.append_nil] at hbegins
            exact absurd hbegins.length_le hle
        | cons c more =>
            have hedge' : text ++ run ++ [c] <+: text ++ (run ++ c :: more) := ⟨more, by simp⟩
            have hover : text ++ run ++ [c] <+: other := by
              apply List.prefix_of_prefix_length_le hedge' hbegins
              simp only [List.length_append, List.length_singleton] at hle ⊢
              omega
            have hother' := hplain c (hover.subset (by simp)) (hedge c rfl)
            rw [hother']
            exact hpos

theorem Spelling.munch_nil {text value : List Char} {kind : Kind} (h : Spelling text kind value) :
    Munch text [] kind value where
  spelling := h
  longest other kind' value' _ hbegins := by simpa using hbegins.length_le

/-- At an edge, every spelling is the longest one. -/
theorem Spelling.munch {text rest value : List Char} {kind : Kind} (h : Spelling text kind value)
    (hedge : Edge rest) : Munch text rest kind value := by
  have hnil : Munch text ([] ++ []) kind value := h.munch_nil
  exact hnil.follow hedge

theorem Spelling.lineFeed_not_mem {text value : List Char} {kind : Kind}
    (h : Spelling text kind value) : '\n' ∉ text := by
  rcases h.label_or_plain with ⟨raw, rfl, hraw⟩ | ⟨-, hplain⟩
  · simpa using hraw.lineFeed_not_mem
  · intro hmem
    obtain ⟨c, rest, heq, hspace, -⟩ := h.exists_head
    rw [hplain '\n' hmem (by decide)] at heq
    rw [← (List.cons.inj heq).1] at hspace
    cases hspace

/-! ## Cuts -/

theorem Cuts.append {before run run' rest : List Char} {tokens tokens' : List Token}
    (h : Cuts before run tokens (run' ++ rest)) (h' : Cuts (before ++ run) run' tokens' rest) :
    Cuts before (run ++ run') (tokens ++ tokens') rest := by
  generalize hrest : run' ++ rest = more at h
  induction h with
  | nil => simpa using h'
  | layout hpiece _ ih =>
      subst hrest
      rw [List.append_assoc]
      exact .layout (by simpa using hpiece) (ih (by simpa using h') rfl)
  | token hmunch _ ih =>
      subst hrest
      rw [List.append_assoc]
      exact .token (by simpa using hmunch) (ih (by simpa using h') rfl)

/-- A text that is cut into tokens can be cut behind any of them. -/
theorem Cuts.exists_front {before run rest : List Char} {tokens more : List Token}
    (h : Cuts before run (tokens ++ more) rest) :
    ∃ front back, run = front ++ back ∧ Cuts before front tokens (back ++ rest) := by
  generalize hall : tokens ++ more = all at h
  induction h generalizing tokens with
  | nil =>
      obtain ⟨rfl, rfl⟩ := List.append_eq_nil_iff.mp hall
      exact ⟨[], [], rfl, .nil⟩
  | @layout before piece run rest all hpiece _ ih =>
      obtain ⟨front, back, rfl, hfront⟩ := ih hall
      exact ⟨piece ++ front, back, (List.append_assoc ..).symm,
        .layout (by simpa using hpiece) hfront⟩
  | @token before text run rest value kind all hmunch _ ih =>
      cases tokens with
      | nil => exact ⟨[], text ++ run, rfl, .nil⟩
      | cons t tokens =>
          obtain ⟨rfl, htail⟩ := List.cons.inj hall
          obtain ⟨front, back, rfl, hfront⟩ := ih htail
          exact ⟨text ++ front, back, (List.append_assoc ..).symm,
            .token (by simpa using hmunch) hfront⟩

/-- What is cut is cut as well if nothing follows. -/
theorem Cuts.alone {before run rest : List Char} {tokens : List Token}
    (h : Cuts before run tokens rest) : Cuts before run tokens [] := by
  induction h with
  | nil => exact .nil
  | @layout before piece run rest tokens hpiece _ ih =>
      refine .layout ?_ ih
      rw [List.append_nil]
      exact hpiece.alone
  | token hmunch _ ih => exact .token (hmunch.follow edge_nil) ih

/-- A line feed behind a cut text changes nothing: it ends a comment as the end of the text does. -/
theorem Cuts.append_line {before run rest : List Char} {tokens : List Token}
    (h : Cuts before run tokens rest) (more : List Char) :
    Cuts before run tokens (rest ++ '\n' :: more) := by
  have hedge : Edge ('\n' :: more) := edge_cons (by decide) more
  induction h with
  | nil => exact .nil
  | layout hpiece _ ih =>
      have hpiece' := hpiece.append_line more
      rw [List.append_assoc] at hpiece'
      exact .layout hpiece' ih
  | @token before text run rest value kind tokens hmunch _ ih =>
      have hnil : Munch text (run ++ rest ++ []) kind value := by rwa [List.append_nil]
      have hmunch' := hnil.follow hedge
      rw [List.append_assoc] at hmunch'
      exact .token hmunch' ih

/-- The tokens are the same, and the places of both are told by the same text, one behind `front`
and the other behind `front'`. -/
structure Displaced (front front' : List Char) (t t' : Token) : Prop where
  unplaced : t'.kind = t.kind ∧ t'.value = t.value
  place : ∃ run, t.place = .behind (front ++ run) ∧ t'.place = .behind (front' ++ run)

/-- A text is cut in the same way wherever it stands. -/
theorem Cuts.exists_displaced {before run rest : List Char} {tokens : List Token}
    (h : Cuts before run tokens rest) (before' : List Char) :
    ∃ tokens', Cuts before' run tokens' rest ∧
      List.Forall₂ (Displaced before before') tokens tokens' := by
  induction h generalizing before' with
  | nil => exact ⟨[], .nil, .nil⟩
  | @layout before piece run rest tokens hpiece _ ih =>
      obtain ⟨tokens', hcuts, hall⟩ := ih (before' ++ piece)
      refine ⟨tokens', .layout hpiece hcuts, hall.imp fun t t' h => ⟨h.unplaced, ?_⟩⟩
      obtain ⟨more, hplace, hplace'⟩ := h.place
      exact ⟨piece ++ more, by simpa using hplace, by simpa using hplace'⟩
  | @token before text run rest value kind tokens hmunch _ ih =>
      obtain ⟨tokens', hcuts, hall⟩ := ih (before' ++ text)
      refine ⟨_, .token hmunch hcuts, .cons ⟨⟨rfl, rfl⟩, [], by simp, by simp⟩ ?_⟩
      refine hall.imp fun t t' h => ⟨h.unplaced, ?_⟩
      obtain ⟨more, hplace, hplace'⟩ := h.place
      exact ⟨text ++ more, by simpa using hplace, by simpa using hplace'⟩

end Token

end ClassDiagram
