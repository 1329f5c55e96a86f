import ClassDiagram.Proofs.Lexing.Apart
import ClassDiagram.Proofs.Trees.Linear

/-!
# Texts that spell tokens

A text spells a run of tokens if it is cut into them wherever it stands, as long as nothing that
follows goes on with its last token.  Texts that spell tokens can be put one after the other where
the second begins with a character that keeps them apart; blanks, and marks that are part of no
longer spelling, can be put in front of any text.
-/

namespace ClassDiagram.Token

/-- Wherever the text stands, and whatever follows after an edge, it is cut into these tokens. -/
def Spells (text : List Char) (tokens : List Token) : Prop :=
  ∀ front rest, Edge rest → ∃ lexemes, Cuts front text lexemes rest ∧ lexemes.map unplaced = tokens

/-- A spelling of one character that is part of no longer one is the longest, whatever follows. -/
theorem Spelling.munch_apart {c : Char} {value : List Char} {kind : Kind}
    (h : Spelling [c] kind value) (hapart : Apart c) (rest : List Char) :
    Munch [c] rest kind value where
  spelling := h
  longest other kind' value' hother hbegins := by
    obtain ⟨d, more, rfl⟩ := List.exists_cons_of_ne_nil hother.ne_nil
    obtain ⟨rfl, -⟩ := List.cons_prefix_cons.mp hbegins
    rcases hother.label_or_plain with ⟨raw, heq, -⟩ | ⟨-, hplain⟩
    · -- A quote alone is no spelling.
      rcases h.label_or_plain with ⟨raw', heq', -⟩ | ⟨hquote, -⟩
      · simp at heq'
      · exact absurd ((List.cons.inj heq).1 ▸ List.mem_cons_self) hquote
    · rw [hplain d List.mem_cons_self hapart]

/-- A marker of visibility in front of a word does not begin an operator. -/
theorem munch_marker (v : Visibility) {c : Char} (hword : Text.isWordChar c = true)
    (rest : List Char) : Munch [v.mark] (c :: rest) (.marker v) [v.mark] where
  spelling := .mark (by cases v <;> rfl)
  longest other kind value hother hbegins := by
    cases hother with
    | @operator o ho =>
        -- No operator is a marker alone, or goes on with a character of a word.
        have hno : ∀ o ∈ Operator.table, ∀ d more, o.spelling = v.mark :: d :: more →
            Text.isWordChar d = false := by
          cases v <;> simp [Operator.table, Visibility.mark]
          decide
        rcases hspelling : o.spelling with _ | ⟨d, _ | ⟨e, more⟩⟩
        · exact Nat.zero_le _
        · exact Nat.le_refl _
        · rw [hspelling] at hbegins
          obtain ⟨rfl, hmore⟩ := List.cons_prefix_cons.mp hbegins
          obtain ⟨rfl, -⟩ := List.cons_prefix_cons.mp hmore
          rw [hno o ho e more hspelling] at hword
          cases hword
    | @word text hne hall =>
        obtain ⟨d, more, rfl⟩ := List.exists_cons_of_ne_nil hne
        obtain ⟨rfl, -⟩ := List.cons_prefix_cons.mp hbegins
        have hmark := hall _ List.mem_cons_self
        cases v <;> exact absurd hmark (by decide)
    | mark => exact Nat.le_refl _
    | label =>
        obtain ⟨hquote, -⟩ := List.cons_prefix_cons.mp hbegins
        cases v <;> exact absurd hquote (by decide)

namespace Spells

variable {text more : List Char} {tokens tokens' : List Token}

theorem nil : Spells [] [] := fun _ _ _ => ⟨[], .nil, rfl⟩

theorem token {value : List Char} {kind : Kind} (h : Spelling text kind value) :
    Spells text [{ kind, value := String.ofList value }] := by
  intro front rest hedge
  have hmunch : Munch text ([] ++ rest) kind value := h.munch hedge
  have hend : Cuts (front ++ text) [] [] rest := .nil
  exact ⟨[⟨kind, String.ofList value, .behind front⟩], by simpa using Cuts.token hmunch hend, rfl⟩

theorem blank {c : Char} (hc : Layout.isSpace c = true) (h : Spells text tokens) :
    Spells (c :: text) tokens := by
  intro front rest hedge
  obtain ⟨lexemes, hcuts, hsame⟩ := h (front ++ [c]) rest hedge
  have hblank : Layout.Piece [c] (text ++ rest) := .blank hc
  exact ⟨lexemes, .layout hblank hcuts, hsame⟩

/-- A mark that is part of no longer spelling. -/
theorem mark {c : Char} {kind : Kind} (hmark : Kind.ofMark? c = some kind) (hapart : Apart c)
    (h : Spells text tokens) :
    Spells (c :: text) (fixed kind :: tokens) := by
  intro front rest hedge
  obtain ⟨lexemes, hcuts, rfl⟩ := h (front ++ [c]) rest hedge
  have hmunch := (Spelling.mark hmark).munch_apart hapart (text ++ rest)
  refine ⟨_, .token hmunch hcuts, ?_⟩
  rw [fixed, List.map_cons, ← Kind.spelling_of_ofMark? hmark, String.ofList_toList]
  rfl

theorem marker (v : Visibility) (hword : ∀ c ∈ text.head?, Text.isWordChar c = true)
    (hne : text ≠ []) (h : Spells text tokens) :
    Spells (v.mark :: text) (fixed (.marker v) :: tokens) := by
  obtain ⟨c, text, rfl⟩ := List.exists_cons_of_ne_nil hne
  intro front rest hedge
  obtain ⟨lexemes, hcuts, rfl⟩ := h (front ++ [v.mark]) rest hedge
  have hmunch := munch_marker v (hword c rfl) (text ++ rest)
  exact ⟨_, .token hmunch hcuts, rfl⟩

theorem append (h : Spells text tokens) (h' : Spells more tokens') (hedge : Edge more) :
    Spells (text ++ more) (tokens ++ tokens') := by
  intro front rest hrest
  obtain ⟨lexemes, hcuts, rfl⟩ := h front (more ++ rest) (hedge.append hrest)
  obtain ⟨lexemes', hcuts', rfl⟩ := h' (front ++ text) rest hrest
  exact ⟨lexemes ++ lexemes', hcuts.append hcuts', List.map_append⟩

/-- Texts with a separator between them, which can stand in front of any of them. -/
theorem intercalate {α : Type} {separator : List Char} {separated : List Token}
    {written : α → List Char} {run : α → List Token} {items : List α}
    (hseparator : ∀ {text tokens}, Spells text tokens →
      Spells (separator ++ text) (separated ++ tokens))
    (hedge : ∀ text, Edge (separator ++ text)) (h : ∀ a ∈ items, Spells (written a) (run a)) :
    Spells (separator.intercalate (items.map written)) (separated.intercalate (items.map run)) := by
  induction items with
  | nil => exact nil
  | cons a items ih =>
      obtain ⟨ha, hitems⟩ := List.forall_mem_cons.mp h
      cases items with
      | nil => simpa using ha
      | cons b items =>
          have hmore := hseparator (ih hitems)
          simp only [List.map_cons, List.intercalate_cons_cons, List.append_assoc] at hmore ⊢
          exact ha.append hmore (hedge _)

theorem name {name : String} (h : IsName name) : Spells name.toList [named name] := by
  obtain ⟨hne, hword, hkind⟩ := isName_iff.mp h
  have hname := token (.word hne hword)
  rwa [hkind, String.ofList_toList] at hname

theorem label (label : List Char) :
    Spells (Label.written label) [labelled (String.ofList label)] :=
  token (.label (Label.Spelling.escape label))

theorem typeName {text : String} (h : IsTypeName text) : Spells text.toList (ofType text) := by
  cases h with
  | plain hname =>
      rw [ofType_name hname]
      exact name hname
  | array hname =>
      have hbrackets : Spells ['[', ']'] [fixed .leftBracket, fixed .rightBracket] :=
        mark rfl (by decide) (mark rfl (by decide) nil)
      rw [ofType_array, String.toList_append]
      exact (name hname).append hbrackets (edge_cons (by decide) _)

end Spells

end ClassDiagram.Token
