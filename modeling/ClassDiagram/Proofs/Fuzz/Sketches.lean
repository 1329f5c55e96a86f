import ClassDiagram.Fuzz.Sketch
import ClassDiagram.Proofs.Denotation
import ClassDiagram.Proofs.Trees.Written

/-!
# Sketches are read again

A sketch says what a diagram says.  Written out, sketches whose parts could stand in a diagram are a
document, and either reader reads from it what they say: an entity for each, in their order.
-/

namespace ClassDiagram

/-- The names in a declaration. -/
def Field.names (f : Field) : List String := f.name :: f.defaultValue.toList

def Method.names (m : Method) : List String := m.name :: m.parameters.flatMap Field.names

def Member.names : Member → List String
  | field f => f.names
  | method m => m.names

namespace Fuzz

open Token Phrase

def SketchedRelationship.declaration (r : SketchedRelationship) : Relationship where
  name := Relationship.nameOf r.source r.operator.text r.target
  source := r.source
  target := r.target
  kind := r.operator.kind
  operator := r.operator.text
  leftLabel := r.left.map String.ofList
  middleLabel := r.middle.map String.ofList
  rightLabel := r.right.map String.ofList

/-- The words of a relationship, each with its tokens. -/
def SketchedRelationship.words (r : SketchedRelationship) : List (List Char × List Token) :=
  [(r.source.toList, [named r.source])] ++
    (r.left.map fun label => (Label.written label, [labelled (String.ofList label)])).toList ++
    [(r.operator.spelling, [{ kind := .operator r.operator.kind, value := r.operator.text }])] ++
    (r.right.map fun label => (Label.written label, [labelled (String.ofList label)])).toList ++
    [(r.target.toList, [named r.target])] ++
    (r.middle.map fun label => (':' :: ' ' :: Label.written label,
      [fixed .colon, labelled (String.ofList label)])).toList

namespace Sketch

/-- What a sketch says. -/
def entity : Sketch → Entity
  | classDeclaration name body => .classDeclaration { name, members := body.getD [] }
  | interfaceDeclaration name => .interfaceDeclaration { name }
  | relationship r => .relationship r.declaration

/-- All names in a sketch. -/
def names : Sketch → List String
  | classDeclaration name body => name :: (body.getD []).flatMap Member.names
  | interfaceDeclaration name => [name]
  | relationship r => [r.source, r.target]

/-- The tokens of a sketch as it is written. -/
def tokens : Sketch → List Token
  | classDeclaration name none => [fixed .classWord, named name]
  | classDeclaration name (some members) =>
    fixed .classWord :: named name :: fixed .leftBrace :: members.flatMap Member.writtenTokens ++
      [fixed .rightBrace]
  | interfaceDeclaration name => [fixed .interfaceWord, named name]
  | relationship r => r.declaration.tokens

theorem nil_intercalate {α : Type} (runs : List (List α)) : [].intercalate runs = runs.flatten := by
  induction runs with
  | nil => rfl
  | cons run runs ih =>
      cases runs with
      | nil => simp
      | cons run' runs =>
          rw [List.intercalate_cons_cons, ih, List.append_nil]
          rfl

/-- Items with a blank between them. -/
theorem spells_blank_intercalate {α : Type} {c : Char} (hc : Layout.isSpace c = true)
    {written : α → List Char} {run : α → List Token} {items : List α}
    (h : ∀ a ∈ items, Spells (written a) (run a)) :
    Spells ([c].intercalate (items.map written)) (items.flatMap run) := by
  have hblank : ∀ {text tokens}, Spells text tokens → Spells ([c] ++ text) ([] ++ tokens) :=
    fun h => .blank hc h
  have hall := Spells.intercalate hblank (fun text => edge_cons (.of_isSpace hc) text) h
  rwa [nil_intercalate, List.flatten_eq_flatMap, List.flatMap_map] at hall

theorem spells_relationship {r : SketchedRelationship} (h : r.declaration.WellFormed) :
    Spells r.written r.declaration.tokens := by
  have hoperator : r.operator ∈ Operator.table := by
    obtain ⟨o, ho, htext, hkind⟩ := h.operator
    have heq : r.operator = o := Operator.mk.injEq .. ▸ ⟨String.ofList_injective htext, hkind⟩
    exact heq ▸ ho
  have hwords : ∀ word ∈ r.words, Spells word.1 word.2 := by
    have hlabel : ∀ label, Spells (Label.written label) [labelled (String.ofList label)] :=
      Spells.label
    have hmiddle : ∀ label, Spells (':' :: ' ' :: Label.written label)
        [fixed .colon, labelled (String.ofList label)] :=
      fun label => .mark rfl (by decide) (.blank (by decide) (hlabel label))
    simp only [SketchedRelationship.words, List.forall_mem_append, List.forall_mem_singleton,
      Option.mem_toList, Option.map_eq_some_iff, forall_exists_index, and_imp,
      forall_apply_eq_imp_iff₂]
    exact ⟨⟨⟨⟨⟨.name h.source, fun label _ => hlabel label⟩, .token (.operator hoperator)⟩,
      fun label _ => hlabel label⟩, .name h.target⟩, fun label _ => hmiddle label⟩
  have hall := spells_blank_intercalate (c := ' ') (by decide) hwords
  have hwritten : r.written = [' '].intercalate (r.words.map Prod.fst) := by
    obtain ⟨source, left, operator, right, target, middle⟩ := r
    cases left <;> cases right <;> cases middle <;> rfl
  have htokens : r.declaration.tokens = r.words.flatMap Prod.snd := by
    obtain ⟨source, left, operator, right, target, middle⟩ := r
    cases left <;> cases right <;> cases middle <;> rfl
  rwa [hwritten, htokens]

theorem spells {sketch : Sketch} (h : sketch.entity.WellFormed) :
    Spells sketch.written sketch.tokens := by
  cases sketch with
  | classDeclaration name body =>
      obtain ⟨hname, hmembers⟩ : ClassDeclaration.WellFormed _ := h
      have hword : Spells "class".toList [fixed .classWord] :=
        .token (.word (by decide) (List.all_eq_true.mp (by decide)))
      have hhead := hword.append (.blank (c := ' ') (by decide) (.name hname))
        (edge_cons (by decide) _)
      cases body with
      | none => exact hhead
      | some members =>
          have hlines := spells_blank_intercalate (c := '\n') (by decide)
            fun m hm => (hmembers m hm).spells
          have hclosing : Spells [' ', '\x7d'] [fixed .rightBrace] :=
            .blank (by decide) (.mark rfl (by decide) .nil)
          have hbody : Spells (' ' :: '\x7b' :: ' ' :: _) (fixed .leftBrace :: _) :=
            .blank (by decide) (.mark rfl (by decide) (.blank (by decide)
              (hlines.append hclosing (edge_cons (by decide) _))))
          have hall := hhead.append hbody (edge_cons (by decide) _)
          simpa [written, tokens] using hall
  | interfaceDeclaration name =>
      have hword : Spells "interface".toList [fixed .interfaceWord] :=
        .token (.word (by decide) (List.all_eq_true.mp (by decide)))
      exact hword.append (.blank (c := ' ') (by decide) (.name h)) (edge_cons (by decide) _)
  | relationship r => exact spells_relationship h

theorem phrase {sketch : Sketch} (h : sketch.entity.WellFormed) :
    EntityPhrase sketch.tokens sketch.entity.unplaced := by
  cases sketch with
  | classDeclaration name body =>
      cases body with
      | none => exact .classDeclaration (.bare rfl rfl)
      | some members =>
          have hclass : ClassDeclaration.WellFormed _ := h
          have hmembers := many_tokens (fun _ => Member.WellFormed.writtenPhrase) hclass.members
          exact .classDeclaration (.body rfl rfl rfl hmembers rfl)
  | interfaceDeclaration name => exact .interfaceDeclaration (.intro rfl rfl)
  | relationship r => exact .relationship (Relationship.WellFormed.phrase h)

/-- Sketches that are written out are read again. -/
theorem exists_read_writtenAll {sketches : List Sketch}
    (h : ∀ sketch ∈ sketches, sketch.entity.WellFormed) :
    ∃ d, (∀ reader, Reader.read reader (String.ofList (writtenAll sketches)) = .ok d) ∧
      d.unplaced = Diagram.unplaced { entities := sketches.map entity } := by
  have hspells := spells_blank_intercalate (c := '\n') (by decide) fun s hs => spells (h s hs)
  obtain ⟨lexemes, hcuts, hsame⟩ := hspells [] [] edge_nil
  have hcuts' : Cuts [] (String.ofList (writtenAll sketches)).toList lexemes [] := by
    rwa [String.toList_ofList]
  have hphrase := DocumentPhrase.intro (many_tokens (fun _ => phrase) h)
  have hplaces : lexemes.map unplaced = (sketches.flatMap tokens).map unplaced := by
    rw [← hsame, List.map_map]
    rfl
  obtain ⟨d, hd, hunplaced⟩ := Reader.exists_document_of_unplaced hcuts' hphrase hplaces
  refine ⟨d, fun reader => Reader.read_eq_ok_iff_cuts.mpr ⟨lexemes, hcuts', hd⟩, ?_⟩
  rw [hunplaced]
  simp [Diagram.unplaced, List.map_map, Function.comp_def, Entity.unplaced_unplaced]

end Sketch

end Fuzz

end ClassDiagram
