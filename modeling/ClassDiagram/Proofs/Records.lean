import ClassDiagram.Draft
import ClassDiagram.Proofs.Formats.Sameness
import ClassDiagram.Proofs.Trees.Declarations
import ClassDiagram.Proofs.Trees.Unplaced

/-!
# What records keep

The record of a node says everything about it but its places.  Its kind is under `type`, and under
every other key there is one of its attributes, or nothing where the attribute is missing; an empty
text is not nothing.  So nodes whose records are the same are the same but for their places.
-/

namespace ClassDiagram

open Value

/-- A node of a tree, of any of its kinds. -/
inductive Node where
  | diagram (d : Diagram)
  | declaration (x : Declaration)
  deriving DecidableEq, Repr

namespace Declaration

def unplaced : Declaration → Declaration
  | entity e => .entity e.unplaced
  | member m => .member m.unplaced

def toRecord : Declaration → Value
  | entity e => e.toRecord
  | member m => m.toRecord

end Declaration

/-! ## Nodes as drafts without foreign values -/

def Field.draft (f : Field) : Draft Empty :=
  .field (.text f.name) f.visibility (.ofText? f.valueType) (.ofText? f.defaultValue)
    (.int f.place.line) (.int f.place.column)

def Method.draft (m : Method) : Draft Empty :=
  .method (.text m.name) m.visibility (m.parameters.map Field.draft) (.ofText? m.returnType)
    (.int m.place.line) (.int m.place.column)

def Member.draft : Member → Draft Empty
  | field f => f.draft
  | method m => m.draft

def ClassDeclaration.draft (c : ClassDeclaration) : Draft Empty :=
  .classDeclaration (.text c.name) (c.members.map Member.draft) (.int c.place.line)
    (.int c.place.column)

def InterfaceDeclaration.draft (i : InterfaceDeclaration) : Draft Empty :=
  .interfaceDeclaration (.text i.name) (.int i.place.line) (.int i.place.column)

def Relationship.draft (r : Relationship) : Draft Empty :=
  .relationship (.text r.name) (.text r.source) (.text r.target) r.kind (.text r.operator)
    (.ofText? r.leftLabel) (.ofText? r.middleLabel) (.ofText? r.rightLabel) (.int r.place.line)
    (.int r.place.column)

def Entity.draft : Entity → Draft Empty
  | classDeclaration c => c.draft
  | interfaceDeclaration i => i.draft
  | relationship r => r.draft

def Declaration.draft : Declaration → Draft Empty
  | entity e => e.draft
  | member m => m.draft

namespace Node

/-- What the record of the node has for its type. -/
def kind : Node → String
  | diagram _ => "ROOT"
  | declaration (.entity (.classDeclaration _)) => "CLASS"
  | declaration (.entity (.interfaceDeclaration _)) => "INTERFACE"
  | declaration (.entity (.relationship _)) => "RELATIONSHIP"
  | declaration (.member (.field _)) => "FIELD"
  | declaration (.member (.method _)) => "METHOD"

def unplaced : Node → Node
  | diagram d => .diagram d.unplaced
  | declaration x => .declaration x.unplaced

def toRecord : Node → Value
  | diagram d => d.toRecord
  | declaration x => x.toRecord

/-- The node as a draft that may be of any kind. -/
def draft : Node → Draft Empty
  | diagram d => .diagram (.text d.name) (d.entities.map Entity.draft)
  | declaration x => x.draft

end Node

theorem Draft.toRecords_map {α : Type} {draft : α → Draft Empty} {toRecord : α → Value}
    (h : ∀ a, (draft a).toRecord = .ok (toRecord a)) (as : List α) :
    toRecords (as.map draft) = .ok (as.map toRecord) := by
  induction as with
  | nil => simp [toRecords]
  | cons a as ih => simp [toRecords, h, ih, Except.map]

theorem Field.toRecord_draft (f : Field) : f.draft.toRecord = .ok f.toRecord := by
  simp [draft, Draft.toRecord, toRecord]

theorem Method.toRecord_draft (m : Method) : m.draft.toRecord = .ok m.toRecord := by
  simp [draft, Draft.toRecord, toRecord, Draft.toRecords_map Field.toRecord_draft, Except.map]

theorem Member.toRecord_draft (m : Member) : m.draft.toRecord = .ok m.toRecord := by
  cases m with
  | field f => exact f.toRecord_draft
  | method m => exact m.toRecord_draft

theorem Entity.toRecord_draft (e : Entity) : e.draft.toRecord = .ok e.toRecord := by
  cases e with
  | classDeclaration c =>
      simp [draft, ClassDeclaration.draft, Draft.toRecord, toRecord, ClassDeclaration.toRecord,
        Draft.toRecords_map Member.toRecord_draft, Except.map]
  | interfaceDeclaration i => rfl
  | relationship r => rfl

/-- As drafts, nodes have the records that they have as nodes. -/
theorem Node.toRecord_draft (n : Node) : n.draft.toRecord = .ok n.toRecord := by
  cases n with
  | diagram d =>
      simp [draft, Draft.toRecord, toRecord, Diagram.toRecord,
        Draft.toRecords_map Entity.toRecord_draft, Except.map]
  | declaration x =>
      cases x with
      | entity e => exact e.toRecord_draft
      | member m => exact m.toRecord_draft

/-! ## Records without places -/

theorem Field.toRecord_unplaced (f : Field) : f.unplaced.toRecord = f.toRecord := rfl

theorem Method.toRecord_unplaced (m : Method) : m.unplaced.toRecord = m.toRecord := by
  simp [unplaced, toRecord, Function.comp_def, Field.toRecord_unplaced]

theorem Member.toRecord_unplaced (m : Member) : m.unplaced.toRecord = m.toRecord := by
  cases m with
  | field f => rfl
  | method m => exact m.toRecord_unplaced

theorem Entity.toRecord_unplaced (e : Entity) : e.unplaced.toRecord = e.toRecord := by
  cases e with
  | classDeclaration c =>
      simp [unplaced, ClassDeclaration.unplaced, toRecord, ClassDeclaration.toRecord,
        Function.comp_def, Member.toRecord_unplaced]
  | interfaceDeclaration i => rfl
  | relationship r => rfl

theorem Node.toRecord_unplaced (n : Node) : n.unplaced.toRecord = n.toRecord := by
  cases n with
  | diagram d =>
      simp [unplaced, Diagram.unplaced, toRecord, Diagram.toRecord, Function.comp_def,
        Entity.toRecord_unplaced]
  | declaration x =>
      cases x with
      | entity e => exact e.toRecord_unplaced
      | member m => exact m.toRecord_unplaced

/-! ## Nodes with the same record -/

theorem Visibility.singleton_mark_injective :
    Function.Injective fun v : Visibility => String.singleton v.mark := by
  intro v v' h
  cases v <;> cases v' <;> first | rfl | exact absurd h (by decide)

theorem RelationshipKind.name_injective : Function.Injective name := by
  intro k k' h
  cases k <;> cases k' <;> first | rfl | exact absurd h (by decide)

@[simp] theorem Value.sameAttribute_visibility {a b : Option Visibility} :
    SameAttribute (a.map fun v => text (String.singleton v.mark))
      (b.map fun v => text (String.singleton v.mark)) ↔ a = b :=
  sameAttribute_map Visibility.singleton_mark_injective

theorem map_unplaced_of_same {α : Type} {toRecord : α → Value} {unplaced : α → α}
    (hitem : ∀ a b, (toRecord a).same (toRecord b) = true → unplaced a = unplaced b)
    {as bs : List α} (h : List.Forall₂ (fun a b => (toRecord a).same (toRecord b) = true) as bs) :
    as.map unplaced = bs.map unplaced := by
  induction h with
  | nil => rfl
  | cons hfirst _ ih => rw [List.map_cons, List.map_cons, hitem _ _ hfirst, ih]

theorem Field.unplaced_of_same {f g : Field} (h : f.toRecord.same g.toRecord = true) :
    f.unplaced = g.unplaced := by
  have hsame := f.described_toRecord.sameAttribute h
  have hname : f.name = g.name := by
    simpa [toRecord, ofField, List.lookup_cons] using hsame "name"
  have hvisibility : f.visibility = g.visibility := by
    simpa [toRecord, ofField, List.lookup_append, List.lookup_cons] using hsame "visibility"
  have htype : f.valueType = g.valueType := by
    simpa [toRecord, ofField, List.lookup_append, List.lookup_cons] using hsame "value_type"
  have hdefault : f.defaultValue = g.defaultValue := by
    simpa [toRecord, ofField, List.lookup_append, List.lookup_cons] using hsame "default"
  simp [unplaced, hname, hvisibility, htype, hdefault]

theorem Method.unplaced_of_same {m n : Method} (h : m.toRecord.same n.toRecord = true) :
    m.unplaced = n.unplaced := by
  have hsame := m.described_toRecord.sameAttribute h
  have hname : m.name = n.name := by
    simpa [toRecord, ofMethod, List.lookup_cons] using hsame "name"
  have hvisibility : m.visibility = n.visibility := by
    simpa [toRecord, ofMethod, List.lookup_append, List.lookup_cons] using hsame "visibility"
  have hparameters : m.parameters.map Field.unplaced = n.parameters.map Field.unplaced := by
    apply map_unplaced_of_same (fun _ _ => Field.unplaced_of_same)
    simpa [toRecord, ofMethod, List.lookup_append, List.lookup_cons] using hsame "parameters"
  have htype : m.returnType = n.returnType := by
    simpa [toRecord, ofMethod, List.lookup_append, List.lookup_cons] using hsame "return_type"
  simp [unplaced, hname, hvisibility, hparameters, htype]

theorem Node.described_toRecord (n : Node) : Described 7 n.toRecord := by
  rcases n with d | (e | m)
  · exact d.described_toRecord
  · exact e.described_toRecord.mono (by decide)
  · exact m.described_toRecord.mono (by decide)

theorem Node.under?_type (n : Node) : n.toRecord.under? "type" = some (.text n.kind) := by
  rcases n with _ | ((_ | _ | _) | (_ | _)) <;> rfl

/-- Nodes with the same record are of one kind. -/
theorem Node.kind_of_same {m n : Node} (h : m.toRecord.same n.toRecord = true) :
    m.kind = n.kind := by
  have htype := m.described_toRecord.sameAttribute h "type"
  rwa [m.under?_type, n.under?_type, sameAttribute_some, same_text] at htype

theorem Member.unplaced_of_same {m n : Member} (h : m.toRecord.same n.toRecord = true) :
    m.unplaced = n.unplaced := by
  have hkind := Node.kind_of_same (m := .declaration (.member m)) (n := .declaration (.member n)) h
  cases m with
  | field f =>
      cases n with
      | field g => exact congrArg field (Field.unplaced_of_same h)
      | method => simp [Node.kind] at hkind
  | method m =>
      cases n with
      | field => simp [Node.kind] at hkind
      | method n => exact congrArg method (Method.unplaced_of_same h)

theorem ClassDeclaration.unplaced_of_same {c d : ClassDeclaration}
    (h : c.toRecord.same d.toRecord = true) : c.unplaced = d.unplaced := by
  have hsame := c.described_toRecord.sameAttribute h
  have hname : c.name = d.name := by
    simpa [toRecord, ofClass, List.lookup_cons] using hsame "name"
  have hmembers : c.members.map Member.unplaced = d.members.map Member.unplaced := by
    apply map_unplaced_of_same (fun _ _ => Member.unplaced_of_same)
    simpa [toRecord, ofClass, List.lookup_cons] using hsame "members"
  simp [unplaced, hname, hmembers]

theorem InterfaceDeclaration.unplaced_of_same {i j : InterfaceDeclaration}
    (h : i.toRecord.same j.toRecord = true) : i.unplaced = j.unplaced := by
  have hname : i.name = j.name := by
    simpa [toRecord, ofInterface, List.lookup_cons] using
      i.described_toRecord.sameAttribute h "name"
  simp [unplaced, hname]

theorem Relationship.unplaced_of_same {r s : Relationship}
    (h : r.toRecord.same s.toRecord = true) : r.unplaced = s.unplaced := by
  have hsame := r.described_toRecord.sameAttribute h
  have hname : r.name = s.name := by
    simpa [toRecord, ofRelationship, List.lookup_cons] using hsame "name"
  have hsource : r.source = s.source := by
    simpa [toRecord, ofRelationship, List.lookup_cons] using hsame "source_class"
  have htarget : r.target = s.target := by
    simpa [toRecord, ofRelationship, List.lookup_cons] using hsame "target_class"
  have hkind : r.kind = s.kind := by
    simpa [toRecord, ofRelationship, List.lookup_cons, RelationshipKind.name_injective.eq_iff]
      using hsame "relationship_type"
  have hoperator : r.operator = s.operator := by
    simpa [toRecord, ofRelationship, List.lookup_cons] using hsame "operator"
  have hleft : r.leftLabel = s.leftLabel := by
    simpa [toRecord, ofRelationship, List.lookup_append, List.lookup_cons] using hsame "left_label"
  have hmiddle : r.middleLabel = s.middleLabel := by
    simpa [toRecord, ofRelationship, List.lookup_append, List.lookup_cons]
      using hsame "middle_label"
  have hright : r.rightLabel = s.rightLabel := by
    simpa [toRecord, ofRelationship, List.lookup_append, List.lookup_cons]
      using hsame "right_label"
  simp [unplaced, hname, hsource, htarget, hkind, hoperator, hleft, hmiddle, hright]

theorem Entity.unplaced_of_same {e f : Entity} (h : e.toRecord.same f.toRecord = true) :
    e.unplaced = f.unplaced := by
  have hkind := Node.kind_of_same (m := .declaration (.entity e)) (n := .declaration (.entity f)) h
  cases e with
  | classDeclaration c =>
      cases f with
      | classDeclaration d =>
          exact congrArg classDeclaration (ClassDeclaration.unplaced_of_same h)
      | _ => simp [Node.kind] at hkind
  | interfaceDeclaration i =>
      cases f with
      | interfaceDeclaration j =>
          exact congrArg interfaceDeclaration (InterfaceDeclaration.unplaced_of_same h)
      | _ => simp [Node.kind] at hkind
  | relationship r =>
      cases f with
      | relationship s => exact congrArg relationship (Relationship.unplaced_of_same h)
      | _ => simp [Node.kind] at hkind

theorem Diagram.unplaced_of_same {d e : Diagram} (h : d.toRecord.same e.toRecord = true) :
    d.unplaced = e.unplaced := by
  have hsame := d.described_toRecord.sameAttribute h
  have hname : d.name = e.name := by
    simpa [toRecord, ofDiagram, List.lookup_cons] using hsame "name"
  have hentities : d.entities.map Entity.unplaced = e.entities.map Entity.unplaced := by
    apply map_unplaced_of_same (fun _ _ => Entity.unplaced_of_same)
    simpa [toRecord, ofDiagram, List.lookup_cons] using hsame "entities"
  simp [unplaced, hname, hentities]

namespace Node

theorem unplaced_of_same {m n : Node} (h : m.toRecord.same n.toRecord = true) :
    m.unplaced = n.unplaced := by
  have hkind := kind_of_same h
  rcases m with d | (e | p) <;> rcases n with d' | (e' | p')
  case diagram.diagram => exact congrArg diagram (Diagram.unplaced_of_same h)
  case declaration.entity.declaration.entity =>
    exact congrArg (declaration ∘ .entity) (Entity.unplaced_of_same h)
  case declaration.member.declaration.member =>
    exact congrArg (declaration ∘ .member) (Member.unplaced_of_same h)
  -- No two of the others are of one kind.
  case diagram.declaration.entity => cases e' <;> simp [kind] at hkind
  case diagram.declaration.member => cases p' <;> simp [kind] at hkind
  case declaration.entity.diagram => cases e <;> simp [kind] at hkind
  case declaration.entity.declaration.member => cases e <;> cases p' <;> simp [kind] at hkind
  case declaration.member.diagram => cases p <;> simp [kind] at hkind
  case declaration.member.declaration.entity => cases p <;> cases e' <;> simp [kind] at hkind

/-- Records lose places and nothing else.  Every node has a record, and two nodes of any kinds have
the same record, the order of its entries aside or not, just if they are the same node but for the
places in it. -/
theorem records_lose_places (m n : Node) :
    m.draft.toRecord = .ok m.toRecord ∧ n.draft.toRecord = .ok n.toRecord ∧
      (m.toRecord.same n.toRecord = true ↔ m.unplaced = n.unplaced) ∧
      (m.toRecord = n.toRecord ↔ m.unplaced = n.unplaced) := by
  have hequal (h : m.unplaced = n.unplaced) : m.toRecord = n.toRecord := by
    rw [← m.toRecord_unplaced, h, n.toRecord_unplaced]
  have hself : n.toRecord.same n.toRecord = true := n.described_toRecord.same_self
  refine ⟨m.toRecord_draft, n.toRecord_draft, ⟨unplaced_of_same, ?_⟩, ⟨?_, hequal⟩⟩
  · intro h
    rwa [hequal h]
  · intro h
    exact unplaced_of_same (h ▸ hself)

end Node

end ClassDiagram
