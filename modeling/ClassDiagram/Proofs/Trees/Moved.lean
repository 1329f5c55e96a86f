import ClassDiagram.Proofs.Phrase

/-!
# Moving trees

Tokens and declarations remember where they stand, and what they say does not depend on it.  When
all tokens of a phrase are moved, it stays a phrase, and says the same with all of its parts moved.
-/

namespace ClassDiagram

def Token.moved (f : Place → Place) (t : Token) : Token := { t with place := f t.place }

def Field.moved (f : Place → Place) (d : Field) : Field := { d with place := f d.place }

def Method.moved (f : Place → Place) (m : Method) : Method :=
  { m with parameters := m.parameters.map (Field.moved f), place := f m.place }

def Member.moved (f : Place → Place) : Member → Member
  | field d => .field (d.moved f)
  | method m => .method (m.moved f)

def ClassDeclaration.moved (f : Place → Place) (c : ClassDeclaration) : ClassDeclaration :=
  { c with members := c.members.map (Member.moved f), place := f c.place }

def InterfaceDeclaration.moved (f : Place → Place) (i : InterfaceDeclaration) :
    InterfaceDeclaration :=
  { i with place := f i.place }

def Relationship.moved (f : Place → Place) (r : Relationship) : Relationship :=
  { r with place := f r.place }

def Entity.moved (f : Place → Place) : Entity → Entity
  | classDeclaration c => .classDeclaration (c.moved f)
  | interfaceDeclaration i => .interfaceDeclaration (i.moved f)
  | relationship r => .relationship (r.moved f)

/-- The diagram with every place in it moved. -/
def Diagram.moved (f : Place → Place) (d : Diagram) : Diagram :=
  { d with entities := d.entities.map (Entity.moved f) }

@[simp] theorem Token.kind_moved (f : Place → Place) (t : Token) : (t.moved f).kind = t.kind := rfl

namespace Phrase

variable {α : Type} {f : Place → Place}

/-- What the phrases of the construct say names no place and does not depend on any. -/
def Portable (f : Place → Place) (p : Phrase α) : Prop :=
  ∀ run a, p run a → p (run.map (Token.moved f)) a

theorem portable_textOf (kind : Token.Kind) : Portable f (TextOf kind) := by
  rintro run text ⟨ht⟩
  exact .intro (t := Token.moved f _) ht

theorem Portable.led {p : Phrase α} (h : Portable f p) (kind : Token.Kind) :
    Portable f (Led kind p) := by
  rintro run a ⟨ht, hp⟩
  exact .intro ht (h _ _ hp)

theorem Portable.maybe {p : Phrase α} (h : Portable f p) : Portable f (Maybe p) := by
  rintro run a (_ | hp)
  · exact .missing
  · exact .given (h _ _ hp)

theorem portable_type : Portable f TypePhrase := by
  rintro run text (hname | ⟨hname, hopening, hclosing⟩)
  · exact .plain (by exact hname)
  · exact .array (by exact hname) hopening hclosing

theorem portable_ascription : Portable f AscriptionPhrase := (portable_type.led .colon).maybe

theorem portable_default : Portable f DefaultPhrase := ((portable_textOf _).led .equals).maybe

theorem Many.moved {p : Phrase α} {g : α → α}
    (hp : ∀ run a, p run a → p (run.map (Token.moved f)) (g a)) {run : List Token} {as : List α}
    (h : Many p run as) : Many p (run.map (Token.moved f)) (as.map g) := by
  induction h with
  | nil => exact .nil
  | cons ha _ ih =>
      rw [List.map_append]
      exact .cons (hp _ _ ha) ih

end Phrase

open Phrase

section

variable {name : String} {visibility : Option Visibility} {place : Place} {run : List Token}
  {f : Place → Place}

theorem FieldRestPhrase.moved {d : Field} (h : FieldRestPhrase name visibility place run d) :
    FieldRestPhrase name visibility (f place) (run.map (Token.moved f)) (d.moved f) := by
  obtain ⟨htype, hdefault⟩ := h
  rw [List.map_append]
  exact .intro (portable_ascription _ _ htype) (portable_default _ _ hdefault)

theorem ParameterPhrase.moved {d : Field} (h : ParameterPhrase run d) :
    ParameterPhrase (run.map (Token.moved f)) (d.moved f) := by
  obtain ⟨hname, hrest, hcomma⟩ := h
  rw [List.map_append]
  exact .intro (by exact hname) hrest.moved ((portable_textOf _).maybe _ _ hcomma)

theorem MethodRestPhrase.moved {m : Method} (h : MethodRestPhrase name visibility place run m) :
    MethodRestPhrase name visibility (f place) (run.map (Token.moved f)) (m.moved f) := by
  obtain ⟨hopening, hparameters, hclosing, hreturn⟩ := h
  rw [List.map_append]
  exact .intro (by exact hopening) (hparameters.moved fun _ _ => ParameterPhrase.moved) hclosing
    (portable_ascription _ _ hreturn)

theorem MemberRestPhrase.moved {m : Member} (h : MemberRestPhrase name visibility place run m) :
    MemberRestPhrase name visibility (f place) (run.map (Token.moved f)) (m.moved f) := by
  cases h with
  | field h => exact .field h.moved
  | method h => exact .method h.moved

theorem MemberPhrase.moved {m : Member} (h : MemberPhrase run m) :
    MemberPhrase (run.map (Token.moved f)) (m.moved f) := by
  cases h with
  | unmarked hname hrest => exact .unmarked (by exact hname) hrest.moved
  | marked hmark hname hrest => exact .marked (by exact hmark) (by exact hname) hrest.moved

theorem ClassPhrase.moved {c : ClassDeclaration} (h : ClassPhrase run c) :
    ClassPhrase (run.map (Token.moved f)) (c.moved f) := by
  cases h with
  | bare hword hname => exact .bare (by exact hword) (by exact hname)
  | body hword hname hopening hmembers hclosing =>
      rw [List.map_append]
      exact .body (by exact hword) (by exact hname) hopening
        (hmembers.moved fun _ _ => MemberPhrase.moved) hclosing

theorem InterfacePhrase.moved {i : InterfaceDeclaration} (h : InterfacePhrase run i) :
    InterfacePhrase (run.map (Token.moved f)) (i.moved f) := by
  obtain ⟨hword, hname⟩ := h
  exact .intro (by exact hword) (by exact hname)

theorem RelationshipPhrase.moved {r : Relationship} (h : RelationshipPhrase run r) :
    RelationshipPhrase (run.map (Token.moved f)) (r.moved f) := by
  obtain ⟨hsource, hleft, hoperator, hright, htarget, hmiddle⟩ := h
  have hlabel : Portable f (TextOf .quotation) := portable_textOf _
  rw [List.map_append, List.map_append]
  exact .intro (by exact hsource) (hlabel.maybe _ _ hleft) (by exact hoperator)
    (hlabel.maybe _ _ hright) (by exact htarget) ((hlabel.led _).maybe _ _ hmiddle)

theorem EntityPhrase.moved {e : Entity} (h : EntityPhrase run e) :
    EntityPhrase (run.map (Token.moved f)) (e.moved f) := by
  cases h with
  | classDeclaration h => exact .classDeclaration h.moved
  | interfaceDeclaration h => exact .interfaceDeclaration h.moved
  | relationship h => exact .relationship h.moved

/-- A document stays one when its tokens are moved, and says the same in other places. -/
theorem DocumentPhrase.moved {d : Diagram} (h : DocumentPhrase run d) :
    DocumentPhrase (run.map (Token.moved f)) (d.moved f) := by
  obtain ⟨hentities⟩ := h
  exact .intro (hentities.moved fun _ _ => EntityPhrase.moved)

end

end ClassDiagram
