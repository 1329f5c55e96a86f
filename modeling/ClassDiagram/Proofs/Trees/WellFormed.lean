import ClassDiagram.Proofs.Lexing.Spelling

/-!
# Well-formed trees

A diagram is well-formed if its parts could have been written: names are words and no keywords,
types are names that may have a pair of brackets behind them, parameters have no visibility, and a
relationship goes by an operator that there is, by its kind, and by the name made of its parts.
Labels say whatever they like.

On the side of tokens, a token is lexical if it has a spelling, so that it could have been read.
Lexical tokens say nothing beyond what the trees above keep of them.
-/

namespace ClassDiagram

/-- Words that are not keywords. -/
structure IsName (text : String) : Prop where
  ne_nil : text.toList ≠ []
  word : ∀ c ∈ text.toList, Text.isWordChar c = true
  ne_class : text ≠ "class"
  ne_interface : text ≠ "interface"

/-- Names, and names with a pair of brackets behind them. -/
inductive IsTypeName : String → Prop
  | plain {name : String} (h : IsName name) : IsTypeName name
  | array {name : String} (h : IsName name) : IsTypeName (name ++ "[]")

structure Field.WellFormed (f : Field) : Prop where
  name : IsName f.name
  valueType : ∀ text ∈ f.valueType, IsTypeName text
  defaultValue : ∀ text ∈ f.defaultValue, IsName text

structure Method.WellFormed (m : Method) : Prop where
  name : IsName m.name
  parameters : ∀ f ∈ m.parameters, f.WellFormed ∧ f.visibility = none
  returnType : ∀ text ∈ m.returnType, IsTypeName text

def Member.WellFormed : Member → Prop
  | field f => f.WellFormed
  | method m => m.WellFormed

structure ClassDeclaration.WellFormed (c : ClassDeclaration) : Prop where
  name : IsName c.name
  members : ∀ m ∈ c.members, m.WellFormed

structure Relationship.WellFormed (r : Relationship) : Prop where
  source : IsName r.source
  target : IsName r.target
  operator : ∃ o ∈ Operator.table, r.operator = o.text ∧ r.kind = o.kind
  name : r.name = nameOf r.source r.operator r.target

def Entity.WellFormed : Entity → Prop
  | classDeclaration c => c.WellFormed
  | interfaceDeclaration i => IsName i.name
  | relationship r => r.WellFormed

/-- A diagram that could have been written. -/
structure Diagram.WellFormed (d : Diagram) : Prop where
  name : d.name = "root"
  entities : ∀ e ∈ d.entities, e.WellFormed

namespace Token

/-- The token can be spelled. -/
def Lexical (t : Token) : Prop := ∃ text, Spelling text t.kind t.value.toList

/-- The one way to spell a token of the kind; empty for kinds that have none or several. -/
def Kind.spelling : Kind → String
  | classWord => "class"
  | interfaceWord => "interface"
  | leftBrace => "\x7b"
  | rightBrace => "\x7d"
  | leftParenthesis => "("
  | rightParenthesis => ")"
  | leftBracket => "["
  | rightBracket => "]"
  | colon => ":"
  | equals => "="
  | comma => ","
  | marker v => String.singleton v.mark
  | operator _ | quotation | identifier | endOfText => ""

end Token

instance (text : String) : Decidable (IsName text) :=
  decidable_of_iff (text.toList ≠ [] ∧ text.toList.all Text.isWordChar = true ∧
      text ≠ "class" ∧ text ≠ "interface")
    ⟨fun ⟨hne, hword, hclass, hinterface⟩ =>
        ⟨hne, List.all_eq_true.mp hword, hclass, hinterface⟩,
      fun h => ⟨h.ne_nil, List.all_eq_true.mpr h.word, h.ne_class, h.ne_interface⟩⟩

theorem isName_iff {text : String} :
    IsName text ↔ text.toList ≠ [] ∧ (∀ c ∈ text.toList, Text.isWordChar c = true) ∧
      Token.Kind.ofWord text.toList = .identifier := by
  have hclass : text = "class" ↔ text.toList = ['c', 'l', 'a', 's', 's'] := String.toList_inj.symm
  have hinterface : text = "interface" ↔
      text.toList = ['i', 'n', 't', 'e', 'r', 'f', 'a', 'c', 'e'] := String.toList_inj.symm
  constructor
  · intro h
    refine ⟨h.ne_nil, h.word, ?_⟩
    rw [Token.Kind.ofWord, if_neg (mt hclass.mpr h.ne_class),
      if_neg (mt hinterface.mpr h.ne_interface)]
  · rintro ⟨hne, hword, hkind⟩
    refine ⟨hne, hword, ?_, ?_⟩
    · rintro rfl
      exact absurd hkind (by decide)
    · rintro rfl
      exact absurd hkind (by decide)

namespace Token

theorem Kind.spelling_of_ofMark? {c : Char} {kind : Kind} (h : ofMark? c = some kind) :
    kind.spelling.toList = [c] := by
  unfold ofMark? at h
  split at h <;> cases h <;> rfl

namespace Spelling

variable {text value : List Char} {kind : Kind}

theorem lexical (h : Spelling text kind value) (place : Place) :
    Lexical ⟨kind, String.ofList value, place⟩ :=
  ⟨text, by rwa [String.toList_ofList]⟩

theorem value_eq (h : Spelling text kind value) (hkind : kind.spelling ≠ "") :
    value = kind.spelling.toList := by
  cases h with
  | operator => exact absurd rfl hkind
  | word hne hword =>
      unfold Kind.ofWord at hkind ⊢
      split
      · next h => exact h
      split
      · next h => exact h
      · simp_all [Kind.spelling]
  | mark hmark => exact (Kind.spelling_of_ofMark? hmark).symm
  | label => exact absurd rfl hkind

theorem isName (h : Spelling text kind value) (hkind : kind = .identifier) :
    IsName (String.ofList value) := by
  rw [isName_iff, String.toList_ofList]
  cases h with
  | operator => cases hkind
  | word hne hword => exact ⟨hne, hword, hkind⟩
  | mark hmark => simpa [hkind, Kind.spelling] using Kind.spelling_of_ofMark? hmark
  | label => cases hkind

theorem exists_operator (h : Spelling text kind value) {relationship : RelationshipKind}
    (hkind : kind = .operator relationship) :
    ∃ o ∈ Operator.table, value = o.spelling ∧ relationship = o.kind := by
  cases h with
  | operator ho =>
      cases hkind
      exact ⟨_, ho, rfl, rfl⟩
  | word hne hword =>
      rcases Kind.ofWord_cases text with hword' | hword' | hword' <;> rw [hword'] at hkind <;>
        cases hkind
  | mark hmark => simpa [hkind, Kind.spelling] using Kind.spelling_of_ofMark? hmark
  | label => cases hkind

end Spelling

namespace Lexical

variable {t : Token}

theorem value_eq (h : t.Lexical) {kind : Kind} (hkind : t.kind = kind) (hne : kind.spelling ≠ "") :
    t.value = kind.spelling := by
  subst hkind
  obtain ⟨text, htext⟩ := h
  exact String.toList_inj.mp (htext.value_eq hne)

theorem isName (h : t.Lexical) (hkind : t.kind = .identifier) : IsName t.value := by
  obtain ⟨text, htext⟩ := h
  have hname := htext.isName hkind
  rwa [String.ofList_toList] at hname

theorem exists_operator (h : t.Lexical) {kind : RelationshipKind}
    (hkind : t.kind = .operator kind) :
    ∃ o ∈ Operator.table, t.value = o.text ∧ kind = o.kind := by
  obtain ⟨text, htext⟩ := h
  obtain ⟨o, ho, hvalue, hrelationship⟩ := htext.exists_operator hkind
  refine ⟨o, ho, ?_, hrelationship⟩
  rw [Operator.text, ← hvalue, String.ofList_toList]

end Lexical

end Token

end ClassDiagram
