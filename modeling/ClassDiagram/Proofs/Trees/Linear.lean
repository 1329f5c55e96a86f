import ClassDiagram.Proofs.Trees.Unplaced
import ClassDiagram.Proofs.Trees.WellFormed

/-!
# Trees as runs of tokens

Every tree has a plain way to be written: without commas, without empty bodies, and nowhere in
particular.  A document of lexical tokens is the plain run of its tree, once its commas, its empty
bodies and its places are gone; and the plain run of a well-formed tree is a document that says it.
So a tree keeps every token of its document but those.
-/

namespace ClassDiagram

namespace Token

/-- The token of a kind that is spelled in one way only. -/
def fixed (kind : Kind) : Token := { kind, value := kind.spelling }

def named (name : String) : Token := { kind := .identifier, value := name }

def labelled (label : String) : Token := { kind := .quotation, value := label }

/-- A type; a pair of brackets at its end stands apart. -/
def ofType (text : String) : List Token :=
  match text.toList.reverse with
  | ']' :: '[' :: name => [named (String.ofList name.reverse), fixed .leftBracket,
      fixed .rightBracket]
  | _ => [named text]

/-- A part of a declaration, if there is one. -/
def maybe (tokens : String → List Token) : Option String → List Token
  | none => []
  | some text => tokens text

/-- How a member begins. -/
def head (visibility : Option Visibility) (name : String) : List Token :=
  (visibility.map fun v => fixed (.marker v)).toList ++ [named name]

end Token

open Token

def Field.tokens (f : Field) : List Token :=
  head f.visibility f.name ++ (maybe (fun text => fixed .colon :: ofType text) f.valueType ++
    maybe (fun text => [fixed .equals, named text]) f.defaultValue)

def Method.tokens (m : Method) : List Token :=
  head m.visibility m.name ++ (fixed .leftParenthesis :: m.parameters.flatMap Field.tokens ++
    fixed .rightParenthesis :: maybe (fun text => fixed .colon :: ofType text) m.returnType)

def Member.tokens : Member → List Token
  | field f => f.tokens
  | method m => m.tokens

/-- A body between its braces, if there are members. -/
def Member.body : List Member → List Token
  | [] => []
  | m :: members =>
    fixed .leftBrace :: (m :: members).flatMap tokens ++ [fixed .rightBrace]

def ClassDeclaration.tokens (c : ClassDeclaration) : List Token :=
  fixed .classWord :: named c.name :: Member.body c.members

def InterfaceDeclaration.tokens (i : InterfaceDeclaration) : List Token :=
  [fixed .interfaceWord, named i.name]

def Relationship.tokens (r : Relationship) : List Token :=
  named r.source :: maybe (fun label => [labelled label]) r.leftLabel ++
    { kind := .operator r.kind, value := r.operator } ::
      maybe (fun label => [labelled label]) r.rightLabel ++
    named r.target :: maybe (fun label => [fixed .colon, labelled label]) r.middleLabel

def Entity.tokens : Entity → List Token
  | classDeclaration c => c.tokens
  | interfaceDeclaration i => i.tokens
  | relationship r => r.tokens

/-- The plain run of tokens of a diagram. -/
def Diagram.tokens (d : Diagram) : List Token := d.entities.flatMap Entity.tokens

@[simp] theorem Field.tokens_unplaced (f : Field) : f.unplaced.tokens = f.tokens := rfl

@[simp] theorem Method.tokens_unplaced (m : Method) : m.unplaced.tokens = m.tokens := by
  simp [tokens, unplaced, List.flatMap_map]

@[simp] theorem Member.tokens_unplaced (m : Member) : m.unplaced.tokens = m.tokens := by
  cases m <;> simp [tokens, unplaced]

theorem Member.body_unplaced (members : List Member) :
    body (members.map unplaced) = body members := by
  cases members <;> simp [body, List.flatMap_map]

@[simp] theorem ClassDeclaration.tokens_unplaced (c : ClassDeclaration) :
    c.unplaced.tokens = c.tokens := by
  rw [tokens, tokens, unplaced, Member.body_unplaced]

@[simp] theorem Entity.tokens_unplaced (e : Entity) : e.unplaced.tokens = e.tokens := by
  cases e with
  | classDeclaration c => exact c.tokens_unplaced
  | interfaceDeclaration i => rfl
  | relationship r => rfl

@[simp] theorem Diagram.tokens_unplaced (d : Diagram) : d.unplaced.tokens = d.tokens := by
  simp [tokens, unplaced, List.flatMap_map]

namespace Token

theorem unplaced_of_kind {t : Token} {kind : Kind} (h : t.kind = kind) :
    t.unplaced = { kind, value := t.value } := by
  subst h
  rfl

theorem Lexical.unplaced_eq {t : Token} (h : t.Lexical) {kind : Kind} (hkind : t.kind = kind)
    (hne : kind.spelling ≠ "") : t.unplaced = fixed kind := by
  rw [unplaced_of_kind hkind, h.value_eq hkind hne]
  rfl

theorem Kind.spelling_marker_ne (v : Visibility) : (marker v).spelling ≠ "" := by
  cases v <;> decide

theorem lexical_fixed {kind : Kind} (h : kind.spelling ≠ "") : (fixed kind).Lexical := by
  cases kind with
  | classWord => exact ⟨"class".toList, .word (by decide) (List.all_eq_true.mp (by decide))⟩
  | interfaceWord => exact
      ⟨"interface".toList, .word (by decide) (List.all_eq_true.mp (by decide))⟩
  | marker v => cases v <;> exact ⟨_, .mark rfl⟩
  | operator => exact absurd rfl h
  | quotation => exact absurd rfl h
  | identifier => exact absurd rfl h
  | endOfText => exact absurd rfl h
  | _ => exact ⟨_, .mark rfl⟩

theorem lexical_named {name : String} (h : IsName name) : (named name).Lexical := by
  obtain ⟨hne, hword, hkind⟩ := isName_iff.mp h
  refine ⟨name.toList, ?_⟩
  rw [named, ← hkind]
  exact .word hne hword

theorem lexical_labelled (label : String) : (labelled label).Lexical :=
  ⟨_, .label (Label.Spelling.escape _)⟩

theorem lexical_head {name : String} (h : IsName name) (visibility : Option Visibility) :
    ∀ t ∈ head visibility name, t.Lexical := by
  have hname := lexical_named h
  cases visibility with
  | none => simpa [head] using hname
  | some v => simpa [head] using ⟨lexical_fixed (Kind.spelling_marker_ne v), hname⟩

theorem ofType_name {name : String} (h : IsName name) : ofType name = [named name] := by
  unfold ofType
  split
  · next rest hrest =>
    have hmem : ']' ∈ name.toList := by
      rw [← List.mem_reverse, hrest]
      exact List.mem_cons_self
    exact absurd (h.word _ hmem) (by decide)
  · rfl

theorem ofType_array (name : String) :
    ofType (name ++ "[]") = [named name, fixed .leftBracket, fixed .rightBracket] := by
  have hreverse : (name ++ "[]").toList.reverse = ']' :: '[' :: name.toList.reverse := by
    simp
  rw [ofType, hreverse]
  simp

end Token

namespace Phrase

variable {α : Type} {p : Phrase α} {Sound : α → Prop} {tokens : α → List Token}

/-- The lexical phrases of the construct are just the runs of tokens of what is sound. -/
structure Linear (p : Phrase α) (Sound : α → Prop) (tokens : α → List Token) : Prop where
  of_phrase : ∀ {run a}, p run a → (∀ t ∈ run, t.Lexical) →
    Sound a ∧ run.map Token.unplaced = tokens a
  phrase : ∀ {a}, Sound a → p (tokens a) a
  lexical : ∀ {a}, Sound a → ∀ t ∈ tokens a, t.Lexical

theorem linear_name : Linear (TextOf .identifier) IsName fun name => [named name] where
  of_phrase := by
    rintro _ _ ⟨ht⟩ hrun
    have hlexical := hrun _ List.mem_cons_self
    exact ⟨hlexical.isName ht, by rw [List.map_singleton, unplaced_of_kind ht]; rfl⟩
  phrase _ := .intro rfl
  lexical h := List.forall_mem_singleton.mpr (lexical_named h)

theorem linear_label :
    Linear (TextOf .quotation) (fun _ => True) fun label => [labelled label] where
  of_phrase := by
    rintro _ _ ⟨ht⟩ -
    exact ⟨trivial, by rw [List.map_singleton, unplaced_of_kind ht]; rfl⟩
  phrase _ := .intro rfl
  lexical _ := List.forall_mem_singleton.mpr (lexical_labelled _)

theorem Linear.led (h : Linear p Sound tokens) {kind : Token.Kind} (hne : kind.spelling ≠ "") :
    Linear (Led kind p) Sound fun a => fixed kind :: tokens a where
  of_phrase := by
    rintro _ _ ⟨ht, ha⟩ hrun
    obtain ⟨hlexical, hmore⟩ := List.forall_mem_cons.mp hrun
    obtain ⟨hsound, htokens⟩ := h.of_phrase ha hmore
    exact ⟨hsound, by rw [List.map_cons, hlexical.unplaced_eq ht hne, htokens]⟩
  phrase ha := .intro rfl (h.phrase ha)
  lexical ha := List.forall_mem_cons.mpr ⟨lexical_fixed hne, h.lexical ha⟩

theorem Linear.maybe {p : Phrase String} {Sound : String → Prop} {tokens : String → List Token}
    (h : Linear p Sound tokens) :
    Linear (Maybe p) (fun o => ∀ text ∈ o, Sound text) (maybe tokens) where
  of_phrase := by
    rintro _ _ (_ | ha) hrun
    · exact ⟨by simp, rfl⟩
    · obtain ⟨hsound, htokens⟩ := h.of_phrase ha hrun
      exact ⟨by simpa using hsound, htokens⟩
  phrase := by
    rintro (_ | text) ha
    · exact .missing
    · exact .given (h.phrase (ha text rfl))
  lexical := by
    rintro (_ | text) ha
    · exact fun t ht => nomatch ht
    · exact h.lexical (ha text rfl)

theorem linear_type : Linear TypePhrase IsTypeName ofType where
  of_phrase := by
    rintro _ _ (hname | ⟨hname, hopening, hclosing⟩) hrun
    · have hisName := (hrun _ List.mem_cons_self).isName hname
      refine ⟨.plain hisName, ?_⟩
      rw [ofType_name hisName, List.map_singleton, unplaced_of_kind hname]
      rfl
    · simp only [List.forall_mem_cons] at hrun
      obtain ⟨h₁, h₂, h₃, -⟩ := hrun
      refine ⟨.array (h₁.isName hname), ?_⟩
      rw [ofType_array, List.map_cons, List.map_cons, List.map_singleton, unplaced_of_kind hname,
        h₂.unplaced_eq hopening (by decide), h₃.unplaced_eq hclosing (by decide)]
      rfl
  phrase := by
    rintro _ (hname | hname)
    · rw [ofType_name hname]
      exact .plain rfl
    · rw [ofType_array]
      exact .array rfl rfl rfl
  lexical := by
    rintro _ (hname | hname)
    · rw [ofType_name hname]
      exact List.forall_mem_singleton.mpr (lexical_named hname)
    · rw [ofType_array]
      simp only [List.forall_mem_cons]
      exact ⟨lexical_named hname, lexical_fixed (by decide), lexical_fixed (by decide), by simp⟩

theorem linear_ascription : Linear AscriptionPhrase (fun o => ∀ text ∈ o, IsTypeName text)
    (maybe fun text => fixed .colon :: ofType text) := (linear_type.led (by decide)).maybe

theorem linear_default : Linear DefaultPhrase (fun o => ∀ text ∈ o, IsName text)
    (maybe fun text => [fixed .equals, named text]) := (linear_name.led (by decide)).maybe

theorem many_tokens {β : Type} {p : Phrase β} {f : α → β}
    (hp : ∀ a, Sound a → p (tokens a) (f a)) {as : List α} (h : ∀ a ∈ as, Sound a) :
    Many p (as.flatMap tokens) (as.map f) := by
  induction as with
  | nil => exact .nil
  | cons a as ih =>
      obtain ⟨ha, has⟩ := List.forall_mem_cons.mp h
      exact .cons (hp a ha) (ih has)

end Phrase

open Phrase

theorem Field.WellFormed.restPhrase {f : Field} (h : f.WellFormed) :
    FieldRestPhrase f.name f.visibility .nowhere
      (maybe (fun text => fixed .colon :: ofType text) f.valueType ++
        maybe (fun text => [fixed .equals, named text]) f.defaultValue) f.unplaced :=
  .intro (linear_ascription.phrase h.valueType) (linear_default.phrase h.defaultValue)

/-- A parameter, perhaps with a comma behind it. -/
theorem Field.WellFormed.parameterPhrase {f : Field} (h : f.WellFormed)
    (hvisibility : f.visibility = none) {more : List Token} {comma : Option String}
    (hcomma : Maybe (TextOf .comma) more comma) :
    ParameterPhrase (f.tokens ++ more) f.unplaced := by
  have hrest := h.restPhrase
  rw [hvisibility] at hrest
  rw [tokens, hvisibility]
  exact .intro rfl hrest hcomma

theorem Method.WellFormed.restPhrase {m : Method} (h : m.WellFormed) :
    MethodRestPhrase m.name m.visibility .nowhere
      (fixed .leftParenthesis :: m.parameters.flatMap Field.tokens ++
        fixed .rightParenthesis :: maybe (fun text => fixed .colon :: ofType text) m.returnType)
      m.unplaced := by
  have hparameter : ∀ f : Field, f.WellFormed ∧ f.visibility = none →
      ParameterPhrase f.tokens f.unplaced := by
    rintro f ⟨hf, hvisibility⟩
    simpa using hf.parameterPhrase hvisibility .missing
  have hparameters := many_tokens hparameter h.parameters
  exact .intro rfl hparameters rfl (linear_ascription.phrase h.returnType)

theorem MemberRestPhrase.phrase_head {name : String} {visibility : Option Visibility}
    {run : List Token} {m : Member} (h : MemberRestPhrase name visibility .nowhere run m) :
    MemberPhrase (head visibility name ++ run) m := by
  cases visibility with
  | none => exact .unmarked rfl h
  | some v => exact .marked rfl rfl h

theorem Member.WellFormed.phrase {m : Member} (h : m.WellFormed) :
    MemberPhrase m.tokens m.unplaced := by
  cases m with
  | field f =>
      have hrest := Field.WellFormed.restPhrase h
      exact (MemberRestPhrase.field hrest).phrase_head
  | method m =>
      have hrest := Method.WellFormed.restPhrase h
      exact (MemberRestPhrase.method hrest).phrase_head

theorem ClassDeclaration.WellFormed.phrase {c : ClassDeclaration} (h : c.WellFormed) :
    ClassPhrase c.tokens c.unplaced := by
  obtain ⟨name, members, place⟩ := c
  have hmembers := many_tokens (fun _ => Member.WellFormed.phrase) h.members
  cases members with
  | nil => exact .bare rfl rfl
  | cons m members => exact .body rfl rfl rfl hmembers rfl

theorem Relationship.WellFormed.phrase {r : Relationship} (h : r.WellFormed) :
    RelationshipPhrase r.tokens r.unplaced := by
  obtain ⟨name, source, target, kind, operator, left, middle, right, place⟩ := r
  obtain rfl : name = nameOf source operator target := h.name
  have hlabel := linear_label.maybe
  have hmiddle := (linear_label.led (by decide : Token.Kind.colon.spelling ≠ "")).maybe
  exact .intro rfl (hlabel.phrase fun _ _ => trivial) rfl (hlabel.phrase fun _ _ => trivial) rfl
    (hmiddle.phrase fun _ _ => trivial)

theorem Entity.WellFormed.phrase {e : Entity} (h : e.WellFormed) :
    EntityPhrase e.tokens e.unplaced := by
  cases e with
  | classDeclaration c => exact .classDeclaration (ClassDeclaration.WellFormed.phrase h)
  | interfaceDeclaration i => exact .interfaceDeclaration (.intro rfl rfl)
  | relationship r => exact .relationship (Relationship.WellFormed.phrase h)

/-- The plain run of a well-formed diagram says that diagram. -/
theorem Diagram.WellFormed.phrase {d : Diagram} (h : d.WellFormed) :
    DocumentPhrase d.tokens d.unplaced := by
  obtain ⟨entities, name⟩ := d
  obtain rfl : name = "root" := h.name
  exact .intro (many_tokens (fun _ => Entity.WellFormed.phrase) h.entities)

theorem Token.lexical_flatMap {α : Type} {tokens : α → List Token} {as : List α}
    (h : ∀ a ∈ as, ∀ t ∈ tokens a, t.Lexical) : ∀ t ∈ as.flatMap tokens, t.Lexical := by
  intro t ht
  obtain ⟨a, ha, hmem⟩ := List.mem_flatMap.mp ht
  exact h a ha t hmem

theorem Field.WellFormed.lexical {f : Field} (h : f.WellFormed) : ∀ t ∈ f.tokens, t.Lexical := by
  rw [tokens, List.forall_mem_append, List.forall_mem_append]
  exact ⟨lexical_head h.name _, linear_ascription.lexical h.valueType,
    linear_default.lexical h.defaultValue⟩

theorem Method.WellFormed.lexical {m : Method} (h : m.WellFormed) : ∀ t ∈ m.tokens, t.Lexical := by
  rw [tokens, List.forall_mem_append, List.cons_append, List.forall_mem_cons,
    List.forall_mem_append, List.forall_mem_cons]
  exact ⟨lexical_head h.name _, lexical_fixed (by decide),
    lexical_flatMap fun f hf => (h.parameters f hf).1.lexical, lexical_fixed (by decide),
    linear_ascription.lexical h.returnType⟩

theorem Member.WellFormed.lexical {m : Member} (h : m.WellFormed) : ∀ t ∈ m.tokens, t.Lexical := by
  cases m with
  | field f => exact Field.WellFormed.lexical h
  | method m => exact Method.WellFormed.lexical h

theorem ClassDeclaration.WellFormed.lexical {c : ClassDeclaration} (h : c.WellFormed) :
    ∀ t ∈ c.tokens, t.Lexical := by
  obtain ⟨name, members, place⟩ := c
  have hmembers := lexical_flatMap fun m hm => Member.WellFormed.lexical (h.members m hm)
  simp only [tokens, List.forall_mem_cons]
  refine ⟨lexical_fixed (by decide), lexical_named h.name, ?_⟩
  cases members with
  | nil => simp [Member.body]
  | cons m members =>
      simp only [Member.body, List.cons_append, List.forall_mem_cons, List.forall_mem_append]
      exact ⟨lexical_fixed (by decide), hmembers, lexical_fixed (by decide), by simp⟩

theorem Relationship.WellFormed.lexical {r : Relationship} (h : r.WellFormed) :
    ∀ t ∈ r.tokens, t.Lexical := by
  obtain ⟨o, ho, htext, hkind⟩ := h.operator
  have hoperator : Lexical { kind := .operator r.kind, value := r.operator } := by
    rw [htext, hkind]
    exact (Spelling.operator ho).lexical .nowhere
  have hlabel := linear_label.maybe
  have hmiddle := (linear_label.led (by decide : Token.Kind.colon.spelling ≠ "")).maybe
  simp only [tokens, List.cons_append, List.forall_mem_cons, List.forall_mem_append]
  exact ⟨lexical_named h.source, ⟨hlabel.lexical fun _ _ => trivial, hoperator,
    hlabel.lexical fun _ _ => trivial⟩, lexical_named h.target, hmiddle.lexical fun _ _ => trivial⟩

theorem Entity.WellFormed.lexical {e : Entity} (h : e.WellFormed) : ∀ t ∈ e.tokens, t.Lexical := by
  cases e with
  | classDeclaration c => exact ClassDeclaration.WellFormed.lexical h
  | interfaceDeclaration i =>
      simp only [tokens, InterfaceDeclaration.tokens, List.forall_mem_cons]
      exact ⟨lexical_fixed (by decide), lexical_named h, by simp⟩
  | relationship r => exact Relationship.WellFormed.lexical h

/-- All tokens of a well-formed diagram can be spelled. -/
theorem Diagram.WellFormed.lexical {d : Diagram} (h : d.WellFormed) : ∀ t ∈ d.tokens, t.Lexical :=
  lexical_flatMap fun e he => Entity.WellFormed.lexical (h.entities e he)

end ClassDiagram
