import ClassDiagram.Token.Basic

/-!
# The grammar of class diagrams

A phrase is a run of tokens together with what it says.  The phrases of each construct are listed
by its productions, with no word on how one would find them: every optional part may be there or
not, and a list may stop after any of its items.  What a phrase says is told from its tokens alone;
nodes carry the place of their first token.

No phrase holds a token for the end of the text.
-/

namespace ClassDiagram

/-- The phrases of a construct: runs of tokens, each with what it says. -/
abbrev Phrase (α : Type) := List Token → α → Prop

namespace Phrase

variable {α : Type}

/-- A single token of the given kind, which says its text. -/
inductive TextOf (kind : Token.Kind) : Phrase String
  | intro {t : Token} (ht : t.kind = kind) : TextOf kind [t] t.value

/-- A phrase behind a token of the given kind. -/
inductive Led (kind : Token.Kind) (p : Phrase α) : Phrase α
  | intro {t : Token} {run : List Token} {a : α} (ht : t.kind = kind) (hp : p run a) :
      Led kind p (t :: run) a

/-- A phrase, or nothing. -/
inductive Maybe (p : Phrase α) : Phrase (Option α)
  | missing : Maybe p [] none
  | given {run : List Token} {a : α} (hp : p run a) : Maybe p run (some a)

/-- Any number of phrases, one after the other. -/
inductive Many (p : Phrase α) : Phrase (List α)
  | nil : Many p [] []
  | cons {run more : List Token} {a : α} {as : List α} (hp : p run a) (hmore : Many p more as) :
      Many p (run ++ more) (a :: as)

end Phrase

open Phrase

/-- A type is a name, perhaps with a pair of brackets. -/
inductive TypePhrase : Phrase String
  | plain {name : Token} (hname : name.kind = .identifier) : TypePhrase [name] name.value
  | array {name opening closing : Token} (hname : name.kind = .identifier)
      (hopening : opening.kind = .leftBracket) (hclosing : closing.kind = .rightBracket) :
      TypePhrase [name, opening, closing] (name.value ++ "[]")

/-- A type may be ascribed behind a colon. -/
abbrev AscriptionPhrase : Phrase (Option String) := Maybe (Led .colon TypePhrase)

/-- A default value may be given behind an equals sign. -/
abbrev DefaultPhrase : Phrase (Option String) := Maybe (Led .equals (TextOf .identifier))

/-- After its name, a field may have a type and then a default value. -/
inductive FieldRestPhrase (name : String) (visibility : Option Visibility) (place : Place) :
    Phrase Field
  | intro {run more : List Token} {valueType defaultValue : Option String}
      (htype : AscriptionPhrase run valueType) (hdefault : DefaultPhrase more defaultValue) :
      FieldRestPhrase name visibility place (run ++ more)
        { name, visibility, valueType, defaultValue, place }

/-- A parameter is a field without a visibility, perhaps with a comma after it. -/
inductive ParameterPhrase : Phrase Field
  | intro {name : Token} {run more : List Token} {f : Field} {comma : Option String}
      (hname : name.kind = .identifier)
      (hrest : FieldRestPhrase name.value none name.place run f)
      (hcomma : Maybe (TextOf .comma) more comma) : ParameterPhrase (name :: run ++ more) f

/-- After its name, a method has parameters between parentheses, and perhaps a return type. -/
inductive MethodRestPhrase (name : String) (visibility : Option Visibility) (place : Place) :
    Phrase Method
  | intro {opening closing : Token} {run more : List Token} {parameters : List Field}
      {returnType : Option String} (hopening : opening.kind = .leftParenthesis)
      (hparameters : Many ParameterPhrase run parameters)
      (hclosing : closing.kind = .rightParenthesis) (hreturn : AscriptionPhrase more returnType) :
      MethodRestPhrase name visibility place (opening :: run ++ closing :: more)
        { name, visibility, parameters, returnType, place }

/-- After its name, a member goes on as a field or as a method. -/
inductive MemberRestPhrase (name : String) (visibility : Option Visibility) (place : Place) :
    Phrase Member
  | field {run : List Token} {f : Field} (h : FieldRestPhrase name visibility place run f) :
      MemberRestPhrase name visibility place run (.field f)
  | method {run : List Token} {m : Method} (h : MethodRestPhrase name visibility place run m) :
      MemberRestPhrase name visibility place run (.method m)

/-- A member begins with its name or with a marker of visibility. -/
inductive MemberPhrase : Phrase Member
  | unmarked {name : Token} {run : List Token} {m : Member} (hname : name.kind = .identifier)
      (hrest : MemberRestPhrase name.value none name.place run m) : MemberPhrase (name :: run) m
  | marked {mark name : Token} {visibility : Visibility} {run : List Token} {m : Member}
      (hmark : mark.kind = .marker visibility) (hname : name.kind = .identifier)
      (hrest : MemberRestPhrase name.value (some visibility) mark.place run m) :
      MemberPhrase (mark :: name :: run) m

/-- A class may have a body. -/
inductive ClassPhrase : Phrase ClassDeclaration
  | bare {word name : Token} (hword : word.kind = .classWord) (hname : name.kind = .identifier) :
      ClassPhrase [word, name] { name := name.value, members := [], place := word.place }
  | body {word name opening closing : Token} {run : List Token} {members : List Member}
      (hword : word.kind = .classWord) (hname : name.kind = .identifier)
      (hopening : opening.kind = .leftBrace) (hmembers : Many MemberPhrase run members)
      (hclosing : closing.kind = .rightBrace) :
      ClassPhrase (word :: name :: opening :: run ++ [closing])
        { name := name.value, members, place := word.place }

/-- An interface has no body. -/
inductive InterfacePhrase : Phrase InterfaceDeclaration
  | intro {word name : Token} (hword : word.kind = .interfaceWord)
      (hname : name.kind = .identifier) :
      InterfacePhrase [word, name] { name := name.value, place := word.place }

/-- A relationship may have a label before its operator, one after it, and one at its end. -/
inductive RelationshipPhrase : Phrase Relationship
  | intro {source operator target : Token} {kind : RelationshipKind}
      {left right middle : List Token}
      {leftLabel rightLabel middleLabel : Option String} (hsource : source.kind = .identifier)
      (hleft : Maybe (TextOf .quotation) left leftLabel)
      (hoperator : operator.kind = .operator kind)
      (hright : Maybe (TextOf .quotation) right rightLabel) (htarget : target.kind = .identifier)
      (hmiddle : Maybe (Led .colon (TextOf .quotation)) middle middleLabel) :
      RelationshipPhrase (source :: left ++ operator :: right ++ target :: middle)
        { name := source.value ++ " " ++ operator.value ++ " " ++ target.value
          source := source.value
          target := target.value
          kind
          operator := operator.value
          leftLabel
          middleLabel
          rightLabel
          place := source.place }

/-- An entity is a class, an interface, or a relationship. -/
inductive EntityPhrase : Phrase Entity
  | classDeclaration {run : List Token} {c : ClassDeclaration} (h : ClassPhrase run c) :
      EntityPhrase run (.classDeclaration c)
  | interfaceDeclaration {run : List Token} {i : InterfaceDeclaration} (h : InterfacePhrase run i) :
      EntityPhrase run (.interfaceDeclaration i)
  | relationship {run : List Token} {r : Relationship} (h : RelationshipPhrase run r) :
      EntityPhrase run (.relationship r)

/-- A document lists entities. -/
inductive DocumentPhrase : Phrase Diagram
  | intro {run : List Token} {entities : List Entity} (h : Many EntityPhrase run entities) :
      DocumentPhrase run { entities, name := "root" }

namespace Phrase

variable {α : Type}

theorem Many.append {p : Phrase α} {run more : List Token} {as bs : List α}
    (h : Many p run as) (h' : Many p more bs) : Many p (run ++ more) (as ++ bs) := by
  induction h with
  | nil => exact h'
  | cons hp _ ih =>
      rw [List.append_assoc]
      exact .cons hp ih

theorem Many.single {p : Phrase α} {run : List Token} {a : α} (h : p run a) : Many p run [a] := by
  simpa using Many.cons h .nil

/-- A list may get one more item at its end. -/
theorem Many.concat {p : Phrase α} {run more : List Token} {as : List α} {a : α}
    (h : Many p run as) (hp : p more a) : Many p (run ++ more) (as ++ [a]) :=
  h.append (.single hp)

/-- No phrase of the construct holds a token for the end of the text. -/
def Inner (p : Phrase α) : Prop :=
  ∀ run a, p run a → ∀ t ∈ run, t.kind ≠ .endOfText

theorem inner_textOf {kind : Token.Kind} (hkind : kind ≠ .endOfText) : Inner (TextOf kind) := by
  rintro run a ⟨ht⟩
  simpa [ht] using hkind

theorem Inner.led {kind : Token.Kind} {p : Phrase α} (hkind : kind ≠ .endOfText) (h : Inner p) :
    Inner (Led kind p) := by
  rintro run a ⟨ht, hp⟩
  simpa [ht, hkind] using h _ _ hp

theorem Inner.maybe {p : Phrase α} (h : Inner p) : Inner (Maybe p) := by
  rintro run a (_ | hp)
  · simp
  · exact h _ _ hp

theorem Inner.many {p : Phrase α} (h : Inner p) : Inner (Many p) := by
  intro run as has
  induction has with
  | nil => simp
  | cons hp _ ih => exact List.forall_mem_append.mpr ⟨h _ _ hp, ih⟩

theorem inner_type : Inner TypePhrase := by
  rintro run a (hname | ⟨hname, hopening, hclosing⟩) <;> simp_all

theorem inner_ascription : Inner AscriptionPhrase := (inner_type.led (by decide)).maybe

theorem inner_default : Inner DefaultPhrase :=
  ((inner_textOf (by decide)).led (by decide)).maybe

theorem inner_fieldRest (name : String) (visibility : Option Visibility) (place : Place) :
    Inner (FieldRestPhrase name visibility place) := by
  rintro run a ⟨htype, hdefault⟩
  exact List.forall_mem_append.mpr ⟨inner_ascription _ _ htype, inner_default _ _ hdefault⟩

theorem inner_parameter : Inner ParameterPhrase := by
  rintro run a ⟨hname, hrest, hcomma⟩
  simp only [List.cons_append, List.forall_mem_cons, List.forall_mem_append]
  refine ⟨by simp [hname], inner_fieldRest _ _ _ _ _ hrest, ?_⟩
  exact (inner_textOf (by decide)).maybe _ _ hcomma

theorem inner_methodRest (name : String) (visibility : Option Visibility) (place : Place) :
    Inner (MethodRestPhrase name visibility place) := by
  rintro run a ⟨hopening, hparameters, hclosing, hreturn⟩
  simp only [List.cons_append, List.forall_mem_cons, List.forall_mem_append]
  exact ⟨by simp [hopening], inner_parameter.many _ _ hparameters, by simp [hclosing],
    inner_ascription _ _ hreturn⟩

theorem inner_memberRest (name : String) (visibility : Option Visibility) (place : Place) :
    Inner (MemberRestPhrase name visibility place) := by
  rintro run a (h | h)
  · exact inner_fieldRest _ _ _ _ _ h
  · exact inner_methodRest _ _ _ _ _ h

theorem inner_member : Inner MemberPhrase := by
  rintro run a (⟨hname, hrest⟩ | ⟨hmark, hname, hrest⟩)
  · simpa [hname] using inner_memberRest _ _ _ _ _ hrest
  · simpa [hmark, hname] using inner_memberRest _ _ _ _ _ hrest

theorem inner_class : Inner ClassPhrase := by
  rintro run a (⟨hword, hname⟩ | ⟨hword, hname, hopening, hmembers, hclosing⟩)
  · simp [hword, hname]
  · simp only [List.cons_append, List.forall_mem_cons, List.forall_mem_append]
    exact ⟨by simp [hword], by simp [hname], by simp [hopening], inner_member.many _ _ hmembers,
      by simp [hclosing], by simp⟩

theorem inner_interface : Inner InterfacePhrase := by
  rintro run a ⟨hword, hname⟩
  simp [hword, hname]

theorem inner_relationship : Inner RelationshipPhrase := by
  rintro run a ⟨hsource, hleft, hoperator, hright, htarget, hmiddle⟩
  have hlabel : Inner (TextOf .quotation) := inner_textOf (by decide)
  simp only [List.cons_append, List.forall_mem_cons, List.forall_mem_append]
  exact ⟨by simp [hsource], ⟨hlabel.maybe _ _ hleft, by simp [hoperator],
    hlabel.maybe _ _ hright⟩, by simp [htarget], (hlabel.led (by decide)).maybe _ _ hmiddle⟩

theorem inner_entity : Inner EntityPhrase := by
  rintro run a (h | h | h)
  · exact inner_class _ _ h
  · exact inner_interface _ _ h
  · exact inner_relationship _ _ h

theorem inner_document : Inner DocumentPhrase := by
  rintro run a ⟨h⟩
  exact inner_entity.many _ _ h

end Phrase

end ClassDiagram
