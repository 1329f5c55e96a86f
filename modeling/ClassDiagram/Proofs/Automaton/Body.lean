import ClassDiagram.Proofs.Automaton.Steps
import ClassDiagram.Proofs.Lexing.Symbol
import ClassDiagram.Proofs.Phrase

/-!
# What the automaton has read of a class

A field under way and a class body under way are the outcome of what has been read of them: members
that are complete, and then the beginning of one.  Each step keeps this invariant, whether the
lexeme goes on with the member under way or ends it and begins another.
-/

namespace ClassDiagram

open Phrase

namespace Grammar

/-- All lexemes of a terminal are tokens of one kind, unless the kind depends on what they carry. -/
theorem Symbol.kind_of_terminal {s : Symbol} {t : Terminal} {kind : Token.Kind}
    (h : s.terminal = t) (hkind : ∀ content, t.kind content = kind) : s.kind = kind := by
  obtain ⟨t', content⟩ := s
  cases h
  exact hkind content

namespace OpenField

/-- The field after a lexeme that belongs to it. -/
def step? (part : OpenField) (x : Lexeme) : Option OpenField :=
  (part.shift? x.terminal).map fun next => next x.content x.place

/-- The tokens of a field under way, its name left out. -/
inductive Reads (name : String) (visibility : Option Visibility) (place : Place) :
    List Token → OpenField → Prop
  | named : Reads name visibility place [] ⟨{ name, visibility, place }, .named⟩
  | colon {colon : Token} (hcolon : colon.kind = .colon) :
      Reads name visibility place [colon] ⟨{ name, visibility, place }, .colon⟩
  | typed {colon type : Token} (hcolon : colon.kind = .colon) (htype : type.kind = .identifier) :
      Reads name visibility place [colon, type]
        ⟨{ name, visibility, valueType := some type.value, place }, .typed⟩
  | bracket {colon type opening : Token} (hcolon : colon.kind = .colon)
      (htype : type.kind = .identifier) (hopening : opening.kind = .leftBracket) :
      Reads name visibility place [colon, type, opening]
        ⟨{ name, visibility, valueType := some type.value, place }, .bracket⟩
  | array {colon type opening closing : Token} (hcolon : colon.kind = .colon)
      (htype : type.kind = .identifier) (hopening : opening.kind = .leftBracket)
      (hclosing : closing.kind = .rightBracket) :
      Reads name visibility place [colon, type, opening, closing]
        ⟨{ name, visibility, valueType := some (type.value ++ "[]"), place }, .array⟩
  | equal {run : List Token} {valueType : Option String} {equals : Token}
      (htype : AscriptionPhrase run valueType) (hequals : equals.kind = .equals) :
      Reads name visibility place (run ++ [equals])
        ⟨{ name, visibility, valueType, place }, .equal⟩
  | valued {run : List Token} {valueType : Option String} {equals value : Token}
      (htype : AscriptionPhrase run valueType) (hequals : equals.kind = .equals)
      (hvalue : value.kind = .identifier) :
      Reads name visibility place (run ++ [equals, value])
        ⟨{ name, visibility, valueType, defaultValue := some value.value, place }, .valued⟩

namespace Reads

variable {name : String} {visibility : Option Visibility} {place : Place} {run : List Token}
  {part part' : OpenField} {x : Lexeme}

theorem step (h : Reads name visibility place run part) (hx : part.step? x = some part') :
    Reads name visibility place (run ++ [x.token]) part' := by
  obtain ⟨⟨t, content⟩, offset, origin⟩ := x
  cases h with
  | named =>
      cases t <;> cases hx
      · exact .colon rfl
      · exact .equal .missing rfl
  | colon hcolon =>
      cases t <;> cases hx
      exact .typed hcolon rfl
  | typed hcolon htype =>
      cases t <;> cases hx
      · exact .bracket hcolon htype rfl
      · exact .equal (.given (.intro hcolon (.plain htype))) rfl
  | bracket hcolon htype hopening =>
      cases t <;> cases hx
      exact .array hcolon htype hopening rfl
  | array hcolon htype hopening hclosing =>
      cases t <;> cases hx
      exact .equal (.given (.intro hcolon (.array htype hopening hclosing))) rfl
  | equal htype hequals =>
      cases t <;> cases hx
      rw [List.append_assoc]
      exact .valued htype hequals rfl
  | valued => cases t <;> cases hx

theorem complete {f : Field} (h : Reads name visibility place run part)
    (hf : part.complete? = some f) : FieldRestPhrase name visibility place run f := by
  cases h with
  | named =>
      cases hf
      exact .intro .missing .missing
  | colon => cases hf
  | typed hcolon htype =>
      cases hf
      exact .intro (.given (.intro hcolon (.plain htype))) .missing
  | bracket => cases hf
  | array hcolon htype hopening hclosing =>
      cases hf
      exact .intro (.given (.intro hcolon (.array htype hopening hclosing))) .missing
  | equal => cases hf
  | valued htype hequals hvalue =>
      cases hf
      exact .intro htype (.given (.intro hequals (.intro hvalue)))

end Reads

end OpenField

/-- The beginning of a member, up to its name. -/
inductive MemberHead : List Token → String → Option Visibility → Place → Prop
  | unmarked {name : Token} (hname : name.kind = .identifier) :
      MemberHead [name] name.value none name.place
  | marked {mark name : Token} {visibility : Visibility} (hmark : mark.kind = .marker visibility)
      (hname : name.kind = .identifier) :
      MemberHead [mark, name] name.value (some visibility) mark.place

theorem MemberHead.member {head run : List Token} {name : String} {visibility : Option Visibility}
    {place : Place} {m : Member} (h : MemberHead head name visibility place)
    (hrest : MemberRestPhrase name visibility place run m) : MemberPhrase (head ++ run) m := by
  cases h with
  | unmarked hname => exact .unmarked hname hrest
  | marked hmark hname => exact .marked hmark hname hrest

/-- The beginning of a method, up to the last parameter. -/
inductive MethodHead : List Token → Method → Prop
  | intro {head run : List Token} {opening : Token} {name : String}
      {visibility : Option Visibility} {place : Place} {parameters : List Field}
      (hhead : MemberHead head name visibility place) (hopening : opening.kind = .leftParenthesis)
      (hparameters : Many ParameterPhrase run parameters) :
      MethodHead (head ++ opening :: run) { name, visibility, parameters, place }

namespace MethodHead

variable {run more : List Token} {m : Method}

theorem add (h : MethodHead run m) {f : Field} (hf : ParameterPhrase more f) :
    MethodHead (run ++ more) (OpenClass.addParameter m f) := by
  obtain ⟨hhead, hopening, hparameters⟩ := h
  rw [List.append_assoc, List.cons_append]
  exact .intro hhead hopening (hparameters.concat hf)

theorem member (h : MethodHead run m) {closing : Token}
    (hclosing : closing.kind = .rightParenthesis) {returnType : Option String}
    (hreturn : AscriptionPhrase more returnType) :
    MemberPhrase (run ++ closing :: more) (.method { m with returnType }) := by
  obtain ⟨hhead, hopening, hparameters⟩ := h
  rw [List.append_assoc]
  exact hhead.member (.method (.intro hopening hparameters hclosing hreturn))

theorem complete (h : MethodHead run m) {closing : Token}
    (hclosing : closing.kind = .rightParenthesis) :
    MemberPhrase (run ++ [closing]) (.method m) := by
  have hmember := h.member hclosing .missing
  obtain ⟨hhead, hopening, hparameters⟩ := h
  exact hmember

end MethodHead

/-- The tokens of a class body since its last complete member. -/
inductive BodyPart.Reads : List Token → BodyPart → Prop
  | between : Reads [] .between
  | marked {mark : Token} {visibility : Visibility} (hmark : mark.kind = .marker visibility) :
      Reads [mark] (.marked visibility mark.place)
  | field {head run : List Token} {name : String} {visibility : Option Visibility} {place : Place}
      {part : OpenField} (hhead : MemberHead head name visibility place)
      (hpart : part.Reads name visibility place run) : Reads (head ++ run) (.field part)
  | parameters {run : List Token} {m : Method} (h : MethodHead run m) : Reads run (.parameters m)
  | parameter {run more : List Token} {m : Method} {name : Token} {part : OpenField}
      (h : MethodHead run m) (hname : name.kind = .identifier)
      (hpart : part.Reads name.value none name.place more) :
      Reads (run ++ name :: more) (.parameter m part)
  | signature {run : List Token} {m : Method} {closing : Token} (h : MethodHead run m)
      (hclosing : closing.kind = .rightParenthesis) : Reads (run ++ [closing]) (.signature m)
  | returns {run : List Token} {m : Method} {closing colon : Token} (h : MethodHead run m)
      (hclosing : closing.kind = .rightParenthesis) (hcolon : colon.kind = .colon) :
      Reads (run ++ [closing, colon]) (.returns m)
  | returned {run : List Token} {m : Method} {closing colon type : Token} (h : MethodHead run m)
      (hclosing : closing.kind = .rightParenthesis) (hcolon : colon.kind = .colon)
      (htype : type.kind = .identifier) :
      Reads (run ++ [closing, colon, type]) (.returned { m with returnType := some type.value })
  | returnBracket {run : List Token} {m : Method} {closing colon type opening : Token}
      (h : MethodHead run m) (hclosing : closing.kind = .rightParenthesis)
      (hcolon : colon.kind = .colon) (htype : type.kind = .identifier)
      (hopening : opening.kind = .leftBracket) :
      Reads (run ++ [closing, colon, type, opening])
        (.returnBracket { m with returnType := some type.value })

namespace OpenClass

/-- The class after a lexeme that belongs to its body. -/
def step? (c : OpenClass) (x : Lexeme) : Option OpenClass :=
  (c.shift? x.terminal).map fun next => next x.content x.place

/-- The tokens of a class body under way. -/
inductive Reads (name : String) (place : Place) : List Token → OpenClass → Prop
  | intro {run more : List Token} {members : List Member} {part : BodyPart}
      (hmembers : Many MemberPhrase run members) (hpart : part.Reads more) :
      Reads name place (run ++ more) ⟨{ name, members, place }, part⟩

/-- What a field under way does not take itself, the next member does, but for the parenthesis that
turns a name into a method. -/
theorem shift?_field (c : ClassDeclaration) {part : OpenField} {t : Terminal}
    (h : ¬ (part.stage = .named ∧ t = .leftParenthesis)) :
    shift? ⟨c, .field part⟩ t =
      match part.shift? t with
      | some next => some fun content place => ⟨c, .field (next content place)⟩
      | none => part.complete?.bind fun f => begin? (add c (.field f)) t := by
  obtain ⟨f, stage⟩ := part
  cases stage with
  | named => cases t <;> first | rfl | exact absurd ⟨rfl, rfl⟩ h
  | _ => rfl

theorem step?_field {c : ClassDeclaration} {part : OpenField} {x : Lexeme} {c' : OpenClass}
    (h : step? ⟨c, .field part⟩ x = some c') :
    (∃ part', part.step? x = some part' ∧ c' = ⟨c, .field part'⟩) ∨
    (∃ f, part = ⟨f, .named⟩ ∧ x.terminal = .leftParenthesis ∧
      c' = ⟨c, .parameters { name := f.name, visibility := f.visibility, place := f.place }⟩) ∨
    ∃ d, complete? ⟨c, .field part⟩ = some d ∧ step? ⟨d, .between⟩ x = some c' := by
  obtain ⟨⟨t, content⟩, offset, place⟩ := x
  by_cases hopens : part.stage = .named ∧ t = .leftParenthesis
  · obtain ⟨f, stage⟩ := part
    obtain ⟨rfl, rfl⟩ := hopens
    cases h
    exact .inr (.inl ⟨f, rfl, rfl, rfl⟩)
  · simp only [step?, shift?_field c hopens] at h
    cases hpart : part.shift? t with
    | some next =>
        rw [hpart] at h
        cases h
        exact .inl ⟨next content place, by simp [OpenField.step?, hpart], rfl⟩
    | none =>
        rw [hpart] at h
        cases hf : part.complete? with
        | none =>
            rw [hf] at h
            cases h
        | some f =>
            rw [hf] at h
            exact .inr (.inr ⟨add c (.field f), by simp [complete?, hf], h⟩)

theorem step?_parameter {c : ClassDeclaration} {m : Method} {part : OpenField} {x : Lexeme}
    {c' : OpenClass} (h : step? ⟨c, .parameter m part⟩ x = some c') :
    (∃ part', part.step? x = some part' ∧ c' = ⟨c, .parameter m part'⟩) ∨
    ∃ f, part.complete? = some f ∧
      ((x.terminal = .comma ∧ c' = ⟨c, .parameters (addParameter m f)⟩) ∨
        step? ⟨c, .parameters (addParameter m f)⟩ x = some c') := by
  obtain ⟨⟨t, content⟩, offset, place⟩ := x
  simp only [step?, shift?] at h
  cases hpart : part.shift? t with
  | some next =>
      rw [hpart] at h
      cases h
      exact .inl ⟨next content place, by simp [OpenField.step?, hpart], rfl⟩
  | none =>
      rw [hpart] at h
      cases hf : part.complete? with
      | none =>
          rw [hf] at h
          cases h
      | some f =>
          rw [hf] at h
          refine .inr ⟨f, rfl, ?_⟩
          by_cases hcomma : t = .comma
          · subst hcomma
            cases h
            exact .inl ⟨rfl, rfl⟩
          · refine .inr ?_
            cases t <;> first | exact absurd rfl hcomma | exact h

/-- After the parameters of a method there may be a return type; all else is left to the next
member. -/
theorem step?_signature {c : ClassDeclaration} {m : Method} {x : Lexeme} {c' : OpenClass}
    (h : step? ⟨c, .signature m⟩ x = some c') :
    (x.terminal = .colon ∧ c' = ⟨c, .returns m⟩) ∨
      step? ⟨add c (.method m), .between⟩ x = some c' := by
  obtain ⟨⟨t, content⟩, offset, place⟩ := x
  by_cases hcolon : t = .colon
  · subst hcolon
    cases h
    exact .inl ⟨rfl, rfl⟩
  · right
    cases t <;> first | exact h | exact absurd rfl hcolon

theorem step?_returned {c : ClassDeclaration} {m : Method} {x : Lexeme} {c' : OpenClass}
    (h : step? ⟨c, .returned m⟩ x = some c') :
    (x.terminal = .leftBracket ∧ c' = ⟨c, .returnBracket m⟩) ∨
      step? ⟨add c (.method m), .between⟩ x = some c' := by
  obtain ⟨⟨t, content⟩, offset, place⟩ := x
  by_cases hopening : t = .leftBracket
  · subst hopening
    cases h
    exact .inl ⟨rfl, rfl⟩
  · right
    cases t <;> first | exact h | exact absurd rfl hopening

namespace Reads

variable {name : String} {place : Place} {run : List Token} {c c' : OpenClass} {x : Lexeme}

theorem of_member {before more : List Token} {members : List Member} {m : Member}
    (hmembers : Many MemberPhrase before members) (hm : MemberPhrase more m) :
    Reads name place (before ++ more) ⟨add { name, members, place } m, .between⟩ := by
  rw [← List.append_nil (before ++ more)]
  exact .intro (hmembers.concat hm) .between

/-- What has been read may be taken as a member as soon as it is one. -/
theorem complete {d : ClassDeclaration} (h : Reads name place run c) (hd : c.complete? = some d) :
    Reads name place run ⟨d, .between⟩ := by
  cases h with
  | @intro before more members part hmembers hpart =>
  cases hpart with
  | between =>
      cases hd
      exact .intro hmembers .between
  | field hhead hpart =>
      obtain ⟨f, hf, rfl⟩ := Option.map_eq_some_iff.mp hd
      exact .of_member hmembers (hhead.member (.field (hpart.complete hf)))
  | signature h hclosing =>
      cases hd
      exact .of_member hmembers (h.complete hclosing)
  | returned h hclosing hcolon htype =>
      cases hd
      exact .of_member hmembers (h.member hclosing (.given (.intro hcolon (.plain htype))))
  | _ => cases hd

/-- A lexeme begins a member. -/
theorem begin {d : ClassDeclaration} (h : Reads name place run ⟨d, .between⟩)
    (hx : step? ⟨d, .between⟩ x = some c') : Reads name place (run ++ [x.token]) c' := by
  obtain ⟨⟨t, content⟩, offset, origin⟩ := x
  cases h with
  | @intro before more members _ hmembers hpart =>
  cases hpart
  rw [List.append_nil]
  cases t <;> cases hx
  · exact .intro hmembers (.field (.unmarked rfl) .named)
  · exact .intro hmembers (.marked rfl)

theorem step_of_complete {d : ClassDeclaration} (h : Reads name place run c)
    (hd : c.complete? = some d) (hx : step? ⟨d, .between⟩ x = some c') :
    Reads name place (run ++ [x.token]) c' := (h.complete hd).begin hx

end Reads

/-- After a complete parameter, the list goes on or is closed. -/
theorem reads_of_parameters {c : ClassDeclaration} {run : List Token} {m : Method}
    (h : MethodHead run m) {x : Lexeme} {c' : OpenClass}
    (hx : step? ⟨c, .parameters m⟩ x = some c') :
    ∃ part, c' = ⟨c, part⟩ ∧ part.Reads (run ++ [x.token]) := by
  obtain ⟨⟨t, content⟩, offset, place⟩ := x
  cases t <;> cases hx
  · exact ⟨_, rfl, .parameter h rfl .named⟩
  · exact ⟨_, rfl, .signature h rfl⟩

theorem reads_of_parameter {c : ClassDeclaration} {run more : List Token} {m : Method}
    {name : Token} {part : OpenField} (h : MethodHead run m) (hname : name.kind = .identifier)
    (hpart : part.Reads name.value none name.place more) {x : Lexeme} {c' : OpenClass}
    (hx : step? ⟨c, .parameter m part⟩ x = some c') :
    ∃ part, c' = ⟨c, part⟩ ∧ part.Reads (run ++ name :: more ++ [x.token]) := by
  rcases step?_parameter hx with ⟨part', hx', rfl⟩ | ⟨f, hf, ⟨hcomma, rfl⟩ | hx'⟩
  · refine ⟨_, rfl, ?_⟩
    rw [List.append_assoc, List.cons_append]
    exact .parameter h hname (hpart.step hx')
  · refine ⟨_, rfl, .parameters ?_⟩
    rw [List.append_assoc]
    have hkind := Symbol.kind_of_terminal hcomma fun _ => rfl
    exact h.add (.intro hname (hpart.complete hf) (.given (.intro hkind)))
  · refine reads_of_parameters (h.add ?_) hx'
    rw [← List.append_nil (name :: more)]
    exact .intro hname (hpart.complete hf) .missing

namespace Reads

variable {name : String} {place : Place} {run : List Token} {c c' : OpenClass} {x : Lexeme}

theorem step (h : Reads name place run c) (hx : c.step? x = some c') :
    Reads name place (run ++ [x.token]) c' := by
  cases h with
  | @intro before more members part hmembers hpart =>
  -- A stage that may end its member also goes on with what may begin after it.
  have hwhole : Reads name place (before ++ more) ⟨{ name, members, place }, part⟩ :=
    .intro hmembers hpart
  have hstay {part' : BodyPart} (hpart' : part'.Reads (more ++ [x.token])) :
      Reads name place (before ++ more ++ [x.token]) ⟨{ name, members, place }, part'⟩ := by
    rw [List.append_assoc]
    exact .intro hmembers hpart'
  cases hpart with
  | between => exact hwhole.step_of_complete rfl hx
  | marked hmark =>
      obtain ⟨⟨t, content⟩, offset, origin⟩ := x
      cases t <;> cases hx
      have hname : (Lexeme.token ⟨⟨.name, content⟩, offset, origin⟩).kind = .identifier := rfl
      have hfield := BodyPart.Reads.field (.marked hmark hname) .named
      exact hstay hfield
  | field hhead hpart =>
      rcases step?_field hx with ⟨part', hx', rfl⟩ | ⟨f, rfl, hopens, rfl⟩ | ⟨d, hd, hx'⟩
      · apply hstay
        rw [List.append_assoc]
        exact .field hhead (hpart.step hx')
      · cases hpart
        apply hstay
        rw [List.append_nil]
        have hopening := Symbol.kind_of_terminal hopens fun _ => rfl
        exact .parameters (.intro hhead hopening .nil)
      · exact hwhole.step_of_complete hd hx'
  | parameters h =>
      obtain ⟨part, rfl, hpart⟩ := reads_of_parameters h hx
      exact hstay hpart
  | parameter h hname hpart =>
      obtain ⟨part, rfl, hpart⟩ := reads_of_parameter h hname hpart hx
      exact hstay hpart
  | signature h hclosing =>
      rcases step?_signature hx with ⟨hcolon, rfl⟩ | hx'
      · apply hstay
        rw [List.append_assoc]
        exact .returns h hclosing (Symbol.kind_of_terminal hcolon fun _ => rfl)
      · exact hwhole.step_of_complete rfl hx'
  | returns h hclosing hcolon =>
      obtain ⟨⟨t, content⟩, offset, origin⟩ := x
      cases t <;> cases hx
      apply hstay
      rw [List.append_assoc]
      exact .returned h hclosing hcolon rfl
  | returned h hclosing hcolon htype =>
      rcases step?_returned hx with ⟨hopening, rfl⟩ | hx'
      · apply hstay
        rw [List.append_assoc]
        exact .returnBracket h hclosing hcolon htype (Symbol.kind_of_terminal hopening fun _ => rfl)
      · exact hwhole.step_of_complete rfl hx'
  | returnBracket h hclosing hcolon htype hopening =>
      obtain ⟨⟨t, content⟩, offset, origin⟩ := x
      cases t <;> cases hx
      have hbracket : (Lexeme.token ⟨⟨.rightBracket, content⟩, offset, origin⟩).kind =
          .rightBracket := rfl
      have hmember := h.member hclosing (.given (.intro hcolon (.array htype hopening hbracket)))
      rw [List.append_assoc, List.append_assoc]
      exact .of_member hmembers hmember

end Reads

end OpenClass

end Grammar

end ClassDiagram
