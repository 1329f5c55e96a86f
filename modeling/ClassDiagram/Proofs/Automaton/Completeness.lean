import ClassDiagram.Proofs.Automaton.Steps
import ClassDiagram.Proofs.Phrase

/-!
# The automaton takes phrases

Where a phrase of some construct may begin, the automaton takes its terminals, and gets to where the
phrase may end.  It never has to go back on what it took the last phrase for: a part that could end
where it is takes what may come next in its place.
-/

namespace ClassDiagram

namespace Grammar

/-- The terminal of the lexemes that are tokens of a kind. -/
def terminalOf : Token.Kind → Terminal
  | .classWord => .classWord
  | .interfaceWord => .interfaceWord
  | .operator _ => .operator
  | .leftBrace => .leftBrace
  | .rightBrace => .rightBrace
  | .leftParenthesis => .leftParenthesis
  | .rightParenthesis => .rightParenthesis
  | .leftBracket => .leftBracket
  | .rightBracket => .rightBracket
  | .colon => .colon
  | .equals => .equal
  | .comma => .comma
  | .marker _ => .visibility
  | .quotation => .string
  | .identifier => .name
  | .endOfText => .endOfText

/-- The terminals of a run of tokens. -/
def terminals (run : List Token) : List Terminal := run.map fun t => terminalOf t.kind

@[simp] theorem terminals_nil : terminals [] = [] := rfl

@[simp] theorem terminals_cons (t : Token) (run : List Token) :
    terminals (t :: run) = terminalOf t.kind :: terminals run := rfl

@[simp] theorem terminals_append (run more : List Token) :
    terminals (run ++ more) = terminals run ++ terminals more := List.map_append

end Grammar

namespace Grammar.State

open Phrase

/-- A place for a field or parameter under way: what belongs to the field is taken there. -/
def Hosts (host : OpenField → State) : Prop :=
  ∀ (part : OpenField) (t : Terminal) (next : Shift OpenField t), part.shift? t = some next →
    (host part).shift? t = some fun content place => host (next content place)

theorem hosts_field (done : List Entity) (c : ClassDeclaration) :
    Hosts fun part => ⟨done, .body ⟨c, .field part⟩⟩ := by
  rintro ⟨f, stage⟩ t next h
  cases stage <;> cases t <;> cases h <;> rfl

theorem hosts_parameter (done : List Entity) (c : ClassDeclaration) (m : Method) :
    Hosts fun part => ⟨done, .body ⟨c, .parameter m part⟩⟩ := by
  rintro ⟨f, stage⟩ t next h
  cases stage <;> cases t <;> cases h <;> rfl

/-- A field may have its default value next. -/
def Settled (part : OpenField) : Prop :=
  part.stage = .named ∨ part.stage = .typed ∨ part.stage = .array

theorem Settled.shift?_equal {part : OpenField} (h : Settled part) :
    part.shift? .equal = some fun _ _ => ⟨part.field, .equal⟩ := by
  obtain ⟨f, stage⟩ := part
  rcases h with rfl | rfl | rfl <;> rfl

theorem Settled.complete? {part : OpenField} (h : Settled part) : part.complete?.isSome := by
  obtain ⟨f, stage⟩ := part
  rcases h with rfl | rfl | rfl <;> rfl

section Field

variable {host : OpenField → State} {run : List Token}

/-- A host has a field under way of the given kind. -/
def Holds (host : OpenField → State) (goal : OpenField → Prop) (s : State) : Prop :=
  ∃ part, s = host part ∧ goal part

theorem takes_type (hhost : Hosts host) (f : Field) {type : String} (h : TypePhrase run type) :
    (host ⟨f, .colon⟩).Takes (terminals run) (Holds host Settled) := by
  cases h with
  | plain hname =>
      simp only [terminals_cons, terminals_nil, hname]
      refine .cons (hhost _ .name _ rfl) fun word _ => .nil ?_
      exact ⟨_, rfl, .inr (.inl rfl)⟩
  | array hname hopening hclosing =>
      simp only [terminals_cons, terminals_nil, hname, hopening, hclosing]
      refine .cons (hhost _ .name _ rfl) fun word _ => ?_
      refine .cons (hhost _ .leftBracket _ rfl) fun _ _ => ?_
      refine .cons (hhost _ .rightBracket _ rfl) fun _ _ => .nil ?_
      exact ⟨_, rfl, .inr (.inr rfl)⟩

theorem takes_ascription (hhost : Hosts host) (f : Field) {type : Option String}
    (h : AscriptionPhrase run type) :
    (host ⟨f, .named⟩).Takes (terminals run) (Holds host Settled) := by
  rcases h with _ | ⟨⟨hcolon, htype⟩⟩
  · exact .nil ⟨_, rfl, .inl rfl⟩
  · simp only [terminals_cons, hcolon]
    exact .cons (hhost _ .colon _ rfl) fun _ _ => takes_type hhost f htype

theorem takes_default (hhost : Hosts host) {part : OpenField} (hpart : Settled part)
    {value : Option String} (h : DefaultPhrase run value) :
    (host part).Takes (terminals run) (Holds host fun part => part.complete?.isSome) := by
  rcases h with _ | ⟨⟨hequals, ⟨hname⟩⟩⟩
  · exact .nil ⟨part, rfl, hpart.complete?⟩
  · simp only [terminals_cons, terminals_nil, hequals, hname]
    refine .cons (hhost _ .equal _ hpart.shift?_equal) fun _ _ => ?_
    exact .cons (hhost _ .name _ rfl) fun word _ => .nil ⟨_, rfl, rfl⟩

theorem takes_fieldRest (hhost : Hosts host) (f g : Field) {name : String}
    {visibility : Option Visibility} {place : Place}
    (h : FieldRestPhrase name visibility place run g) :
    (host ⟨f, .named⟩).Takes (terminals run) (Holds host fun part => part.complete?.isSome) := by
  obtain ⟨htype, hdefault⟩ := h
  rw [terminals_append]
  refine (takes_ascription hhost f htype).append ?_
  rintro _ ⟨part, rfl, hpart⟩
  exact takes_default hhost hpart hdefault

end Field

/-- A class body is under way in which a member may begin. -/
def AtMember (s : State) : Prop :=
  ∃ done part, s = ⟨done, .body part⟩ ∧ part.complete?.isSome

/-- A list of parameters is under way in which a parameter may begin. -/
def AtParameter (s : State) : Prop :=
  ∃ done c, (∃ m, s = ⟨done, .body ⟨c, .parameters m⟩⟩) ∨
    ∃ m part, s = ⟨done, .body ⟨c, .parameter m part⟩⟩ ∧ part.complete?.isSome

theorem AtParameter.shift? {s : State} (h : AtParameter s) :
    ∃ done c m, (s.shift? .name = some fun (word : List Char) place =>
        ⟨done, .body ⟨c, .parameter m (.named word none place)⟩⟩) ∧
      s.shift? .rightParenthesis = some fun _ _ => ⟨done, .body ⟨c, .signature m⟩⟩ := by
  obtain ⟨done, c, ⟨m, rfl⟩ | ⟨m, ⟨f, stage⟩, rfl, hpart⟩⟩ := h
  · exact ⟨done, c, m, rfl, rfl⟩
  · refine ⟨done, c, OpenClass.addParameter m f, ?_⟩
    cases stage <;> first | exact ⟨rfl, rfl⟩ | cases hpart

theorem takes_parameter {s : State} (hs : AtParameter s) {run : List Token} {f : Field}
    (h : ParameterPhrase run f) : s.Takes (terminals run) AtParameter := by
  obtain ⟨hname, hrest, hcomma⟩ := h
  obtain ⟨done, c, m, hshift, -⟩ := hs.shift?
  simp only [List.cons_append, terminals_cons, terminals_append, hname]
  refine .cons hshift fun word place => ?_
  refine (takes_fieldRest (hosts_parameter done c m) _ _ hrest).append ?_
  rintro _ ⟨⟨g, stage⟩, rfl, hpart⟩
  rcases hcomma with _ | ⟨⟨hcomma⟩⟩
  · exact .nil ⟨done, c, .inr ⟨m, _, rfl, hpart⟩⟩
  · simp only [terminals_cons, terminals_nil, hcomma]
    have hcommaShift : State.shift? ⟨done, .body ⟨c, .parameter m ⟨g, stage⟩⟩⟩ .comma =
        some fun _ _ => ⟨done, .body ⟨c, .parameters (OpenClass.addParameter m g)⟩⟩ := by
      cases stage <;> first | rfl | cases hpart
    exact .cons hcommaShift fun _ _ => .nil ⟨done, c, .inl ⟨_, rfl⟩⟩

theorem takes_parameters {s : State} (hs : AtParameter s) {run : List Token} {fs : List Field}
    (h : Many ParameterPhrase run fs) : s.Takes (terminals run) AtParameter := by
  induction h generalizing s with
  | nil => exact .nil hs
  | cons hp _ ih =>
      rw [terminals_append]
      exact (takes_parameter hs hp).append fun s' hs' => ih hs'

/-- The return type of a method is not part of a field, so it is taken apart. -/
theorem takes_return (done : List Entity) (c : ClassDeclaration) (m : Method) {run : List Token}
    {type : Option String} (h : AscriptionPhrase run type) :
    State.Takes ⟨done, .body ⟨c, .signature m⟩⟩ (terminals run) AtMember := by
  rcases h with _ | ⟨⟨hcolon, hname | ⟨hname, hopening, hclosing⟩⟩⟩
  · exact .nil ⟨done, _, rfl, rfl⟩
  · simp only [terminals_cons, terminals_nil, hcolon, hname]
    refine .cons (t := .colon) rfl fun _ _ => ?_
    exact .cons (t := .name) rfl fun word _ => .nil ⟨done, _, rfl, rfl⟩
  · simp only [terminals_cons, terminals_nil, hcolon, hname, hopening, hclosing]
    refine .cons (t := .colon) rfl fun _ _ => ?_
    refine .cons (t := .name) rfl fun word _ => ?_
    refine .cons (t := .leftBracket) rfl fun _ _ => ?_
    exact .cons (t := .rightBracket) rfl fun _ _ => .nil ⟨done, _, rfl, rfl⟩

theorem takes_memberRest (done : List Entity) (c : ClassDeclaration) (f : Field)
    {run : List Token} {name : String} {visibility : Option Visibility} {place : Place}
    {m : Member} (h : MemberRestPhrase name visibility place run m) :
    State.Takes ⟨done, .body ⟨c, .field ⟨f, .named⟩⟩⟩ (terminals run) AtMember := by
  cases h with
  | field h =>
      refine (takes_fieldRest (hosts_field done c) f _ h).mono ?_
      rintro _ ⟨part, rfl, hpart⟩
      exact ⟨done, _, rfl, by simpa [OpenClass.complete?] using hpart⟩
  | method h =>
      obtain ⟨hopening, hparameters, hclosing, hreturn⟩ := h
      simp only [List.cons_append, terminals_cons, terminals_append, hopening, hclosing]
      refine .cons (t := .leftParenthesis) rfl fun _ _ => ?_
      refine (takes_parameters ⟨done, c, .inl ⟨_, rfl⟩⟩ hparameters).append fun s hs => ?_
      obtain ⟨done, c, m, -, hshift⟩ := hs.shift?
      exact .cons hshift fun _ _ => takes_return done c m hreturn

/-- Where a member may begin or the body end, the last part counts as complete. -/
theorem AtMember.shift? {s : State} (h : AtMember s) :
    ∃ done c, (∀ t ∈ [Terminal.name, .visibility], s.shift? t =
        (OpenClass.begin? c t).map fun next content place => ⟨done, .body (next content place)⟩) ∧
      s.shift? .rightBrace = some fun _ _ => ⟨done ++ [.classDeclaration c], .between⟩ := by
  obtain ⟨done, ⟨c, part⟩, rfl, hpart⟩ := h
  obtain ⟨c', hc'⟩ := Option.isSome_iff_exists.mp hpart
  refine ⟨done, c', ?_, by simp [State.shift?, hc']⟩
  intro t ht
  cases part with
  | field part =>
      obtain ⟨f, stage⟩ := part
      cases stage <;> cases hc' <;> (simp at ht; rcases ht with rfl | rfl <;> rfl)
  | _ => cases hc' <;> (simp at ht; rcases ht with rfl | rfl <;> rfl)

theorem takes_member {s : State} (hs : AtMember s) {run : List Token} {m : Member}
    (h : MemberPhrase run m) : s.Takes (terminals run) AtMember := by
  obtain ⟨done, c, hshift, -⟩ := hs.shift?
  cases h with
  | unmarked hname hrest =>
      simp only [terminals_cons, hname]
      refine .cons (hshift .name (by simp)) fun word place => ?_
      exact takes_memberRest done c _ hrest
  | marked hmark hname hrest =>
      simp only [terminals_cons, hmark, hname]
      refine .cons (hshift .visibility (by simp)) fun v place => ?_
      refine .cons (t := .name) rfl fun word _ => ?_
      exact takes_memberRest done c _ hrest

theorem takes_members {s : State} (hs : AtMember s) {run : List Token} {ms : List Member}
    (h : Many MemberPhrase run ms) : s.Takes (terminals run) AtMember := by
  induction h generalizing s with
  | nil => exact .nil hs
  | cons hp _ ih =>
      rw [terminals_append]
      exact (takes_member hs hp).append fun s' hs' => ih hs'

/-- An entity may begin or the document end. -/
def Complete (s : State) : Prop := s.complete?.isSome

/-- Where an entity may begin, the last one counts as complete. -/
theorem Complete.shift? {s : State} (h : Complete s) :
    ∃ done, ∀ t ∈ [Terminal.classWord, .interfaceWord, .name], s.shift? t = begin? done t := by
  obtain ⟨done, part⟩ := s
  cases part with
  | between => exact ⟨done, fun t _ => rfl⟩
  | className c =>
      refine ⟨done ++ [.classDeclaration c], ?_⟩
      simp [State.shift?]
  | target r =>
      refine ⟨done ++ [.relationship r], ?_⟩
      simp [State.shift?]
  | _ => cases h

theorem takes_class {s : State} (hs : Complete s) {run : List Token} {c : ClassDeclaration}
    (h : ClassPhrase run c) : s.Takes (terminals run) Complete := by
  obtain ⟨done, hshift⟩ := hs.shift?
  cases h with
  | bare hword hname =>
      simp only [terminals_cons, terminals_nil, hword, hname]
      refine .cons (hshift .classWord (by simp)) fun _ place => ?_
      exact .cons (t := .name) rfl fun word _ => .nil rfl
  | body hword hname hopening hmembers hclosing =>
      simp only [List.cons_append, terminals_cons, terminals_append, terminals_nil, hword, hname,
        hopening, hclosing]
      refine .cons (hshift .classWord (by simp)) fun _ place => ?_
      refine .cons (t := .name) rfl fun word _ => ?_
      refine .cons (t := .leftBrace) rfl fun _ _ => ?_
      refine (takes_members ⟨done, _, rfl, rfl⟩ hmembers).append fun s hs => ?_
      obtain ⟨done, c, -, hbrace⟩ := hs.shift?
      exact .cons hbrace fun _ _ => .nil rfl

theorem takes_interface {s : State} (hs : Complete s) {run : List Token} {i : InterfaceDeclaration}
    (h : InterfacePhrase run i) : s.Takes (terminals run) Complete := by
  obtain ⟨done, hshift⟩ := hs.shift?
  obtain ⟨hword, hname⟩ := h
  simp only [terminals_cons, terminals_nil, hword, hname]
  refine .cons (hshift .interfaceWord (by simp)) fun _ place => ?_
  exact .cons (t := .name) rfl fun word _ => .nil rfl

theorem takes_left (done : List Entity) (source : List Char) (place : Place) {run : List Token}
    {label : Option String} (h : Maybe (TextOf .quotation) run label) :
    State.Takes ⟨done, .source source none place⟩ (terminals run)
      fun s => ∃ left, s = ⟨done, .source source left place⟩ := by
  rcases h with _ | ⟨⟨hlabel⟩⟩
  · exact .nil ⟨none, rfl⟩
  · simp only [terminals_cons, terminals_nil, hlabel]
    exact .cons (t := .string) rfl fun raw _ => .nil ⟨some raw, rfl⟩

theorem takes_right (done : List Entity) (source : List Char) (left : Option (List Char))
    (place : Place) (o : Operator) {run : List Token} {label : Option String}
    (h : Maybe (TextOf .quotation) run label) :
    State.Takes ⟨done, .operator source left place o none⟩ (terminals run)
      fun s => ∃ right, s = ⟨done, .operator source left place o right⟩ := by
  rcases h with _ | ⟨⟨hlabel⟩⟩
  · exact .nil ⟨none, rfl⟩
  · simp only [terminals_cons, terminals_nil, hlabel]
    exact .cons (t := .string) rfl fun raw _ => .nil ⟨some raw, rfl⟩

theorem takes_middle (done : List Entity) (r : Relationship) {run : List Token}
    {label : Option String} (h : Maybe (Led .colon (TextOf .quotation)) run label) :
    State.Takes ⟨done, .target r⟩ (terminals run) Complete := by
  rcases h with _ | ⟨⟨hcolon, ⟨hlabel⟩⟩⟩
  · exact .nil rfl
  · simp only [terminals_cons, terminals_nil, hcolon, hlabel]
    refine .cons (t := .colon) rfl fun _ _ => ?_
    exact .cons (t := .string) rfl fun raw _ => .nil rfl

theorem shift?_operator (done : List Entity) (source : List Char) (left : Option (List Char))
    (place : Place) :
    State.shift? ⟨done, .source source left place⟩ .operator =
      some fun (o : Operator) _ => ⟨done, .operator source left place o none⟩ := by
  cases left <;> rfl

theorem shift?_target (done : List Entity) (source : List Char) (left : Option (List Char))
    (place : Place) (o : Operator) (right : Option (List Char)) :
    State.shift? ⟨done, .operator source left place o right⟩ .name =
      some fun (word : List Char) _ =>
        ⟨done, .target (relate source left place o right word)⟩ := by
  cases right <;> rfl

theorem takes_relationship {s : State} (hs : Complete s) {run : List Token} {r : Relationship}
    (h : RelationshipPhrase run r) : s.Takes (terminals run) Complete := by
  obtain ⟨done, hshift⟩ := hs.shift?
  obtain ⟨hsource, hleft, hoperator, hright, htarget, hmiddle⟩ := h
  simp only [List.cons_append, List.append_assoc, terminals_cons, terminals_append, hsource,
    hoperator, htarget]
  refine .cons (hshift .name (by simp)) fun source place => ?_
  refine (takes_left done source place hleft).append ?_
  rintro _ ⟨left, rfl⟩
  refine .cons (shift?_operator done source left place) fun o _ => ?_
  refine (takes_right done source left place o hright).append ?_
  rintro _ ⟨right, rfl⟩
  refine .cons (shift?_target done source left place o right) fun target _ => ?_
  exact takes_middle done _ hmiddle

theorem takes_entity {s : State} (hs : Complete s) {run : List Token} {e : Entity}
    (h : EntityPhrase run e) : s.Takes (terminals run) Complete := by
  cases h with
  | classDeclaration h => exact takes_class hs h
  | interfaceDeclaration h => exact takes_interface hs h
  | relationship h => exact takes_relationship hs h

/-- The automaton takes every document. -/
theorem takes_document {run : List Token} {d : Diagram} (h : DocumentPhrase run d) :
    start.Takes (terminals run) Complete := by
  obtain ⟨h⟩ := h
  have hmany : ∀ s, Complete s → s.Takes (terminals run) Complete := by
    induction h with
    | nil => exact fun s hs => .nil hs
    | cons hp _ ih =>
        intro s hs
        rw [terminals_append]
        exact (takes_entity hs hp).append ih
  exact hmany start rfl

/-- Every field under way can be completed. -/
theorem exists_takes_field {host : OpenField → State} (hhost : Hosts host) (part : OpenField) :
    ∃ ts, (host part).Takes ts (Holds host fun part => part.complete?.isSome) := by
  obtain ⟨f, stage⟩ := part
  cases stage with
  | colon =>
      refine ⟨[.name], .cons (hhost _ .name _ rfl) fun word _ => .nil ⟨_, rfl, rfl⟩⟩
  | bracket =>
      refine ⟨[.rightBracket], .cons (hhost _ .rightBracket _ rfl) fun _ _ => .nil ⟨_, rfl, rfl⟩⟩
  | equal =>
      refine ⟨[.name], .cons (hhost _ .name _ rfl) fun word _ => .nil ⟨_, rfl, rfl⟩⟩
  | _ => exact ⟨[], .nil ⟨_, rfl, rfl⟩⟩

theorem takes_rightParenthesis {s : State} (hs : AtParameter s) :
    s.Takes [.rightParenthesis] AtMember := by
  obtain ⟨done, c, m, -, hshift⟩ := hs.shift?
  exact .cons hshift fun _ _ => .nil ⟨done, _, rfl, rfl⟩

/-- Every class body under way can be brought to where it may end. -/
theorem exists_takes_body (done : List Entity) (part : OpenClass) :
    ∃ ts, State.Takes ⟨done, .body part⟩ ts AtMember := by
  obtain ⟨c, part⟩ := part
  cases part with
  | marked v place =>
      exact ⟨[.name], .cons (t := .name) rfl fun word _ => .nil ⟨done, _, rfl, rfl⟩⟩
  | field part =>
      obtain ⟨ts, hts⟩ := exists_takes_field (hosts_field done c) part
      refine ⟨ts, hts.mono ?_⟩
      rintro _ ⟨part, rfl, hpart⟩
      exact ⟨done, _, rfl, by simpa [OpenClass.complete?] using hpart⟩
  | parameters m =>
      exact ⟨[.rightParenthesis], takes_rightParenthesis ⟨done, c, .inl ⟨m, rfl⟩⟩⟩
  | parameter m part =>
      obtain ⟨ts, hts⟩ := exists_takes_field (hosts_parameter done c m) part
      refine ⟨ts ++ [.rightParenthesis], hts.append ?_⟩
      rintro _ ⟨part, rfl, hpart⟩
      exact takes_rightParenthesis ⟨done, c, .inr ⟨m, part, rfl, hpart⟩⟩
  | returns m =>
      exact ⟨[.name], .cons (t := .name) rfl fun word _ => .nil ⟨done, _, rfl, rfl⟩⟩
  | returnBracket m =>
      exact ⟨[.rightBracket], .cons (t := .rightBracket) rfl fun _ _ => .nil ⟨done, _, rfl, rfl⟩⟩
  | _ => exact ⟨[], .nil ⟨done, _, rfl, rfl⟩⟩

/-- Every document under way can be completed. -/
theorem exists_takes (s : State) : ∃ ts, s.Takes ts Complete := by
  obtain ⟨done, part⟩ := s
  cases part with
  | classWord place => exact ⟨[.name], .cons (t := .name) rfl fun word _ => .nil rfl⟩
  | interfaceWord place => exact ⟨[.name], .cons (t := .name) rfl fun word _ => .nil rfl⟩
  | body part =>
      obtain ⟨ts, hts⟩ := exists_takes_body done part
      refine ⟨ts ++ [.rightBrace], hts.append fun s hs => ?_⟩
      obtain ⟨done, c, -, hbrace⟩ := hs.shift?
      exact .cons hbrace fun _ _ => .nil rfl
  | source name left place =>
      refine ⟨[.operator, .name], .cons (shift?_operator done name left place) fun o _ => ?_⟩
      exact .cons (t := .name) rfl fun word _ => .nil rfl
  | operator name left place o right =>
      exact ⟨[.name], .cons (shift?_target done name left place o right) fun word _ => .nil rfl⟩
  | middle r => exact ⟨[.string], .cons (t := .string) rfl fun raw _ => .nil rfl⟩
  | _ => exact ⟨[], .nil rfl⟩

end Grammar.State

end ClassDiagram
