import ClassDiagram.Proofs.Descent.Completeness
import ClassDiagram.Proofs.Trees.Moved

/-!
# Rules and places

A rule chooses by the kinds of tokens and takes over their texts; their places it only hands on.
Tried on tokens that have been moved, it goes the same way and reads the same with all places moved,
or it fails at the same token for the same reason.
-/

namespace ClassDiagram

@[simp] theorem Token.closed_map_moved {f : Place → Place} {tokens : List Token} :
    Closed (tokens.map (moved f)) ↔ Closed tokens := by
  simp [Closed, Function.comp_def]

def ParseError.moved (f : Place → Place) (e : ParseError) : ParseError :=
  { e with token := e.token.moved f }

namespace Cursor

/-- The cursor on the same tokens in other places. -/
def moved (f : Place → Place) (c : Cursor) : Cursor where
  index := c.index
  current := c.current.moved f
  rest := c.rest.map (Token.moved f)
  closed := Token.closed_map_moved.mpr c.closed

@[simp] theorem current_moved (f : Place → Place) (c : Cursor) :
    (c.moved f).current = c.current.moved f := rfl

theorem advance_moved (f : Place → Place) (c : Cursor) :
    (c.moved f).advance = c.advance.moved f := by
  cases c with
  | mk index current rest closed => cases rest <;> rfl

theorem ofTokens_moved {f : Place → Place} {tokens : List Token} (closed : Token.Closed tokens)
    (closed' : Token.Closed (tokens.map (Token.moved f))) :
    ofTokens (tokens.map (Token.moved f)) closed' = (ofTokens tokens closed).moved f := by
  cases tokens with
  | nil => exact absurd closed Token.not_closed_nil
  | cons t rest => rfl

end Cursor

namespace Rule

variable {α β : Type} {f : Place → Place}

/-- The same outcome on moved tokens, where `g` moves what has been read. -/
def Outcome.moved (f : Place → Place) (g : α → α) : Outcome α → Outcome α
  | .ok a c => .ok (g a) (c.moved f)
  | .error e c => .error (e.moved f) (c.moved f)

/-- What the first rule does at the cursor, the second one does on the moved tokens. -/
def CarriesAt (f : Place → Place) (g : α → α) (rule rule' : Rule α) (c : Cursor) : Prop :=
  rule' (c.moved f) = Outcome.moved f g (rule c)

/-- What the first rule does on tokens, the second one does on the moved tokens. -/
def Carries (f : Place → Place) (g : α → α) (rule rule' : Rule α) : Prop :=
  ∀ c, CarriesAt f g rule rule' c

variable {g : α → α} {k : β → β} {rule rule' : Rule α} {next next' : α → Rule β}

theorem CarriesAt.bind {c : Cursor} (h : CarriesAt f g rule rule' c)
    (hnext : ∀ a c', rule c = .ok a c' → CarriesAt f k (next a) (next' (g a)) c') :
    CarriesAt f k (rule >>= next) (rule' >>= next') c := by
  cases hrule : rule c with
  | ok a c' =>
      rw [CarriesAt, hrule] at h
      rw [CarriesAt, bind_of_ok h, bind_of_ok hrule]
      exact hnext a c' hrule
  | error e c' =>
      rw [CarriesAt, hrule] at h
      rw [CarriesAt, bind_of_error h, bind_of_error hrule]
      rfl

theorem carries_pure {a a' : α} (h : a' = g a) : Carries f g (pure a) (pure a') := by
  subst h
  exact fun _ => rfl

theorem Carries.bind (h : Carries f g rule rule')
    (hnext : ∀ a, Carries f k (next a) (next' (g a))) :
    Carries f k (rule >>= next) (rule' >>= next') :=
  fun c => (h c).bind fun a c' _ => hnext a c'

theorem Carries.map {h h' : α → β} (hrule : Carries f g rule rule')
    (heq : ∀ a, h' (g a) = k (h a)) : Carries f k (h <$> rule) (h' <$> rule') :=
  hrule.bind fun a => carries_pure (heq a)

theorem carries_current : Carries f (Token.moved f) current current := fun _ => rfl

theorem carries_check (kind : Token.Kind) : Carries f id (check kind) (check kind) := fun _ => rfl

theorem carries_blame (problem : ParseProblem) : Carries f g (blame problem) (blame problem) :=
  fun _ => rfl

theorem carries_expect (kind : Token.Kind) (what within : String) :
    Carries f (Token.moved f) (expect kind what within) (expect kind what within) := by
  intro c
  by_cases hc : c.current.kind = kind
  · simp [CarriesAt, expect, hc, Cursor.advance_moved, Outcome.moved]
  · simp [CarriesAt, expect, hc, Outcome.moved, ParseError.moved]

theorem carries_accept (kind : Token.Kind) :
    Carries f (Option.map (Token.moved f)) (accept kind) (accept kind) := by
  intro c
  by_cases hc : c.current.kind = kind
  · simp [CarriesAt, accept, hc, Cursor.advance_moved, Outcome.moved]
  · simp [CarriesAt, accept, hc, Outcome.moved]

theorem carries_after (kind : Token.Kind) (h : Carries f g rule rule') :
    Carries f (Option.map g) (after kind rule) (after kind rule') := by
  intro c
  by_cases hc : c.current.kind = kind
  · have hsome : Carries f (Option.map g) (some <$> rule) (some <$> rule') := h.map fun _ => rfl
    have hadvance := hsome c.advance
    rw [CarriesAt, ← Cursor.advance_moved] at hadvance
    simp [CarriesAt, after, hc, hadvance]
  · simp [CarriesAt, after, hc, Outcome.moved]

theorem carries_many {stop : Token.Kind → Bool} (advancing : Advancing rule)
    (h : Carries f g rule rule) :
    Carries f (List.map g) (many stop rule advancing) (many stop rule advancing) := by
  intro c
  -- Every item that is read leaves less to be read.
  induction hleft : c.left using Nat.strongRecOn generalizing c with
  | ind n ih =>
      cases hstop : stop c.current.kind with
      | true =>
          unfold CarriesAt
          rw [many_of_stop (c := c.moved f) hstop, many_of_stop hstop]
          rfl
      | false =>
          unfold CarriesAt
          rw [many_of_not_stop (c := c.moved f) hstop, many_of_not_stop hstop]
          refine (h c).bind fun a c' hc => ?_
          have hlt : c'.left < n := hleft ▸ advancing c a c' hc
          exact (ih _ hlt c' rfl).bind fun as c'' _ => carries_pure rfl c''

theorem carries_typeName (within : String) :
    Carries f id (typeName within) (typeName within) := by
  refine (carries_expect _ _ _).bind fun name => ?_
  refine (carries_after _ (carries_expect _ _ _)).bind fun suffix => ?_
  exact carries_pure (by simp [Token.moved])

theorem carries_ascription (within : String) :
    Carries f id (ascription within) (ascription within) := by
  have htype := carries_after (f := f) .colon (carries_typeName within)
  rwa [Option.map_id] at htype

theorem carries_text (kind : Token.Kind) (what within : String) :
    Carries f id (Token.value <$> expect kind what within)
      (Token.value <$> expect kind what within) :=
  (carries_expect _ _ _).map fun _ => rfl

theorem carries_defaultValue (within : String) :
    Carries f id (defaultValue within) (defaultValue within) := by
  have hvalue := carries_after (f := f) .equals
    (carries_text .identifier "default value after '='" within)
  rwa [Option.map_id] at hvalue

theorem carries_fieldRest (name : String) (visibility : Option Visibility) (place : Place) :
    Carries f (Field.moved f) (fieldRest name visibility place)
      (fieldRest name visibility (f place)) := by
  refine (carries_ascription _).bind fun valueType => ?_
  refine (carries_defaultValue _).bind fun value => ?_
  exact carries_pure rfl

theorem carries_parameter (within : String) :
    Carries f (Field.moved f) (parameter within) (parameter within) := by
  refine (carries_expect _ _ _).bind fun name => ?_
  refine (carries_fieldRest _ _ _).bind fun field => ?_
  refine (carries_accept _).bind fun comma => ?_
  exact carries_pure rfl

theorem carries_methodRest (name : String) (visibility : Option Visibility) (place : Place) :
    Carries f (Method.moved f) (methodRest name visibility place)
      (methodRest name visibility (f place)) := by
  refine (carries_expect _ _ _).bind fun opening => ?_
  refine (carries_many _ (carries_parameter _)).bind fun parameters => ?_
  refine (carries_expect _ _ _).bind fun closing => ?_
  refine (carries_ascription _).bind fun returnType => ?_
  exact carries_pure rfl

theorem carries_marker : Carries f id marker marker := by
  intro c
  cases hv : c.current.kind.visibility? with
  | some v => simp [CarriesAt, marker, hv, Cursor.advance_moved, Outcome.moved]
  | none => simp [CarriesAt, marker, hv, Outcome.moved]

theorem carries_memberRest (name : String) (visibility : Option Visibility) (place : Place) :
    Carries f (Member.moved f) (memberRest name visibility place)
      (memberRest name visibility (f place)) := by
  refine (carries_check _).bind fun opens => ?_
  cases opens
  · exact (carries_fieldRest _ _ _).map fun _ => rfl
  · exact (carries_methodRest _ _ _).map fun _ => rfl

theorem carries_member : Carries f (Member.moved f) member member := by
  refine carries_current.bind fun start => ?_
  refine carries_marker.bind fun visibility => ?_
  refine (carries_expect _ _ _).bind fun name => ?_
  exact carries_memberRest _ _ _

theorem carries_bodyRest (name : String) :
    Carries f (List.map (Member.moved f)) (bodyRest name) (bodyRest name) := by
  refine (carries_many _ carries_member).bind fun members => ?_
  refine (carries_expect _ _ _).bind fun closing => ?_
  exact carries_pure rfl

theorem carries_classDeclaration :
    Carries f (ClassDeclaration.moved f) classDeclaration classDeclaration := by
  refine (carries_expect _ _ _).bind fun start => ?_
  refine (carries_expect _ _ _).bind fun name => ?_
  refine (carries_after _ (carries_bodyRest _)).bind fun members => ?_
  cases members <;> exact carries_pure rfl

theorem carries_interfaceDeclaration :
    Carries f (InterfaceDeclaration.moved f) interfaceDeclaration interfaceDeclaration := by
  refine (carries_expect _ _ _).bind fun start => ?_
  refine (carries_expect _ _ _).bind fun name => ?_
  exact carries_pure rfl

theorem carries_label : Carries f id label label :=
  (carries_accept _).map fun token => by cases token <;> rfl

theorem carries_operator : Carries f (Prod.map (Token.moved f) id) operator operator := by
  intro c
  cases hk : c.current.kind.relationship? with
  | some kind => simp [CarriesAt, operator, hk, Cursor.advance_moved, Outcome.moved]
  | none => simp [CarriesAt, operator, hk, Outcome.moved, ParseError.moved]

theorem carries_relationship : Carries f (Relationship.moved f) relationship relationship := by
  refine (carries_expect _ _ _).bind fun source => ?_
  refine carries_label.bind fun leftLabel => ?_
  refine carries_operator.bind fun operator => ?_
  refine carries_label.bind fun rightLabel => ?_
  refine (carries_expect _ _ _).bind fun target => ?_
  refine (carries_after _ (carries_text _ _ _)).bind fun middleLabel => ?_
  exact carries_pure (by simp [Relationship.moved, Token.moved])

theorem carries_entityOfKind (kind : Token.Kind) :
    Carries f (Entity.moved f) (entityOfKind kind) (entityOfKind kind) := by
  unfold entityOfKind
  split
  · exact carries_classDeclaration.map fun _ => rfl
  · exact carries_interfaceDeclaration.map fun _ => rfl
  · exact carries_relationship.map fun _ => rfl
  · exact carries_blame _

theorem carries_entity : Carries f (Entity.moved f) entity entity :=
  carries_current.bind fun start => carries_entityOfKind start.kind

/-- Reading a document hands places on and does nothing else with them. -/
theorem carries_diagram : Carries f (Diagram.moved f) diagram diagram := by
  refine (carries_many _ carries_entity).bind fun entities => ?_
  exact carries_pure rfl

end Rule

end ClassDiagram
