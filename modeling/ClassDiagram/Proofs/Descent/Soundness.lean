import ClassDiagram.Proofs.Descent.Account

/-!
# The rules read phrases

Each rule of class diagrams is sound for the phrases of its construct.  The phrases that a rule
goes through one after the other are put together to a production; a rule that looks at the current
token first is cut into the rules that it may turn into.
-/

namespace ClassDiagram.Rule

open Phrase

theorem sound_typeName (within : String) : Sound (typeName within) TypePhrase := by
  refine ((sound_expect (by decide) _ _).bind fun name =>
    (sound_after (by decide) (sound_expect (by decide) _ _)).bind fun suffix =>
      sound_pure _).mono ?_
  rintro _ _ ⟨⟨hname⟩, ⟨_ | ⟨⟨hopening, ⟨hclosing⟩⟩⟩, ⟨⟩⟩⟩
  · exact .plain hname
  · exact .array hname hopening hclosing

theorem sound_ascription (within : String) : Sound (ascription within) AscriptionPhrase :=
  sound_after (by decide) (sound_typeName within)

theorem sound_defaultValue (within : String) : Sound (defaultValue within) DefaultPhrase :=
  sound_after (by decide) (sound_text (by decide) _ _)

theorem sound_fieldRest (name : String) (visibility : Option Visibility) (place : Place) :
    Sound (fieldRest name visibility place) (FieldRestPhrase name visibility place) := by
  refine ((sound_ascription _).bind fun valueType =>
    (sound_defaultValue _).bind fun value => sound_pure _).mono ?_
  rintro _ _ ⟨htype, ⟨hdefault, ⟨⟩⟩⟩
  rw [List.append_nil]
  exact .intro htype hdefault

theorem sound_parameter (within : String) : Sound (parameter within) ParameterPhrase := by
  refine ((sound_expect (by decide) _ _).bind fun name => (sound_fieldRest _ _ _).bind fun field =>
    (sound_accept (by decide)).bind fun _ => sound_pure _).mono ?_
  rintro _ _ ⟨⟨hname⟩, ⟨hrest, ⟨_ | ⟨⟨hcomma⟩⟩, ⟨⟩⟩⟩⟩
  · simpa using ParameterPhrase.intro hname hrest .missing
  · simpa using ParameterPhrase.intro hname hrest (.given (.intro hcomma))

theorem sound_methodRest (name : String) (visibility : Option Visibility) (place : Place) :
    Sound (methodRest name visibility place) (MethodRestPhrase name visibility place) := by
  refine ((sound_expect (by decide) _ _).bind fun _ =>
    (sound_many (advancing_parameter _) (sound_parameter _)).bind fun parameters =>
      (sound_expect (by decide) _ _).bind fun _ =>
        (sound_ascription _).bind fun returnType => sound_pure _).mono ?_
  rintro _ _ ⟨⟨hopening⟩, ⟨hparameters, ⟨⟨hclosing⟩, ⟨hreturn, ⟨⟩⟩⟩⟩⟩
  simpa using MethodRestPhrase.intro hopening hparameters hclosing hreturn

theorem sound_memberRest (name : String) (visibility : Option Visibility) (place : Place) :
    Sound (memberRest name visibility place) (MemberRestPhrase name visibility place) := by
  have hfield : Sound (Member.field <$> fieldRest name visibility place)
      (MemberRestPhrase name visibility place) := by
    refine ((sound_fieldRest name visibility place).map _).mono ?_
    rintro _ _ ⟨h⟩
    exact .field h
  have hmethod : Sound (Member.method <$> methodRest name visibility place)
      (MemberRestPhrase name visibility place) := by
    refine ((sound_methodRest name visibility place).map _).mono ?_
    rintro _ _ ⟨h⟩
    exact .method h
  refine .of_agree hfield.inhabited fun c => ?_
  cases hc : c.current.kind == .leftParenthesis with
  | true => exact ⟨_, hmethod, by simp [memberRest, check, bind, EStateM.bind, hc]⟩
  | false => exact ⟨_, hfield, by simp [memberRest, check, bind, EStateM.bind, hc]⟩

/-- What is left of a member after its marker, or all of it if there is none. -/
def namedMember (visibility : Option Visibility) (place : Place) : Rule Member := do
  let name ← expect .identifier "member name" "class body"
  memberRest name.value visibility place

theorem sound_namedMember (visibility : Option Visibility) (place : Place) :
    Sound (namedMember visibility place)
      (Then (One .identifier) fun name => MemberRestPhrase name.value visibility place) :=
  (sound_expect (by decide) _ _).bind fun _ => sound_memberRest _ _ _

theorem member_of_marker {c : Cursor} {v : Visibility} (h : c.current.kind = .marker v) :
    member c = namedMember (some v) c.current.place c.advance := by
  simp [member, current, marker, namedMember, bind, EStateM.bind, h, Token.Kind.visibility?]

theorem member_of_no_marker {c : Cursor} (h : ∀ v, c.current.kind ≠ .marker v) :
    member c = namedMember none c.current.place c := by
  have hv : c.current.kind.visibility? = none := by
    unfold Token.Kind.visibility?
    split
    · next v hv => exact absurd hv (h v)
    · rfl
  simp [member, current, marker, namedMember, bind, EStateM.bind, hv]

theorem inhabited_member : ∃ run m, MemberPhrase run m := by
  obtain ⟨run, m, hrest⟩ := (sound_memberRest "" none .nowhere).inhabited
  exact ⟨⟨.identifier, "", .nowhere⟩ :: run, m, .unmarked rfl hrest⟩

theorem accounts_member_of_marker {c : Cursor} {v : Visibility} (h : c.current.kind = .marker v) :
    Accounts MemberPhrase c (member c) := by
  rw [member_of_marker h]
  have hadvance : c.Passes [c.current] c.advance := .advance (by simp [h])
  have hsound := sound_namedMember (some v) c.current.place
  cases hout : namedMember (some v) c.current.place c.advance with
  | ok m c' =>
      obtain ⟨_, hrun, ⟨⟨hname⟩, hrest⟩⟩ := hsound.of_ok hout
      exact ⟨_, hadvance.trans hrun, .marked h hname hrest⟩
  | error e c' =>
      obtain ⟨he, run, hrun, more, m, hnamed⟩ := hsound.of_error hout
      refine ⟨he, _, hadvance.trans hrun, more, m, ?_⟩
      rw [List.append_assoc]
      generalize run ++ more = whole at hnamed
      obtain ⟨⟨hname⟩, hrest⟩ := hnamed
      exact .marked h hname hrest

/-- Without a marker, the place of the member is that of the current token, which is also its name
as soon as anything has been passed. -/
theorem accounts_member_of_no_marker {c : Cursor} (h : ∀ v, c.current.kind ≠ .marker v) :
    Accounts MemberPhrase c (member c) := by
  rw [member_of_no_marker h]
  have hsound := sound_namedMember none c.current.place
  cases hout : namedMember none c.current.place c with
  | ok m c' =>
      obtain ⟨_, hrun, ⟨⟨hname⟩, hrest⟩⟩ := hsound.of_ok hout
      rw [hrun.current_eq] at hrest
      exact ⟨_, hrun, .unmarked hname hrest⟩
  | error e c' =>
      obtain ⟨he, run, hrun, more, m, hnamed⟩ := hsound.of_error hout
      cases run with
      | nil => exact ⟨he, [], hrun, inhabited_member⟩
      | cons t run =>
          refine ⟨he, t :: run, hrun, more, m, ?_⟩
          rw [hrun.current_eq] at hnamed
          generalize hwhole : t :: run ++ more = whole at hnamed
          obtain ⟨⟨hname⟩, hrest⟩ := hnamed
          obtain ⟨rfl, -⟩ := List.cons.inj hwhole
          exact .unmarked hname hrest

theorem sound_member : Sound member MemberPhrase where
  inhabited := inhabited_member
  accounts := by
    intro c
    by_cases h : ∃ v, c.current.kind = .marker v
    · obtain ⟨v, hv⟩ := h
      exact accounts_member_of_marker hv
    · exact accounts_member_of_no_marker (not_exists.mp h)

theorem sound_bodyRest (name : String) :
    Sound (bodyRest name) (Then (Many MemberPhrase) fun members =>
      Map (fun _ => members) (One .rightBrace)) := by
  refine ((sound_many advancing_member sound_member).bind fun members =>
    (sound_expect (by decide) _ _).bind fun _ => sound_pure _).mono ?_
  rintro _ _ ⟨hmembers, ⟨⟨hclosing⟩, ⟨⟩⟩⟩
  rw [List.append_nil]
  exact .intro hmembers (.intro (.intro hclosing))

theorem sound_classDeclaration : Sound classDeclaration ClassPhrase := by
  refine ((sound_expect (by decide) _ _).bind fun start =>
    (sound_expect (by decide) _ _).bind fun name =>
      (sound_after (by decide) (sound_bodyRest name.value)).bind fun members =>
        sound_pure _).mono ?_
  rintro _ _ ⟨⟨hword⟩, ⟨⟨hname⟩, ⟨_ | ⟨⟨hopening, ⟨hmembers, ⟨⟨hclosing⟩⟩⟩⟩⟩, ⟨⟩⟩⟩⟩
  · exact .bare hword hname
  · simpa using ClassPhrase.body hword hname hopening hmembers hclosing

theorem sound_interfaceDeclaration : Sound interfaceDeclaration InterfacePhrase := by
  refine ((sound_expect (by decide) _ _).bind fun start =>
    (sound_expect (by decide) _ _).bind fun name => sound_pure _).mono ?_
  rintro _ _ ⟨⟨hword⟩, ⟨⟨hname⟩, ⟨⟩⟩⟩
  exact .intro hword hname

theorem sound_label : Sound label (Maybe (TextOf .quotation)) := by
  refine ((sound_accept (by decide)).map _).mono ?_
  rintro _ _ ⟨_ | ⟨⟨ht⟩⟩⟩
  · exact .missing
  · exact .given (.intro ht)

/-- A token for an operator, which says itself and what it stands for. -/
inductive OperatorToken : Phrase (Token × RelationshipKind)
  | intro {t : Token} {kind : RelationshipKind} (ht : t.kind = .operator kind) :
      OperatorToken [t] (t, kind)

theorem sound_operator : Sound operator OperatorToken where
  inhabited := ⟨[⟨.operator .association, "", .nowhere⟩], _, .intro rfl⟩
  accounts := by
    intro c
    simp only [operator]
    split
    · next kind h =>
      have hkind : c.current.kind = .operator kind := by
        unfold Token.Kind.relationship? at h
        split at h
        · next k hk => rw [hk, Option.some.inj h]
        · cases h
      exact ⟨[c.current], .advance (by simp [hkind]), .intro hkind⟩
    · exact ⟨rfl, [], .refl c, [⟨.operator .association, "", .nowhere⟩], _, .intro rfl⟩

theorem sound_relationship : Sound relationship RelationshipPhrase := by
  refine ((sound_expect (by decide) _ _).bind fun source => sound_label.bind fun leftLabel =>
    sound_operator.bind fun operator => sound_label.bind fun rightLabel =>
      (sound_expect (by decide) _ _).bind fun target =>
        (sound_after (by decide) (sound_text (by decide) _ _)).bind fun middleLabel =>
          sound_pure _).mono ?_
  rintro _ _ ⟨⟨hsource⟩, ⟨hleft, ⟨⟨hoperator⟩, ⟨hright, ⟨⟨htarget⟩, ⟨hmiddle, ⟨⟩⟩⟩⟩⟩⟩⟩
  simpa [Relationship.nameOf] using
    RelationshipPhrase.intro hsource hleft hoperator hright htarget hmiddle

theorem sound_entityOfKind (kind : Token.Kind) : Sound (entityOfKind kind) EntityPhrase := by
  have hinterface : Sound (Entity.interfaceDeclaration <$> interfaceDeclaration) EntityPhrase := by
    refine (sound_interfaceDeclaration.map _).mono ?_
    rintro _ _ ⟨h⟩
    exact .interfaceDeclaration h
  unfold entityOfKind
  split
  · refine (sound_classDeclaration.map _).mono ?_
    rintro _ _ ⟨h⟩
    exact .classDeclaration h
  · exact hinterface
  · refine (sound_relationship.map _).mono ?_
    rintro _ _ ⟨h⟩
    exact .relationship h
  · exact sound_blame _ hinterface.inhabited

theorem sound_entity : Sound entity EntityPhrase :=
  .of_agree (sound_entityOfKind .classWord).inhabited fun c =>
    ⟨entityOfKind c.current.kind, sound_entityOfKind _, rfl⟩

theorem sound_diagram : Sound diagram DocumentPhrase := by
  refine ((sound_many advancing_entity sound_entity).bind fun entities => sound_pure _).mono ?_
  rintro _ _ ⟨h, ⟨⟩⟩
  rw [List.append_nil]
  exact .intro h

end ClassDiagram.Rule
