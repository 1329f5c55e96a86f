import ClassDiagram.Proofs.Descent.Completeness

/-!
# How far rules see

A rule sees the tokens it passes and the one it stops at, and nothing else.  Tried on another
sequence that is the same up to there, it does the same: it reads the same, or it blames the same
token for the same reason.
-/

namespace ClassDiagram.Rule

variable {α β : Type}

/-- The same outcome with the cursor at another place. -/
def Outcome.movedTo (d : Cursor) : Outcome α → Outcome α
  | .ok a _ => .ok a d
  | .error e _ => .error e d

/-- From `c` on, what the rule does is settled by the tokens it passes and the one it stops at. -/
def SeesNext (rule : Rule α) (c : Cursor) : Prop :=
  ∃ run, c.Passes run (Outcome.cursor (rule c)) ∧
    ∀ d d', d.Passes run d' → d'.current = (Outcome.cursor (rule c)).current →
      rule d = Outcome.movedTo d' (rule c)

/-- The rule never sees more than the tokens it passes and the one it stops at. -/
def Nearsighted (rule : Rule α) : Prop := ∀ c, SeesNext rule c

namespace SeesNext

variable {rule rule' : Rule α} {next : α → Rule β} {c c' : Cursor} {a : α}

/-- A rule may look at the current token and then do as another rule does. -/
theorem of_agree (h : SeesNext rule' c) (heq : ∀ d, d.current = c.current → rule d = rule' d) :
    SeesNext rule c := by
  obtain ⟨run, hrun, hsame⟩ := h
  rw [← heq c rfl] at hrun hsame
  refine ⟨run, hrun, fun d d' hd hcurrent => ?_⟩
  rw [← hsame d d' hd hcurrent]
  exact heq d (Cursor.Passes.current_eq_of_passes hrun hd hcurrent)

/-- A rule that passes nothing has to do the same wherever the current token is the same. -/
theorem of_stay (hstay : Outcome.cursor (rule c) = c)
    (h : ∀ d, d.current = c.current → rule d = Outcome.movedTo d (rule c)) : SeesNext rule c := by
  refine ⟨[], ?_, fun d d' hd hcurrent => ?_⟩
  · rw [hstay]
    exact .refl c
  · obtain rfl := hd.eq_of_nil
    exact h d (by rw [hcurrent, hstay])

/-- A rule that passes the current token has to do the same with it wherever it stands. -/
theorem of_advance (hc : rule c = .ok a c.advance) (hkind : c.current.kind ≠ .endOfText)
    (h : ∀ d, d.current = c.current → rule d = .ok a d.advance) : SeesNext rule c := by
  rw [SeesNext, hc]
  refine ⟨[c.current], .advance hkind, fun d d' hd _ => ?_⟩
  rw [h d hd.current_eq, hd.tail.eq_of_nil]
  rfl

theorem bind (h : SeesNext rule c)
    (hnext : ∀ a c', rule c = .ok a c' → SeesNext (next a) c') : SeesNext (rule >>= next) c := by
  obtain ⟨run, hrun, hsame⟩ := h
  cases hc : rule c with
  | error e c' =>
      rw [hc] at hrun hsame
      rw [SeesNext, bind_of_error hc]
      exact ⟨run, hrun, fun d d' hd hcurrent => bind_of_error (hsame d d' hd hcurrent)⟩
  | ok a c' =>
      rw [hc] at hrun hsame
      rw [SeesNext, bind_of_ok hc]
      obtain ⟨more, hmore, hsame'⟩ := hnext a c' hc
      refine ⟨run ++ more, hrun.trans hmore, fun d d' hd hcurrent => ?_⟩
      obtain ⟨d₁, h₁, h₂⟩ := hd.split
      have hd₁ : rule d = .ok a d₁ :=
        hsame d d₁ h₁ (Cursor.Passes.current_eq_of_passes hmore h₂ hcurrent)
      rw [bind_of_ok hd₁]
      exact hsame' d₁ d' h₂ hcurrent

end SeesNext

theorem nearsighted_pure (a : α) : Nearsighted (pure a : Rule α) :=
  fun _ => .of_stay rfl fun _ _ => rfl

namespace Nearsighted

variable {rule : Rule α} {next : α → Rule β}

theorem bind (h : Nearsighted rule) (hnext : ∀ a, Nearsighted (next a)) :
    Nearsighted (rule >>= next) :=
  fun c => (h c).bind fun a c' _ => hnext a c'

theorem map (h : Nearsighted rule) (f : α → β) : Nearsighted (f <$> rule) :=
  h.bind fun a => nearsighted_pure (f a)

end Nearsighted

theorem nearsighted_current : Nearsighted current :=
  fun _ => .of_stay rfl fun _ hd => by simp [current, Outcome.movedTo, hd]

theorem nearsighted_blame (problem : ParseProblem) : Nearsighted (blame problem : Rule α) :=
  fun _ => .of_stay rfl fun _ hd => by simp [blame, Outcome.movedTo, hd]

theorem nearsighted_check (kind : Token.Kind) : Nearsighted (check kind) :=
  fun _ => .of_stay rfl fun _ hd => by simp [check, Outcome.movedTo, hd]

theorem nearsighted_expect {kind : Token.Kind} (hkind : kind ≠ .endOfText) (what within : String) :
    Nearsighted (expect kind what within) := by
  intro c
  by_cases hc : c.current.kind = kind
  · refine .of_advance (a := c.current) (by simp [expect, hc]) (hc ▸ hkind) fun d hd => ?_
    simp [expect, hd, hc]
  · refine .of_stay (by simp [expect, hc, Outcome.cursor]) fun d hd => ?_
    simp [expect, hd, hc, Outcome.movedTo]

theorem nearsighted_accept {kind : Token.Kind} (hkind : kind ≠ .endOfText) :
    Nearsighted (accept kind) := by
  intro c
  by_cases hc : c.current.kind = kind
  · refine .of_advance (a := some c.current) (by simp [accept, hc]) (hc ▸ hkind) fun d hd => ?_
    simp [accept, hd, hc]
  · refine .of_stay (by simp [accept, hc, Outcome.cursor]) fun d hd => ?_
    simp [accept, hd, hc, Outcome.movedTo]

theorem nearsighted_after {kind : Token.Kind} {rule : Rule α} (hkind : kind ≠ .endOfText)
    (h : Nearsighted rule) : Nearsighted (after kind rule) := by
  intro c
  by_cases hc : c.current.kind = kind
  · refine .of_agree ((nearsighted_expect hkind "" "").bind (fun _ => h.map some) c) fun d hd => ?_
    have hexpect : expect kind "" "" d = .ok d.current d.advance := by simp [expect, hd, hc]
    rw [bind_of_ok hexpect]
    simp [after, hd, hc]
  · refine .of_stay (by simp [after, hc, Outcome.cursor]) fun d hd => ?_
    simp [after, hd, hc, Outcome.movedTo]

theorem nearsighted_many {stop : Token.Kind → Bool} {rule : Rule α} (advancing : Advancing rule)
    (h : Nearsighted rule) : Nearsighted (many stop rule advancing) := by
  intro c
  -- Every item that is read leaves less to be read.
  induction hleft : c.left using Nat.strongRecOn generalizing c with
  | ind n ih =>
      cases hstop : stop c.current.kind with
      | true =>
          refine .of_stay (by rw [many_of_stop hstop]; rfl) fun d hd => ?_
          rw [many_of_stop hstop, many_of_stop (hd ▸ hstop)]
          rfl
      | false =>
          refine .of_agree ((h c).bind fun a c' hc => ?_) fun d hd => many_of_not_stop (hd ▸ hstop)
          have hlt : c'.left < n := hleft ▸ advancing c a c' hc
          exact (ih _ hlt c' rfl).bind fun as c'' _ => nearsighted_pure _ c''

theorem nearsighted_typeName (within : String) : Nearsighted (typeName within) := by
  refine (nearsighted_expect (by decide) _ _).bind fun name => ?_
  refine (nearsighted_after (by decide) (nearsighted_expect (by decide) _ _)).bind fun suffix => ?_
  exact nearsighted_pure _

theorem nearsighted_ascription (within : String) : Nearsighted (ascription within) :=
  nearsighted_after (by decide) (nearsighted_typeName within)

theorem nearsighted_defaultValue (within : String) : Nearsighted (defaultValue within) :=
  nearsighted_after (by decide) ((nearsighted_expect (by decide) _ _).map _)

theorem nearsighted_fieldRest (name : String) (visibility : Option Visibility) (place : Place) :
    Nearsighted (fieldRest name visibility place) := by
  refine (nearsighted_ascription _).bind fun valueType => ?_
  refine (nearsighted_defaultValue _).bind fun value => ?_
  exact nearsighted_pure _

theorem nearsighted_parameter (within : String) : Nearsighted (parameter within) := by
  refine (nearsighted_expect (by decide) _ _).bind fun name => ?_
  refine (nearsighted_fieldRest _ _ _).bind fun field => ?_
  refine (nearsighted_accept (by decide)).bind fun comma => ?_
  exact nearsighted_pure _

theorem nearsighted_methodRest (name : String) (visibility : Option Visibility) (place : Place) :
    Nearsighted (methodRest name visibility place) := by
  refine (nearsighted_expect (by decide) _ _).bind fun opening => ?_
  refine (nearsighted_many _ (nearsighted_parameter _)).bind fun parameters => ?_
  refine (nearsighted_expect (by decide) _ _).bind fun closing => ?_
  refine (nearsighted_ascription _).bind fun returnType => ?_
  exact nearsighted_pure _

theorem nearsighted_memberRest (name : String) (visibility : Option Visibility) (place : Place) :
    Nearsighted (memberRest name visibility place) := by
  refine (nearsighted_check _).bind fun opens => ?_
  cases opens
  · exact (nearsighted_fieldRest _ _ _).map _
  · exact (nearsighted_methodRest _ _ _).map _

theorem nearsighted_marker : Nearsighted marker := by
  intro c
  cases hv : c.current.kind.visibility? with
  | some v =>
      have hkind : c.current.kind ≠ .endOfText := by
        intro heq
        simp [heq, Token.Kind.visibility?] at hv
      refine .of_advance (a := some v) (by simp [marker, hv]) hkind fun d hd => ?_
      simp [marker, hd, hv]
  | none =>
      refine .of_stay (by simp [marker, hv, Outcome.cursor]) fun d hd => ?_
      simp [marker, hd, hv, Outcome.movedTo]

theorem nearsighted_member : Nearsighted member := by
  refine nearsighted_current.bind fun start => ?_
  refine nearsighted_marker.bind fun visibility => ?_
  refine (nearsighted_expect (by decide) _ _).bind fun name => ?_
  exact nearsighted_memberRest _ _ _

theorem nearsighted_bodyRest (name : String) : Nearsighted (bodyRest name) := by
  refine (nearsighted_many _ nearsighted_member).bind fun members => ?_
  refine (nearsighted_expect (by decide) _ _).bind fun closing => ?_
  exact nearsighted_pure _

theorem nearsighted_classDeclaration : Nearsighted classDeclaration := by
  refine (nearsighted_expect (by decide) _ _).bind fun start => ?_
  refine (nearsighted_expect (by decide) _ _).bind fun name => ?_
  refine (nearsighted_after (by decide) (nearsighted_bodyRest _)).bind fun members => ?_
  exact nearsighted_pure _

theorem nearsighted_interfaceDeclaration : Nearsighted interfaceDeclaration := by
  refine (nearsighted_expect (by decide) _ _).bind fun start => ?_
  refine (nearsighted_expect (by decide) _ _).bind fun name => ?_
  exact nearsighted_pure _

theorem nearsighted_label : Nearsighted label := (nearsighted_accept (by decide)).map _

theorem nearsighted_operator : Nearsighted operator := by
  intro c
  cases hk : c.current.kind.relationship? with
  | some kind =>
      have hkind : c.current.kind ≠ .endOfText := by
        intro heq
        simp [heq, Token.Kind.relationship?] at hk
      refine .of_advance (a := (c.current, kind)) (by simp [operator, hk]) hkind fun d hd => ?_
      simp [operator, hd, hk]
  | none =>
      refine .of_stay (by simp [operator, hk, Outcome.cursor]) fun d hd => ?_
      simp [operator, hd, hk, Outcome.movedTo]

theorem nearsighted_relationship : Nearsighted relationship := by
  have hlast : Nearsighted (expect .quotation "quoted label after ':'" "relationship") :=
    nearsighted_expect (by decide) _ _
  refine (nearsighted_expect (by decide) _ _).bind fun source => ?_
  refine nearsighted_label.bind fun leftLabel => ?_
  refine nearsighted_operator.bind fun operator => ?_
  refine nearsighted_label.bind fun rightLabel => ?_
  refine (nearsighted_expect (by decide) _ _).bind fun target => ?_
  refine (nearsighted_after (by decide) (hlast.map _)).bind fun middleLabel => ?_
  exact nearsighted_pure _

theorem nearsighted_entityOfKind (kind : Token.Kind) : Nearsighted (entityOfKind kind) := by
  unfold entityOfKind
  split
  · exact nearsighted_classDeclaration.map _
  · exact nearsighted_interfaceDeclaration.map _
  · exact nearsighted_relationship.map _
  · exact nearsighted_blame _

theorem nearsighted_entity : Nearsighted entity :=
  nearsighted_current.bind fun _ => nearsighted_entityOfKind _

theorem nearsighted_diagram : Nearsighted diagram :=
  (nearsighted_many _ nearsighted_entity).bind fun _ => nearsighted_pure _

end ClassDiagram.Rule
