import ClassDiagram.Diagram.Rules
import ClassDiagram.Proofs.Descent.Passage
import ClassDiagram.Proofs.Phrase
import ClassDiagram.Proofs.Sequencing

/-!
# The rules find phrases

A rule takes an optional part whenever one can begin, and goes on with a list until it must stop.
That loses no phrase: where a phrase ends, the next token is never one that could have belonged to
it.  So a rule is complete for the phrases of its construct up to a list of kinds that the token
after the phrase must not have.
-/

namespace ClassDiagram.Rule

open Phrase

variable {α β : Type}

theorem current_eq_ok (c : Cursor) : current c = .ok c.current c := rfl

theorem expect_of_passes {kind : Token.Kind} {what within : String} {c c' : Cursor} {t : Token}
    {run : List Token} (h : c.Passes (t :: run) c') (ht : t.kind = kind) :
    expect kind what within c = .ok t c.advance := by
  simp [expect, h.current_eq, ht]

section Many

variable {stop : Token.Kind → Bool} {rule : Rule α} {advancing : Advancing rule} {c : Cursor}

theorem many_of_stop (h : stop c.current.kind = true) :
    many stop rule advancing c = .ok [] c := by
  rw [many]
  simp [h]

/-- Before the list must stop, reading it is reading one item and then the rest of it. -/
theorem many_of_not_stop (h : stop c.current.kind = false) :
    many stop rule advancing c =
      (rule >>= fun a => List.cons a <$> (many stop rule advancing : Rule (List α))) c := by
  rw [many]
  simp only [h, Bool.false_eq_true, if_false]
  change _ = EStateM.bind rule (fun a => EStateM.map (List.cons a) (many stop rule advancing)) c
  simp only [EStateM.bind, EStateM.map]
  split
  · next e c' hc => rw [hc]
  · next a c' hc =>
    rw [hc]
    dsimp only
    cases many stop rule advancing c' <;> rfl

end Many

/-- The rule reads every phrase that is not followed by a token of one of the kinds. -/
def Complete (rule : Rule α) (p : Phrase α) (more : List Token.Kind) : Prop :=
  ∀ c run a c', p run a → c.Passes run c' → c'.current.kind ∉ more → rule c = .ok a c'

theorem complete_text (kind : Token.Kind) (what within : String) :
    Complete (Token.value <$> expect kind what within) (TextOf kind) [] := by
  rintro c run a c' ⟨ht⟩ hc -
  rw [map_of_ok (expect_of_passes hc ht), hc.tail.eq_of_nil]

theorem complete_after {kind : Token.Kind} {rule : Rule α} {p : Phrase α} {more : List Token.Kind}
    (h : Complete rule p more) :
    Complete (after kind rule) (Maybe (Led kind p)) (kind :: more) := by
  rintro c run a c' (_ | ⟨⟨ht, hp⟩⟩) hc hnext
  · obtain rfl := hc.eq_of_nil
    have hkind : c.current.kind ≠ kind := fun heq => hnext (heq ▸ List.mem_cons_self)
    simp [after, hkind]
  · have hrule := h _ _ _ _ hp hc.tail fun hmem => hnext (List.mem_cons_of_mem kind hmem)
    simp [after, hc.current_eq, ht, map_of_ok hrule]

theorem complete_accept (kind : Token.Kind) {run : List Token} {o : Option String} {c c' : Cursor}
    (h : Maybe (TextOf kind) run o) (hc : c.Passes run c') (hnext : c'.current.kind ≠ kind) :
    ∃ t, accept kind c = .ok t c' ∧ t.map Token.value = o := by
  rcases h with _ | ⟨⟨ht⟩⟩
  · obtain rfl := hc.eq_of_nil
    exact ⟨none, by simp [accept, hnext], rfl⟩
  · refine ⟨some c.current, ?_, by rw [hc.current_eq]; rfl⟩
    rw [← hc.tail.eq_of_nil]
    simp [accept, hc.current_eq, ht]

/-- Where an optional part may stand, the next token is of the kind that begins it or is the one
after it. -/
theorem next_of_maybe_led {kind : Token.Kind} {p : Phrase α} {run : List Token} {o : Option α}
    {c c' : Cursor} (h : Maybe (Led kind p) run o) (hc : c.Passes run c') :
    c.current.kind = kind ∨ c = c' := by
  rcases h with _ | ⟨⟨ht, hp⟩⟩
  · exact .inr hc.eq_of_nil
  · exact .inl (hc.current_eq ▸ ht)

theorem next_of_maybe_text {kind : Token.Kind} {run : List Token} {o : Option String}
    {c c' : Cursor} (h : Maybe (TextOf kind) run o) (hc : c.Passes run c') :
    c.current.kind = kind ∨ c = c' := by
  rcases h with _ | ⟨⟨ht⟩⟩
  · exact .inr hc.eq_of_nil
  · exact .inl (hc.current_eq ▸ ht)

/-- The phrases of a list all begin with a token of one of the kinds `first`.  If none of these
stops the list or continues a phrase, and what stops the list does not continue a phrase either,
then the list is read to its end. -/
theorem many_of_phrases {stop : Token.Kind → Bool} {rule : Rule α} {advancing : Advancing rule}
    {p : Phrase α} {more first : List Token.Kind} (h : Complete rule p more)
    (hfirst : ∀ run a, p run a → ∃ t rest, run = t :: rest ∧ t.kind ∈ first)
    (hnext : ∀ kind ∈ first, stop kind = false ∧ kind ∉ more)
    (hstop : ∀ kind, stop kind = true → kind ∉ more) {run : List Token} {as : List α}
    (hp : Many p run as) :
    ∀ c c', c.Passes run c' → stop c'.current.kind = true →
      many stop rule advancing c = .ok as c' := by
  induction hp with
  | nil =>
      intro c c' hc hend
      obtain rfl := hc.eq_of_nil
      exact many_of_stop hend
  | @cons run rest a as hp hps ih =>
      intro c c' hc hend
      obtain ⟨c₁, h₁, h₂⟩ := hc.split
      obtain ⟨t, run', rfl, ht⟩ := hfirst _ _ hp
      have hmore : c₁.current.kind ∉ more := by
        cases hps with
        | nil => exact h₂.eq_of_nil ▸ hstop _ hend
        | cons hp' _ =>
            obtain ⟨u, run'', rfl, hu⟩ := hfirst _ _ hp'
            exact h₂.current_eq ▸ (hnext _ hu).2
      rw [many_of_not_stop (h₁.current_eq ▸ (hnext _ ht).1), bind_of_ok (h _ _ _ _ hp h₁ hmore)]
      exact map_of_ok (ih c₁ c' h₂ hend)

theorem complete_typeName (within : String) :
    Complete (typeName within) TypePhrase [.leftBracket] := by
  intro c run a c' h hc hnext
  cases h with
  | plain hname =>
      obtain rfl : c.advance = c' := hc.tail.eq_of_nil
      have hsuffix : after .leftBracket (expect .rightBracket "']' after '['" within) c.advance =
          .ok none c.advance := by
        have hkind : c.advance.current.kind ≠ .leftBracket := by simpa using hnext
        simp [after, hkind]
      rw [typeName, bind_of_ok (expect_of_passes hc hname), bind_of_ok hsuffix]
      rfl
  | @array name opening closing hname hopening hclosing =>
      have hclose : expect .rightBracket "']' after '['" within c.advance.advance =
          .ok closing c.advance.advance.advance := expect_of_passes hc.tail.tail hclosing
      have hsuffix : after .leftBracket (expect .rightBracket "']' after '['" within) c.advance =
          .ok (some closing) c' := by
        rw [← hc.tail.tail.tail.eq_of_nil]
        simp [after, hc.tail.current_eq, hopening, map_of_ok hclose]
      rw [typeName, bind_of_ok (expect_of_passes hc hname), bind_of_ok hsuffix]
      rfl

theorem complete_ascription (within : String) :
    Complete (ascription within) AscriptionPhrase [.colon, .leftBracket] :=
  complete_after (complete_typeName within)

theorem complete_defaultValue (within : String) :
    Complete (defaultValue within) DefaultPhrase [.equals] :=
  complete_after (complete_text _ _ _)

theorem complete_fieldRest (name : String) (visibility : Option Visibility) (place : Place) :
    Complete (fieldRest name visibility place) (FieldRestPhrase name visibility place)
      [.colon, .leftBracket, .equals] := by
  rintro c _ _ c' ⟨htype, hdefault⟩ hc hnext
  obtain ⟨c₁, h₁, h₂⟩ := hc.split
  have hmore : c₁.current.kind ∉ [.colon, .leftBracket] := by
    rcases next_of_maybe_led hdefault h₂ with hkind | rfl
    · simp [hkind]
    · simp_all
  have hvalue := complete_defaultValue ("field " ++ name) c₁ _ _ c' hdefault h₂ (by simp_all)
  rw [fieldRest, bind_of_ok (complete_ascription _ _ _ _ _ htype h₁ hmore), bind_of_ok hvalue]
  rfl

theorem complete_parameter (within : String) :
    Complete (parameter within) ParameterPhrase [.colon, .leftBracket, .equals, .comma] := by
  rintro c _ _ c' ⟨hname, hrest, hcomma⟩ hc hnext
  obtain ⟨c₁, h₁, h₂⟩ := hc.split
  have hmore : c₁.current.kind ∉ [.colon, .leftBracket, .equals] := by
    rcases next_of_maybe_text hcomma h₂ with hkind | rfl
    · simp [hkind]
    · simp_all
  obtain ⟨t, haccept, -⟩ := complete_accept _ hcomma h₂ (by simp_all)
  rw [parameter, bind_of_ok (expect_of_passes h₁ hname),
    bind_of_ok (complete_fieldRest _ _ _ _ _ _ _ hrest h₁.tail hmore), bind_of_ok haccept]
  rfl

theorem first_of_parameter {run : List Token} {f : Field} (h : ParameterPhrase run f) :
    ∃ t rest, run = t :: rest ∧ t.kind ∈ [Token.Kind.identifier] := by
  obtain ⟨hname, _, _⟩ := h
  exact ⟨_, _, rfl, by simp [hname]⟩

theorem complete_parameters (within : String) {run : List Token} {parameters : List Field}
    (h : Many ParameterPhrase run parameters) {c c' : Cursor} (hc : c.Passes run c')
    (hnext : c'.current.kind = .rightParenthesis) :
    many endsParameters (parameter within) (advancing_parameter within) c = .ok parameters c' := by
  refine many_of_phrases (complete_parameter within) (fun _ _ => first_of_parameter) (by decide) ?_
    h c c' hc (by rw [hnext]; rfl)
  intro kind hstop
  simp only [endsParameters, Bool.or_eq_true, beq_iff_eq] at hstop
  rcases hstop with rfl | rfl <;> decide

theorem complete_methodRest (name : String) (visibility : Option Visibility) (place : Place) :
    Complete (methodRest name visibility place) (MethodRestPhrase name visibility place)
      [.colon, .leftBracket] := by
  rintro c _ _ c' ⟨hopening, hparameters, hclosing, hreturn⟩ hc hnext
  obtain ⟨c₁, h₁, h₂⟩ := hc.split
  have hlist := complete_parameters ("method " ++ name) hparameters h₁.tail
    (h₂.current_eq ▸ hclosing)
  rw [methodRest, bind_of_ok (expect_of_passes h₁ hopening), bind_of_ok hlist,
    bind_of_ok (expect_of_passes h₂ hclosing),
    bind_of_ok (complete_ascription _ _ _ _ _ hreturn h₂.tail hnext)]
  rfl

theorem complete_memberRest (name : String) (visibility : Option Visibility) (place : Place) :
    Complete (memberRest name visibility place) (MemberRestPhrase name visibility place)
      [.leftParenthesis, .colon, .leftBracket, .equals] := by
  intro c run a c' h hc hnext
  cases h with
  | field h =>
      have hfield := complete_fieldRest _ _ _ _ _ _ _ h hc (by simp_all)
      have hopens : check .leftParenthesis c = .ok false c := by
        obtain ⟨htype, hdefault⟩ := h
        obtain ⟨c₁, h₁, h₂⟩ := hc.split
        rcases next_of_maybe_led htype h₁ with hkind | rfl
        · simp [check, hkind]
        rcases next_of_maybe_led hdefault h₂ with hkind | rfl
        · simp [check, hkind]
        · simp_all [check]
      rw [memberRest, bind_of_ok hopens]
      exact map_of_ok hfield
  | method h =>
      have hmethod := complete_methodRest _ _ _ _ _ _ _ h hc (by simp_all)
      have hopens : check .leftParenthesis c = .ok true c := by
        obtain ⟨hopening, _, _, _⟩ := h
        obtain ⟨c₁, h₁, _⟩ := hc.split
        simp [check, h₁.current_eq, hopening]
      rw [memberRest, bind_of_ok hopens]
      exact map_of_ok hmethod

theorem complete_member :
    Complete member MemberPhrase [.leftParenthesis, .colon, .leftBracket, .equals] := by
  intro c run a c' h hc hnext
  cases h with
  | @unmarked name _ _ hname hrest =>
      have hmarker : marker c = .ok none c := by
        simp [marker, hc.current_eq, hname, Token.Kind.visibility?]
      rw [member, bind_of_ok (current_eq_ok c), bind_of_ok hmarker,
        bind_of_ok (expect_of_passes hc hname), hc.current_eq]
      exact complete_memberRest _ _ _ _ _ _ _ hrest hc.tail hnext
  | @marked mark name visibility _ _ hmark hname hrest =>
      have hmarker : marker c = .ok (some visibility) c.advance := by
        simp [marker, hc.current_eq, hmark, Token.Kind.visibility?]
      rw [member, bind_of_ok (current_eq_ok c), bind_of_ok hmarker,
        bind_of_ok (expect_of_passes hc.tail hname), hc.current_eq]
      exact complete_memberRest _ _ _ _ _ _ _ hrest hc.tail.tail hnext

theorem first_of_member {run : List Token} {m : Member} (h : MemberPhrase run m) :
    ∃ t rest, run = t :: rest ∧ t.kind ∈ .identifier :: Visibility.all.map Token.Kind.marker := by
  cases h with
  | unmarked hname _ => exact ⟨_, _, rfl, by simp [hname]⟩
  | marked hmark _ _ => exact ⟨_, _, rfl, by simp [hmark, Visibility.mem_all]⟩

theorem complete_bodyRest (name : String) {run : List Token} {closing : Token}
    {members : List Member} (h : Many MemberPhrase run members)
    (hclosing : closing.kind = .rightBrace) {c c' : Cursor} (hc : c.Passes (run ++ [closing]) c') :
    bodyRest name c = .ok members c' := by
  obtain ⟨c₁, h₁, h₂⟩ := hc.split
  have hkind : c₁.current.kind = .rightBrace := h₂.current_eq ▸ hclosing
  have hlist : many endsBody member advancing_member c = .ok members c₁ := by
    refine many_of_phrases complete_member (fun _ _ => first_of_member) (by decide) ?_ h c c₁ h₁
      (by rw [hkind]; rfl)
    intro kind hstop
    simp only [endsBody, Bool.or_eq_true, beq_iff_eq] at hstop
    rcases hstop with rfl | rfl <;> decide
  rw [bodyRest, bind_of_ok hlist, bind_of_ok (expect_of_passes h₂ hclosing), h₂.tail.eq_of_nil]
  rfl

theorem complete_classDeclaration : Complete classDeclaration ClassPhrase [.leftBrace] := by
  intro c run a c' h hc hnext
  cases h with
  | @bare word name hword hname =>
      obtain rfl : c.advance.advance = c' := hc.tail.tail.eq_of_nil
      have hbody : after .leftBrace (bodyRest name.value) c.advance.advance =
          .ok none c.advance.advance := by
        have hkind : c.advance.advance.current.kind ≠ .leftBrace := by simpa using hnext
        simp [after, hkind]
      rw [classDeclaration, bind_of_ok (expect_of_passes hc hword),
        bind_of_ok (expect_of_passes hc.tail hname), bind_of_ok hbody]
      rfl
  | @body word name opening closing run members hword hname hopening hmembers hclosing =>
      have hbody : after .leftBrace (bodyRest name.value) c.advance.advance =
          .ok (some members) c' := by
        have hrest := complete_bodyRest name.value hmembers hclosing hc.tail.tail.tail
        simp [after, hc.tail.tail.current_eq, hopening, map_of_ok hrest]
      rw [classDeclaration, bind_of_ok (expect_of_passes hc hword),
        bind_of_ok (expect_of_passes hc.tail hname), bind_of_ok hbody]
      rfl

theorem complete_interfaceDeclaration : Complete interfaceDeclaration InterfacePhrase [] := by
  rintro c _ _ c' ⟨hword, hname⟩ hc -
  rw [interfaceDeclaration, bind_of_ok (expect_of_passes hc hword),
    bind_of_ok (expect_of_passes hc.tail hname), hc.tail.tail.eq_of_nil]
  rfl

theorem complete_label : Complete label (Maybe (TextOf .quotation)) [.quotation] := by
  intro c run o c' h hc hnext
  obtain ⟨t, haccept, rfl⟩ := complete_accept _ h hc (by simpa using hnext)
  exact map_of_ok haccept

theorem complete_relationship : Complete relationship RelationshipPhrase [.colon] := by
  intro c run r c' h hc hnext
  cases h with
  | @intro source token target kind _ _ _ _ _ _ hsource hleft hoperator hright htarget hmiddle =>
      obtain ⟨c₂, hc₂, h₃⟩ := hc.split
      obtain ⟨c₁, h₁, h₂⟩ := hc₂.split
      have hlabel₁ := complete_label _ _ _ _ hleft h₁.tail (by simp [h₂.current_eq, hoperator])
      have htoken : operator c₁ = .ok (token, kind) c₁.advance := by
        simp only [operator, h₂.current_eq, hoperator, Token.Kind.relationship?]
      have hlabel₂ := complete_label _ _ _ _ hright h₂.tail (by simp [h₃.current_eq, htarget])
      have htext := complete_text .quotation "quoted label after ':'" "relationship"
      have hlast := complete_after htext _ _ _ _ hmiddle h₃.tail hnext
      rw [relationship, bind_of_ok (expect_of_passes h₁ hsource), bind_of_ok hlabel₁,
        bind_of_ok htoken]
      dsimp only
      rw [bind_of_ok hlabel₂, bind_of_ok (expect_of_passes h₃ htarget), bind_of_ok hlast]
      rfl

theorem first_of_entity {run : List Token} {e : Entity} (h : EntityPhrase run e) :
    ∃ t rest, run = t :: rest ∧ t.kind ∈ [Token.Kind.classWord, .interfaceWord, .identifier] := by
  rcases h with h | h | h
  · rcases h with hword | hword <;> exact ⟨_, _, rfl, by simp [*]⟩
  · obtain ⟨hword, _⟩ := h
    exact ⟨_, _, rfl, by simp [hword]⟩
  · obtain ⟨hsource, _, _, _, _, _⟩ := h
    exact ⟨_, _, rfl, by simp [hsource]⟩

theorem complete_entity : Complete entity EntityPhrase [.leftBrace, .colon] := by
  intro c run a c' h hc hnext
  have hentity : entity c = entityOfKind c.current.kind c := rfl
  cases h with
  | classDeclaration h =>
      have hkind : c.current.kind = .classWord := by
        rcases h with hword | hword <;> rw [hc.current_eq, hword]
      rw [hentity, hkind]
      exact map_of_ok (complete_classDeclaration _ _ _ _ h hc (by simp_all))
  | interfaceDeclaration h =>
      have hkind : c.current.kind = .interfaceWord := by
        obtain ⟨hword, _⟩ := h
        rw [hc.current_eq, hword]
      rw [hentity, hkind]
      exact map_of_ok (complete_interfaceDeclaration _ _ _ _ h hc (by simp))
  | relationship h =>
      have hkind : c.current.kind = .identifier := by
        obtain ⟨hsource, _, _, _, _, _⟩ := h
        obtain ⟨_, h₁, _⟩ := hc.split
        obtain ⟨_, h₂, _⟩ := h₁.split
        rw [h₂.current_eq, hsource]
      rw [hentity, hkind]
      exact map_of_ok (complete_relationship _ _ _ _ h hc (by simp_all))

/-- A document is read up to the first token for the end of the text. -/
theorem diagram_of_document {run : List Token} {d : Diagram} (h : DocumentPhrase run d)
    {c c' : Cursor} (hc : c.Passes run c') (hend : c'.current.kind = .endOfText) :
    diagram c = .ok d c' := by
  obtain ⟨hentities⟩ := h
  have hlist : many (· == .endOfText) entity advancing_entity c = .ok _ c' :=
    many_of_phrases complete_entity (fun _ _ => first_of_entity) (by decide) (by simp) hentities
      c c' hc (by simp [hend])
  rw [diagram, bind_of_ok hlist]
  rfl

end ClassDiagram.Rule
