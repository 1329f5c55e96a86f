import ClassDiagram.Proofs.Descent.Acceptance

/-!
# Leaving out commas and empty bodies

A comma after a parameter and a body without members say nothing.  Whoever leaves out some of them
from a document, and no other token, is left with a document that says the same, places included.
A body is empty only if its closing brace comes at once; a brace that opens anything else stays.
-/

namespace ClassDiagram

namespace Token

def withoutCommas (tokens : List Token) : List Token :=
  tokens.filter fun t => t.kind != .comma

/-- Leaves out every opening brace that a closing one follows at once, and that closing one. -/
def withoutEmptyBodies : List Token → List Token
  | t :: u :: rest =>
    if t.kind = .leftBrace ∧ u.kind = .rightBrace then withoutEmptyBodies rest
    else t :: withoutEmptyBodies (u :: rest)
  | tokens => tokens

/-- Tokens of the kind are never left out, and do not matter for what is. -/
def Kind.Solid (kind : Kind) : Prop := kind ≠ .comma ∧ kind ≠ .leftBrace

instance (kind : Kind) : Decidable kind.Solid := inferInstanceAs (Decidable (_ ∧ _))

/-- A way to leave out tokens that leaves out commas and empty bodies at most. -/
structure Thinning (drop : List Token → List Token) : Prop where
  nil : drop [] = []
  solid : ∀ {t : Token}, t.kind.Solid → ∀ rest, drop (t :: rest) = t :: drop rest
  comma : ∀ {t : Token}, t.kind = .comma →
    (∀ rest, drop (t :: rest) = t :: drop rest) ∨ ∀ rest, drop (t :: rest) = drop rest
  body : ∀ {t u : Token}, t.kind = .leftBrace → u.kind = .rightBrace →
    (∀ rest, drop (t :: u :: rest) = t :: u :: drop rest) ∨
      ∀ rest, drop (t :: u :: rest) = drop rest
  opening : ∀ {t u : Token}, t.kind = .leftBrace → u.kind ≠ .rightBrace →
    ∀ rest, drop (t :: u :: rest) = t :: drop (u :: rest)

theorem withoutCommas_cons_comma {t : Token} (h : t.kind = .comma) (rest : List Token) :
    withoutCommas (t :: rest) = withoutCommas rest := by
  simp [withoutCommas, h]

theorem withoutCommas_cons_of_ne {t : Token} (h : t.kind ≠ .comma) (rest : List Token) :
    withoutCommas (t :: rest) = t :: withoutCommas rest := by
  simp [withoutCommas, h]

theorem withoutEmptyBodies_cons_cons (t u : Token) (rest : List Token) :
    withoutEmptyBodies (t :: u :: rest) =
      if t.kind = .leftBrace ∧ u.kind = .rightBrace then withoutEmptyBodies rest
      else t :: withoutEmptyBodies (u :: rest) := rfl

theorem withoutEmptyBodies_body {t u : Token} (ht : t.kind = .leftBrace) (hu : u.kind = .rightBrace)
    (rest : List Token) : withoutEmptyBodies (t :: u :: rest) = withoutEmptyBodies rest := by
  rw [withoutEmptyBodies_cons_cons, if_pos ⟨ht, hu⟩]

theorem withoutEmptyBodies_opening {t u : Token} (hu : u.kind ≠ .rightBrace) (rest : List Token) :
    withoutEmptyBodies (t :: u :: rest) = t :: withoutEmptyBodies (u :: rest) := by
  rw [withoutEmptyBodies_cons_cons, if_neg fun h => hu h.2]

theorem withoutEmptyBodies_cons_of_ne {t : Token} (h : t.kind ≠ .leftBrace) (rest : List Token) :
    withoutEmptyBodies (t :: rest) = t :: withoutEmptyBodies rest := by
  cases rest with
  | nil => rfl
  | cons u rest => rw [withoutEmptyBodies_cons_cons, if_neg fun hbody => h hbody.1]

theorem withoutEmptyBodies_sublist (tokens : List Token) :
    (withoutEmptyBodies tokens).Sublist tokens := by
  fun_induction withoutEmptyBodies tokens with
  | case1 t u rest hbody ih => exact (ih.cons u).cons t
  | case2 t u rest hbody ih => exact ih.cons_cons t
  | case3 tokens => exact .refl tokens

theorem thinning_withoutCommas : Thinning withoutCommas where
  nil := rfl
  solid h := withoutCommas_cons_of_ne h.1
  comma h := .inr (withoutCommas_cons_comma h)
  body ht hu := .inl fun rest => by
    rw [withoutCommas_cons_of_ne (by simp [ht]), withoutCommas_cons_of_ne (by simp [hu])]
  opening h _ _ := withoutCommas_cons_of_ne (by simp [h]) _

theorem thinning_withoutEmptyBodies : Thinning withoutEmptyBodies where
  nil := rfl
  solid h := withoutEmptyBodies_cons_of_ne h.2
  comma h := .inl (withoutEmptyBodies_cons_of_ne (by simp [h]))
  body ht hu := .inr (withoutEmptyBodies_body ht hu)
  opening _ hu := withoutEmptyBodies_opening hu

theorem Closed.cons {tokens : List Token} (h : Closed tokens) (t : Token) :
    Closed (t :: tokens) := by
  cases tokens with
  | nil => exact absurd h not_closed_nil
  | cons u rest => exact closed_cons_cons.mpr h

theorem Closed.tail {t : Token} {tokens : List Token} (h : Closed (t :: tokens))
    (ht : t.kind ≠ .endOfText) : Closed tokens := by
  cases tokens with
  | nil => exact absurd (closed_singleton.mp h) ht
  | cons u rest => exact closed_cons_cons.mp h

end Token

open Token Phrase

/-- No token of the construct can be left out. -/
def Phrase.Kept {α : Type} (drop : List Token → List Token) (p : Phrase α) : Prop :=
  ∀ run a, p run a → ∀ rest, drop (run ++ rest) = run ++ drop rest

/-- What is left of a phrase of the construct, whatever comes after it, is one that says the
same. -/
def Phrase.Thinned {α : Type} (drop : List Token → List Token) (p : Phrase α) : Prop :=
  ∀ run a, p run a → ∃ run', p run' a ∧ ∀ rest, drop (run ++ rest) = run' ++ drop rest

/-- A member begins with its name or with a marker. -/
theorem MemberPhrase.exists_cons {run : List Token} {m : Member} (h : MemberPhrase run m) :
    ∃ t rest, run = t :: rest ∧ t.kind ≠ .rightBrace := by
  cases h with
  | unmarked hname _ => exact ⟨_, _, rfl, by simp [hname]⟩
  | marked hmark _ _ => exact ⟨_, _, rfl, by simp [hmark]⟩

namespace Phrase

variable {α : Type} {drop : List Token → List Token} {p : Phrase α}

theorem Kept.maybe (h : Kept drop p) : Kept drop (Maybe p) := by
  rintro run a (_ | ha) rest
  · rfl
  · exact h _ _ ha rest

theorem Thinned.many (h : Thinned drop p) : Thinned drop (Many p) := by
  intro run as has
  induction has with
  | nil => exact ⟨[], .nil, fun rest => rfl⟩
  | cons ha _ ih =>
      obtain ⟨run', ha', hrun⟩ := h _ _ ha
      obtain ⟨more', has', hmore⟩ := ih
      refine ⟨run' ++ more', .cons ha' has', fun rest => ?_⟩
      rw [List.append_assoc, hrun, hmore, List.append_assoc]

end Phrase

namespace Token.Thinning

variable {α : Type} {drop : List Token → List Token} {name : String}
  {visibility : Option Visibility} {place : Place}

theorem keep (h : Thinning drop) {t : Token} {kind : Kind} (ht : t.kind = kind)
    (hkind : kind.Solid) (rest : List Token) : drop (t :: rest) = t :: drop rest :=
  h.solid (ht ▸ hkind) rest

theorem kept_textOf (h : Thinning drop) {kind : Kind} (hkind : kind.Solid) :
    Kept drop (TextOf kind) := by
  rintro run text ⟨ht⟩ rest
  exact h.keep ht hkind rest

theorem kept_led (h : Thinning drop) {kind : Kind} (hkind : kind.Solid) {p : Phrase α}
    (hp : Kept drop p) : Kept drop (Led kind p) := by
  rintro run a ⟨ht, ha⟩ rest
  rw [List.cons_append, h.keep ht hkind, hp _ _ ha, List.cons_append]

theorem kept_type (h : Thinning drop) : Kept drop TypePhrase := by
  rintro run text (hname | ⟨hname, hopening, hclosing⟩) rest
  · exact h.keep hname (by decide) rest
  · simp only [List.cons_append, List.nil_append]
    rw [h.keep hname (by decide), h.keep hopening (by decide), h.keep hclosing (by decide)]

theorem kept_ascription (h : Thinning drop) : Kept drop AscriptionPhrase :=
  (h.kept_led (by decide) h.kept_type).maybe

theorem kept_default (h : Thinning drop) : Kept drop DefaultPhrase :=
  (h.kept_led (by decide) (h.kept_textOf (by decide))).maybe

theorem kept_fieldRest (h : Thinning drop) :
    Kept drop (FieldRestPhrase name visibility place) := by
  rintro run f ⟨htype, hdefault⟩ rest
  rw [List.append_assoc, h.kept_ascription _ _ htype, h.kept_default _ _ hdefault,
    List.append_assoc]

/-- The comma after a parameter may go. -/
theorem thinned_parameter (h : Thinning drop) : Thinned drop ParameterPhrase := by
  rintro _ f @⟨name, run, _, _, _, hname, hrest, hcomma⟩
  have hfield (rest : List Token) : drop (name :: (run ++ rest)) = name :: (run ++ drop rest) := by
    rw [h.keep hname (by decide), h.kept_fieldRest _ _ hrest]
  cases hcomma with
  | missing => exact ⟨_, .intro hname hrest .missing, fun rest => by simpa using hfield rest⟩
  | given hcomma =>
      obtain ⟨hkind⟩ := hcomma
      rcases h.comma hkind with hkeep | hgone
      · refine ⟨_, .intro hname hrest (.given (.intro hkind)), fun rest => ?_⟩
        simp [hfield, hkeep]
      · refine ⟨_, .intro hname hrest .missing, fun rest => ?_⟩
        simp [hfield, hgone]

theorem thinned_methodRest (h : Thinning drop) :
    Thinned drop (MethodRestPhrase name visibility place) := by
  rintro _ m ⟨hopening, hparameters, hclosing, hreturn⟩
  obtain ⟨run', hparameters', hrun⟩ := h.thinned_parameter.many _ _ hparameters
  refine ⟨_, .intro hopening hparameters' hclosing hreturn, fun rest => ?_⟩
  simp only [List.cons_append, List.append_assoc]
  rw [h.keep hopening (by decide), hrun, h.keep hclosing (by decide),
    h.kept_ascription _ _ hreturn]

theorem thinned_memberRest (h : Thinning drop) :
    Thinned drop (MemberRestPhrase name visibility place) := by
  rintro run m (hf | hm)
  · exact ⟨run, .field hf, h.kept_fieldRest _ _ hf⟩
  · obtain ⟨run', hm', hrun⟩ := h.thinned_methodRest _ _ hm
    exact ⟨run', .method hm', hrun⟩

theorem thinned_member (h : Thinning drop) : Thinned drop MemberPhrase := by
  rintro _ m (⟨hname, hrest⟩ | ⟨hmark, hname, hrest⟩)
  · obtain ⟨run', hrest', hrun⟩ := h.thinned_memberRest _ _ hrest
    refine ⟨_, .unmarked hname hrest', fun rest => ?_⟩
    rw [List.cons_append, h.keep hname (by decide), hrun, List.cons_append]
  · obtain ⟨run', hrest', hrun⟩ := h.thinned_memberRest _ _ hrest
    refine ⟨_, .marked hmark hname hrest', fun rest => ?_⟩
    simp only [List.cons_append]
    rw [h.keep hmark ⟨nofun, nofun⟩, h.keep hname (by decide), hrun]

/-- A brace that opens a body with members stays. -/
theorem cons_members (h : Thinning drop) {opening : Token} (hopening : opening.kind = .leftBrace)
    {run : List Token} {m : Member} {members : List Member}
    (hmembers : Many MemberPhrase run (m :: members)) (rest : List Token) :
    drop (opening :: (run ++ rest)) = opening :: drop (run ++ rest) := by
  cases hmembers with
  | cons hm _ =>
      obtain ⟨t, more, rfl, ht⟩ := hm.exists_cons
      exact h.opening hopening ht _

/-- A body without members may go. -/
theorem thinned_class (h : Thinning drop) : Thinned drop ClassPhrase := by
  intro run c hc
  cases hc with
  | bare hword hname =>
      refine ⟨_, .bare hword hname, fun rest => ?_⟩
      simp only [List.cons_append, List.nil_append]
      rw [h.keep hword (by decide), h.keep hname (by decide)]
  | @body word name opening closing inside members hword hname hopening hmembers hclosing =>
      obtain ⟨run', hmembers', hrun⟩ := h.thinned_member.many _ _ hmembers
      cases members with
      | nil =>
          cases hmembers
          rcases h.body hopening hclosing with hkeep | hgone
          · refine ⟨_, .body hword hname hopening .nil hclosing, fun rest => ?_⟩
            simp only [List.cons_append, List.nil_append]
            rw [h.keep hword (by decide), h.keep hname (by decide), hkeep]
          · refine ⟨_, .bare hword hname, fun rest => ?_⟩
            simp only [List.cons_append, List.nil_append]
            rw [h.keep hword (by decide), h.keep hname (by decide), hgone]
      | cons m members =>
          refine ⟨_, .body hword hname hopening hmembers' hclosing, fun rest => ?_⟩
          simp only [List.cons_append, List.append_assoc, List.nil_append]
          rw [h.keep hword (by decide), h.keep hname (by decide), h.cons_members hopening hmembers,
            hrun, h.keep hclosing (by decide)]

theorem kept_interface (h : Thinning drop) : Kept drop InterfacePhrase := by
  rintro _ i ⟨hword, hname⟩ rest
  simp only [List.cons_append, List.nil_append]
  rw [h.keep hword (by decide), h.keep hname (by decide)]

theorem kept_relationship (h : Thinning drop) : Kept drop RelationshipPhrase := by
  rintro _ r ⟨hsource, hleft, hoperator, hright, htarget, hmiddle⟩ rest
  have hlabel : Kept drop (TextOf .quotation) := h.kept_textOf (by decide)
  simp only [List.cons_append, List.append_assoc]
  rw [h.keep hsource (by decide), hlabel.maybe _ _ hleft, h.keep hoperator ⟨nofun, nofun⟩,
    hlabel.maybe _ _ hright, h.keep htarget (by decide),
    (h.kept_led (by decide) hlabel).maybe _ _ hmiddle]

theorem thinned_entity (h : Thinning drop) : Thinned drop EntityPhrase := by
  rintro run e (hc | hi | hr)
  · obtain ⟨run', hc', hrun⟩ := h.thinned_class _ _ hc
    exact ⟨run', .classDeclaration hc', hrun⟩
  · exact ⟨run, .interfaceDeclaration hi, h.kept_interface _ _ hi⟩
  · exact ⟨run, .relationship hr, h.kept_relationship _ _ hr⟩

theorem thinned_document (h : Thinning drop) : Thinned drop DocumentPhrase := by
  rintro run d ⟨hentities⟩
  obtain ⟨run', hentities', hrun⟩ := h.thinned_entity.many _ _ hentities
  exact ⟨run', .intro hentities', hrun⟩

/-- What is left of a phrase does not depend on what comes after it. -/
theorem phrase_and_append (h : Thinning drop) {p : Phrase α} (hp : Thinned drop p)
    {run : List Token} {a : α} (ha : p run a) :
    p (drop run) a ∧ ∀ rest, drop (run ++ rest) = drop run ++ drop rest := by
  obtain ⟨run', ha', hrun⟩ := hp _ _ ha
  have hdrop : drop run = run' := by simpa [h.nil] using hrun []
  subst hdrop
  exact ⟨ha', hrun⟩

/-- The last token of a closed sequence is never left out. -/
theorem closed (h : Thinning drop) : ∀ {tokens : List Token}, Closed tokens → Closed (drop tokens)
  | [], hclosed => absurd hclosed not_closed_nil
  | [t], hclosed => by
      have ht : t.kind = .endOfText := closed_singleton.mp hclosed
      rw [h.keep ht (by decide), h.nil]
      exact hclosed
  | t :: u :: rest, hclosed => by
      have htail : Closed (u :: rest) := closed_cons_cons.mp hclosed
      have hmore : Closed (drop (u :: rest)) := h.closed htail
      by_cases hcomma : t.kind = .comma
      · rcases h.comma hcomma with hkeep | hgone
        · rw [hkeep]
          exact hmore.cons t
        · rwa [hgone]
      by_cases hopening : t.kind = .leftBrace
      · by_cases hclosing : u.kind = .rightBrace
        · -- Both braces may go, so what follows them has to be closed by itself.
          have hrest : Closed (drop rest) := h.closed (htail.tail (by simp [hclosing]))
          rcases h.body hopening hclosing with hkeep | hgone
          · rw [hkeep]
            exact (hrest.cons u).cons t
          · rwa [hgone]
        · rw [h.opening hopening hclosing]
          exact hmore.cons t
      · rw [h.solid ⟨hcomma, hopening⟩]
        exact hmore.cons t

/-- A sequence that is read is read as the same diagram when tokens are left out anywhere in it. -/
theorem ofTokens_eq_ok (h : Thinning drop) {tokens : List Token} {d : Diagram}
    (hd : Diagram.ofTokens tokens = .ok d) : Diagram.ofTokens (drop tokens) = .ok d := by
  have closed : Closed tokens := Diagram.closed_of_ofTokens_eq_ok hd
  obtain ⟨last, rest, htokens, hlast⟩ := Token.exists_end closed
  obtain ⟨hd', happend⟩ :=
    h.phrase_and_append h.thinned_document ((Diagram.ofTokens_eq_ok_iff_document closed).mp hd)
  have hdrop : drop tokens = drop (beforeEnd tokens) ++ last :: drop rest := by
    rw [← h.keep hlast (by decide), ← happend, ← htokens]
  have hclosed := h.closed closed
  rw [hdrop] at hclosed ⊢
  exact Diagram.ofTokens_of_document hd' hlast hclosed

end Token.Thinning

end ClassDiagram
