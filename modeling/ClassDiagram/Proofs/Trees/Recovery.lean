import ClassDiagram.Proofs.Trees.Linear
import ClassDiagram.Proofs.Trees.Thinning

/-!
# What a tree keeps of its tokens

A document of lexical tokens says a well-formed diagram, and it is the plain run of that diagram,
once its commas, its empty bodies and its places are gone.  So a tree keeps every other token.
-/

namespace ClassDiagram

namespace Token

/-- The token can be spelled and is no comma. -/
structure Plain (t : Token) : Prop where
  lexical : t.Lexical
  ne_comma : t.kind ≠ .comma

end Token

open Token Phrase

namespace Phrase

variable {α : Type} {p : Phrase α} {Sound : α → Prop} {tokens : α → List Token}

/-- What is left of a list when tokens are left out is made of what is left of its items. -/
theorem Many.linear {run : List Token} {as : List α} (h : Many p run as)
    (hrun : ∀ t ∈ run, t.Plain) (drop : List Token → List Token) (hnil : drop [] = [])
    (happend : ∀ run a, p run a → ∀ rest, drop (run ++ rest) = drop run ++ drop rest)
    (hp : ∀ run a, p run a → (∀ t ∈ run, t.Plain) →
      Sound a ∧ (drop run).map Token.unplaced = tokens a) :
    (∀ a ∈ as, Sound a) ∧ (drop run).map Token.unplaced = as.flatMap tokens := by
  induction h with
  | nil => exact ⟨by simp, by rw [hnil]; rfl⟩
  | cons ha _ ih =>
      obtain ⟨hfirst, hmore⟩ := List.forall_mem_append.mp hrun
      obtain ⟨hsound, htokens⟩ := hp _ _ ha hfirst
      obtain ⟨hsounds, hflat⟩ := ih hmore
      refine ⟨List.forall_mem_cons.mpr ⟨hsound, hsounds⟩, ?_⟩
      rw [happend _ _ ha, List.map_append, htokens, hflat, List.flatMap_cons]

end Phrase

section

variable {name : String} {visibility : Option Visibility} {place : Place} {run : List Token}

theorem FieldRestPhrase.linear {f : Field} (h : FieldRestPhrase name visibility place run f)
    (hname : IsName name) (hrun : ∀ t ∈ run, t.Plain) :
    f.WellFormed ∧ head visibility name ++ run.map Token.unplaced = f.tokens := by
  obtain ⟨htype, hdefault⟩ := h
  obtain ⟨hfirst, hmore⟩ := List.forall_mem_append.mp hrun
  obtain ⟨hvalueType, htypes⟩ := linear_ascription.of_phrase htype fun t ht => (hfirst t ht).lexical
  obtain ⟨hvalue, hdefaults⟩ := linear_default.of_phrase hdefault fun t ht => (hmore t ht).lexical
  refine ⟨⟨hname, hvalueType, hvalue⟩, ?_⟩
  rw [List.map_append, htypes, hdefaults]
  rfl

/-- Without its comma, a parameter is the plain run of a field that has no visibility. -/
theorem ParameterPhrase.linear {f : Field} (h : ParameterPhrase run f)
    (hrun : ∀ t ∈ run, t.Plain) :
    (f.WellFormed ∧ f.visibility = none) ∧ run.map Token.unplaced = f.tokens := by
  obtain ⟨hname, hrest, hcomma⟩ := h
  cases hcomma with
  | given hcomma =>
      obtain ⟨hkind⟩ := hcomma
      exact absurd hkind (hrun _ (by simp)).ne_comma
  | missing =>
      rw [List.append_nil] at hrun ⊢
      obtain ⟨hfirst, hmore⟩ := List.forall_mem_cons.mp hrun
      obtain ⟨hwell, htokens⟩ := hrest.linear (hfirst.lexical.isName hname) hmore
      have hvisibility : f.visibility = none := by
        obtain ⟨-, -⟩ := hrest
        rfl
      refine ⟨⟨hwell, hvisibility⟩, ?_⟩
      rw [List.map_cons, unplaced_of_kind hname, ← htokens]
      rfl

theorem MethodRestPhrase.linear {m : Method} (h : MethodRestPhrase name visibility place run m)
    (hname : IsName name) (hrun : ∀ t ∈ run, t.Plain) :
    m.WellFormed ∧ head visibility name ++ run.map Token.unplaced = m.tokens := by
  obtain ⟨hopening, hparameters, hclosing, hreturn⟩ := h
  simp only [List.cons_append, List.forall_mem_cons, List.forall_mem_append] at hrun
  obtain ⟨h₁, hinside, h₂, hafter⟩ := hrun
  obtain ⟨hwell, hflat⟩ := hparameters.linear hinside id rfl (fun _ _ _ _ => rfl)
    fun _ _ => ParameterPhrase.linear
  obtain ⟨htype, htypes⟩ := linear_ascription.of_phrase hreturn fun t ht => (hafter t ht).lexical
  refine ⟨⟨hname, hwell, htype⟩, ?_⟩
  rw [List.map_append, List.map_cons, List.map_cons, h₁.lexical.unplaced_eq hopening (by decide),
    h₂.lexical.unplaced_eq hclosing (by decide), htypes]
  rw [id_eq] at hflat
  rw [hflat]
  rfl

theorem MemberRestPhrase.linear {m : Member} (h : MemberRestPhrase name visibility place run m)
    (hname : IsName name) (hrun : ∀ t ∈ run, t.Plain) :
    m.WellFormed ∧ head visibility name ++ run.map Token.unplaced = m.tokens := by
  cases h with
  | field h => exact h.linear hname hrun
  | method h => exact h.linear hname hrun

theorem MemberPhrase.linear {m : Member} (h : MemberPhrase run m) (hrun : ∀ t ∈ run, t.Plain) :
    m.WellFormed ∧ run.map Token.unplaced = m.tokens := by
  cases h with
  | unmarked hname hrest =>
      obtain ⟨hfirst, hmore⟩ := List.forall_mem_cons.mp hrun
      obtain ⟨hwell, htokens⟩ := hrest.linear (hfirst.lexical.isName hname) hmore
      refine ⟨hwell, ?_⟩
      rw [List.map_cons, unplaced_of_kind hname, ← htokens]
      rfl
  | marked hmark hname hrest =>
      simp only [List.forall_mem_cons] at hrun
      obtain ⟨hfirst, hsecond, hmore⟩ := hrun
      obtain ⟨hwell, htokens⟩ := hrest.linear (hsecond.lexical.isName hname) hmore
      refine ⟨hwell, ?_⟩
      rw [List.map_cons, List.map_cons, unplaced_of_kind hname,
        hfirst.lexical.unplaced_eq hmark (Kind.spelling_marker_ne _), ← htokens]
      rfl

/-- What is left of a body is nothing, or the plain runs of its members between braces. -/
theorem Phrase.Many.linear_body {members : List Member} {opening closing : Token}
    (h : Many MemberPhrase run members) (hopening : opening.kind = .leftBrace)
    (hclosing : closing.kind = .rightBrace) (hrun : ∀ t ∈ opening :: run ++ [closing], t.Plain) :
    (∀ m ∈ members, m.WellFormed) ∧
      (withoutEmptyBodies (opening :: run ++ [closing])).map Token.unplaced =
        Member.body members := by
  have hthin := thinning_withoutEmptyBodies
  simp only [List.cons_append, List.forall_mem_cons, List.forall_mem_append] at hrun ⊢
  obtain ⟨h₁, hinside, h₂, -⟩ := hrun
  obtain ⟨hmembers, happend⟩ := hthin.phrase_and_append hthin.thinned_member.many h
  have hplain : ∀ t ∈ withoutEmptyBodies run, t.Plain :=
    fun t ht => hinside t ((withoutEmptyBodies_sublist run).subset ht)
  obtain ⟨hwell, hflat⟩ := hmembers.linear hplain id rfl (fun _ _ _ _ => rfl)
    fun _ _ => MemberPhrase.linear
  refine ⟨hwell, ?_⟩
  cases members with
  | nil =>
      cases h
      rw [List.nil_append, withoutEmptyBodies_body hopening hclosing]
      rfl
  | cons m members =>
      rw [hthin.cons_members hopening h, happend, List.map_cons, List.map_append,
        h₁.lexical.unplaced_eq hopening (by decide)]
      rw [id_eq] at hflat
      rw [hflat, hthin.keep hclosing (by decide), List.map_cons,
        h₂.lexical.unplaced_eq hclosing (by decide)]
      rfl

/-- Without its body if that is empty, a class is the plain run of its declaration. -/
theorem ClassPhrase.linear {c : ClassDeclaration} (h : ClassPhrase run c)
    (hrun : ∀ t ∈ run, t.Plain) :
    c.WellFormed ∧ (withoutEmptyBodies run).map Token.unplaced = c.tokens := by
  have hthin := thinning_withoutEmptyBodies
  cases h with
  | bare hword hname =>
      simp only [List.forall_mem_cons] at hrun
      obtain ⟨h₁, h₂, -⟩ := hrun
      refine ⟨⟨h₂.lexical.isName hname, by simp⟩, ?_⟩
      rw [hthin.keep hword (by decide), hthin.keep hname (by decide), List.map_cons, List.map_cons,
        h₁.lexical.unplaced_eq hword (by decide), unplaced_of_kind hname]
      rfl
  | body hword hname hopening hmembers hclosing =>
      obtain ⟨h₁, hmore⟩ := List.forall_mem_cons.mp hrun
      obtain ⟨h₂, hbody⟩ := List.forall_mem_cons.mp hmore
      obtain ⟨hwell, htokens⟩ := hmembers.linear_body hopening hclosing hbody
      refine ⟨⟨h₂.lexical.isName hname, hwell⟩, ?_⟩
      simp only [List.cons_append] at htokens ⊢
      rw [hthin.keep hword (by decide), hthin.keep hname (by decide), List.map_cons, List.map_cons,
        h₁.lexical.unplaced_eq hword (by decide), unplaced_of_kind hname, htokens]
      rfl

theorem InterfacePhrase.linear {i : InterfaceDeclaration} (h : InterfacePhrase run i)
    (hrun : ∀ t ∈ run, t.Plain) : IsName i.name ∧ run.map Token.unplaced = i.tokens := by
  obtain ⟨hword, hname⟩ := h
  simp only [List.forall_mem_cons] at hrun
  obtain ⟨h₁, h₂, -⟩ := hrun
  refine ⟨h₂.lexical.isName hname, ?_⟩
  rw [List.map_cons, List.map_singleton, h₁.lexical.unplaced_eq hword (by decide),
    unplaced_of_kind hname]
  rfl

theorem RelationshipPhrase.linear {r : Relationship} (h : RelationshipPhrase run r)
    (hrun : ∀ t ∈ run, t.Plain) : r.WellFormed ∧ run.map Token.unplaced = r.tokens := by
  obtain ⟨hsource, hleft, hoperator, hright, htarget, hmiddle⟩ := h
  simp only [List.cons_append, List.forall_mem_cons, List.forall_mem_append] at hrun
  obtain ⟨h₁, ⟨hrunLeft, h₂, hrunRight⟩, h₃, hrunMiddle⟩ := hrun
  have hlabel := linear_label.maybe
  have hleft' := (hlabel.of_phrase hleft fun t ht => (hrunLeft t ht).lexical).2
  have hright' := (hlabel.of_phrase hright fun t ht => (hrunRight t ht).lexical).2
  have hmiddle' := ((linear_label.led (by decide)).maybe.of_phrase hmiddle
    fun t ht => (hrunMiddle t ht).lexical).2
  refine ⟨⟨h₁.lexical.isName hsource, h₃.lexical.isName htarget,
    h₂.lexical.exists_operator hoperator, rfl⟩, ?_⟩
  simp only [List.map_cons, List.map_append]
  rw [unplaced_of_kind hsource, hleft', unplaced_of_kind hoperator, hright',
    unplaced_of_kind htarget, hmiddle']
  rfl

theorem EntityPhrase.linear {e : Entity} (h : EntityPhrase run e) (hrun : ∀ t ∈ run, t.Plain) :
    e.WellFormed ∧ (withoutEmptyBodies run).map Token.unplaced = e.tokens := by
  have hthin := thinning_withoutEmptyBodies
  cases h with
  | classDeclaration h => exact h.linear hrun
  | interfaceDeclaration h =>
      have hkept : withoutEmptyBodies run = run := by
        simpa [hthin.nil] using hthin.kept_interface _ _ h []
      rw [hkept]
      exact h.linear hrun
  | relationship h =>
      have hkept : withoutEmptyBodies run = run := by
        simpa [hthin.nil] using hthin.kept_relationship _ _ h []
      rw [hkept]
      exact h.linear hrun

/-- A document of lexical tokens says a well-formed diagram.  Without commas, empty bodies and
places, it is the plain run of that diagram. -/
theorem DocumentPhrase.linear {d : Diagram} (h : DocumentPhrase run d)
    (hrun : ∀ t ∈ run, t.Lexical) :
    d.WellFormed ∧ (withoutEmptyBodies (withoutCommas run)).map Token.unplaced = d.tokens := by
  have hcommas := thinning_withoutCommas
  have hbodies := thinning_withoutEmptyBodies
  -- Without its commas it is still a document, and then every parameter is plain.
  obtain ⟨h', -⟩ := hcommas.phrase_and_append hcommas.thinned_document h
  have hplain : ∀ t ∈ withoutCommas run, t.Plain := by
    intro t ht
    obtain ⟨hmem, hkind⟩ := List.mem_filter.mp ht
    exact ⟨hrun t hmem, by simpa using hkind⟩
  obtain ⟨hentities⟩ := h'
  obtain ⟨hwell, hflat⟩ := hentities.linear hplain withoutEmptyBodies rfl
    (fun _ _ he => (hbodies.phrase_and_append hbodies.thinned_entity he).2)
    fun _ _ => EntityPhrase.linear
  exact ⟨⟨rfl, hwell⟩, hflat⟩

end

end ClassDiagram
