import ClassDiagram.Proofs.Trees.Moved
import Mathlib.Data.List.Forall2

/-!
# The declarations of a diagram

The declarations of a diagram are its entities, the members of its classes and the parameters of its
methods.  They are listed in the order of the text, each before those it holds.  In the tokens of a
document every one of them is a phrase, and these phrases begin in the order of the list.
-/

namespace ClassDiagram

/-- A declaration of any kind; parameters are fields. -/
inductive Declaration where
  | entity (e : Entity)
  | member (m : Member)
  deriving DecidableEq, Repr

def Entity.place : Entity → Place
  | classDeclaration c => c.place
  | interfaceDeclaration i => i.place
  | relationship r => r.place

namespace Member

def name : Member → String
  | field f => f.name
  | method m => m.name

def visibility : Member → Option Visibility
  | field f => f.visibility
  | method m => m.visibility

def place : Member → Place
  | field f => f.place
  | method m => m.place

end Member

/-- A member, and the parameters that it has. -/
def Member.declarations : Member → List Declaration
  | field f => [.member (.field f)]
  | method m => .member (.method m) :: m.parameters.map fun f => .member (.field f)

/-- An entity, and what it declares inside. -/
def Entity.declarations : Entity → List Declaration
  | classDeclaration c => .entity (.classDeclaration c) :: c.members.flatMap Member.declarations
  | interfaceDeclaration i => [.entity (.interfaceDeclaration i)]
  | relationship r => [.entity (.relationship r)]

/-- All declarations of the diagram, each before those inside it. -/
def Diagram.declarations (d : Diagram) : List Declaration :=
  d.entities.flatMap Entity.declarations

namespace Declaration

def place : Declaration → Place
  | entity e => e.place
  | member m => m.place

/-- What the text of the declaration begins with. -/
def opening : Declaration → String
  | entity (.classDeclaration _) => "class"
  | entity (.interfaceDeclaration _) => "interface"
  | entity (.relationship r) => r.source
  | member m =>
      match m.visibility with
      | some v => String.singleton v.mark
      | none => m.name

def moved (f : Place → Place) : Declaration → Declaration
  | entity e => .entity (e.moved f)
  | member m => .member (m.moved f)

theorem place_moved (f : Place → Place) (x : Declaration) : (x.moved f).place = f x.place := by
  rcases x with (_ | _ | _) | (_ | _) <;> rfl

end Declaration

section

variable (f : Place → Place)

theorem Member.declarations_moved (m : Member) :
    (m.moved f).declarations = m.declarations.map (Declaration.moved f) := by
  cases m with
  | field d => rfl
  | method m => simp [moved, Method.moved, declarations, Declaration.moved]

theorem Entity.declarations_moved (e : Entity) :
    (e.moved f).declarations = e.declarations.map (Declaration.moved f) := by
  cases e with
  | classDeclaration c =>
      simp [moved, ClassDeclaration.moved, declarations, Declaration.moved, List.flatMap_map,
        List.map_flatMap, Member.declarations_moved]
  | interfaceDeclaration i => rfl
  | relationship r => rfl

theorem Diagram.declarations_moved (d : Diagram) :
    (d.moved f).declarations = d.declarations.map (Declaration.moved f) := by
  simp [moved, declarations, List.flatMap_map, List.map_flatMap, Entity.declarations_moved]

end

/-! ## Where declarations begin -/

/-- The phrases that say declarations. -/
inductive DeclarationPhrase : Phrase Declaration
  | entity {run : List Token} {e : Entity} (h : EntityPhrase run e) :
      DeclarationPhrase run (.entity e)
  | member {run : List Token} {m : Member} (h : MemberPhrase run m) :
      DeclarationPhrase run (.member m)
  | parameter {run : List Token} {f : Field} (h : ParameterPhrase run f) :
      DeclarationPhrase run (.member (.field f))

theorem DeclarationPhrase.moved {run : List Token} {x : Declaration} {f : Place → Place}
    (h : DeclarationPhrase run x) : DeclarationPhrase (run.map (Token.moved f)) (x.moved f) := by
  cases h with
  | entity h => exact .entity h.moved
  | member h => exact .member h.moved
  | parameter h => exact .parameter h.moved

/-- A phrase that says the declaration begins with the token at the index, and the declaration has
the place of this token. -/
def Opens (tokens : List Token) (x : Declaration) (i : Nat) : Prop :=
  ∃ t more, t :: more <+: tokens.drop i ∧ DeclarationPhrase (t :: more) x ∧ x.place = t.place

/-- Phrases that say the declarations begin at the indices, in this order. -/
structure Outline (tokens : List Token) (xs : List Declaration) (starts : List Nat) : Prop where
  increasing : starts.Pairwise (· < ·)
  opens : List.Forall₂ (Opens tokens) xs starts

namespace Opens

variable {tokens : List Token} {x : Declaration} {i : Nat}

theorem getElem? (h : Opens tokens x i) : ∃ t, tokens[i]? = some t ∧ x.place = t.place := by
  obtain ⟨t, more, ⟨rest, hrest⟩, -, hplace⟩ := h
  have hhead : (tokens.drop i).head? = some t := by rw [← hrest]; rfl
  exact ⟨t, by simpa using hhead, hplace⟩

theorem lt_length (h : Opens tokens x i) : i < tokens.length := by
  obtain ⟨t, ht, -⟩ := h.getElem?
  exact (List.getElem?_eq_some_iff.mp ht).1

theorem append (h : Opens tokens x i) (more : List Token) : Opens (tokens ++ more) x i := by
  have hle := Nat.le_of_lt h.lt_length
  obtain ⟨t, phrase, hbegins, hphrase, hplace⟩ := h
  refine ⟨t, phrase, ?_, hphrase, hplace⟩
  rw [List.drop_append_of_le_length hle]
  exact hbegins.trans (List.prefix_append _ more)

theorem behind (h : Opens tokens x i) (front : List Token) :
    Opens (front ++ tokens) x (front.length + i) := by
  obtain ⟨t, phrase, hbegins, hphrase, hplace⟩ := h
  exact ⟨t, phrase, by rwa [List.drop_length_add_append], hphrase, hplace⟩

theorem moved (h : Opens tokens x i) (f : Place → Place) :
    Opens (tokens.map (Token.moved f)) (x.moved f) i := by
  obtain ⟨t, phrase, hbegins, hphrase, hplace⟩ := h
  refine ⟨t.moved f, phrase.map (Token.moved f), ?_, hphrase.moved, ?_⟩
  · rw [← List.map_drop]
    exact hbegins.map (Token.moved f)
  · rw [x.place_moved, hplace]
    rfl

end Opens

namespace Outline

variable {tokens more : List Token} {xs ys : List Declaration} {starts starts' : List Nat}

theorem nil (tokens : List Token) : Outline tokens [] [] := ⟨.nil, .nil⟩

theorem exists_start {x : Declaration} (h : List.Forall₂ (Opens tokens) xs starts) (hx : x ∈ xs) :
    ∃ i ∈ starts, Opens tokens x i := by
  induction h with
  | nil => cases hx
  | @cons y i xs starts hfirst _ ih =>
      rcases List.mem_cons.mp hx with rfl | hx
      · exact ⟨i, List.mem_cons_self, hfirst⟩
      · obtain ⟨j, hj, hopens⟩ := ih hx
        exact ⟨j, List.mem_cons_of_mem i hj, hopens⟩

/-- Every declaration begins with some token. -/
theorem exists_token {x : Declaration} (h : Outline tokens xs starts) (hx : x ∈ xs) :
    ∃ t more, t ∈ tokens ∧ DeclarationPhrase (t :: more) x ∧ x.place = t.place := by
  obtain ⟨i, -, t, more, hbegins, hphrase, hplace⟩ := exists_start h.opens hx
  have hmem : t ∈ tokens.drop i := hbegins.subset List.mem_cons_self
  exact ⟨t, more, List.mem_of_mem_drop hmem, hphrase, hplace⟩

/-- The places of declarations are ordered as those of tokens are. -/
theorem pairwise_place {r : Place → Place → Prop} (h : Outline tokens xs starts)
    (htokens : tokens.Pairwise fun t u => r t.place u.place) :
    xs.Pairwise fun x y => r x.place y.place := by
  obtain ⟨hincreasing, hopens⟩ := h
  induction hopens with
  | nil => exact .nil
  | @cons x i xs starts hx hxs ih =>
      obtain ⟨hlt, hincreasing⟩ := List.pairwise_cons.mp hincreasing
      refine List.pairwise_cons.mpr ⟨fun y hy => ?_, ih hincreasing⟩
      obtain ⟨j, hj, hy⟩ := exists_start hxs hy
      obtain ⟨t, ht, hplace⟩ := hx.getElem?
      obtain ⟨u, hu, hplace'⟩ := hy.getElem?
      obtain ⟨hi, rfl⟩ := List.getElem?_eq_some_iff.mp ht
      obtain ⟨hj', rfl⟩ := List.getElem?_eq_some_iff.mp hu
      rw [hplace, hplace']
      exact List.pairwise_iff_getElem.mp htokens i j hi hj' (hlt j hj)

theorem lt_length (h : Outline tokens xs starts) : ∀ i ∈ starts, i < tokens.length := by
  have hopens := h.opens
  clear h
  induction hopens with
  | nil => simp
  | cons hx _ ih => exact List.forall_mem_cons.mpr ⟨hx.lt_length, ih⟩

theorem front (h : Outline tokens xs starts) (more : List Token) :
    Outline (tokens ++ more) xs starts :=
  ⟨h.increasing, h.opens.imp fun _ _ hx => hx.append more⟩

theorem behind (h : Outline tokens xs starts) (front : List Token) :
    Outline (front ++ tokens) xs (starts.map (front.length + ·)) where
  increasing := h.increasing.map _ fun _ _ hlt => Nat.add_lt_add_left hlt front.length
  opens := List.forall₂_map_right_iff.mpr (h.opens.imp fun _ _ hx => hx.behind front)

theorem append (h : Outline tokens xs starts) (h' : Outline more ys starts') :
    Outline (tokens ++ more) (xs ++ ys) (starts ++ starts'.map (tokens.length + ·)) where
  increasing := by
    refine List.pairwise_append.mpr ⟨h.increasing, (h'.behind tokens).increasing, ?_⟩
    intro i hi j hj
    obtain ⟨k, -, rfl⟩ := List.mem_map.mp hj
    have hlt := h.lt_length i hi
    omega
  opens := List.rel_append (h.front more).opens (h'.behind tokens).opens

/-- A declaration comes before those inside it, which begin behind its first token. -/
theorem cons {t : Token} {x : Declaration} (hx : DeclarationPhrase (t :: tokens) x)
    (hplace : x.place = t.place) (h : Outline tokens xs starts) :
    Outline (t :: tokens) (x :: xs) (0 :: starts.map (1 + ·)) where
  increasing := by
    refine List.pairwise_cons.mpr ⟨?_, (h.behind [t]).increasing⟩
    intro j hj
    obtain ⟨k, -, rfl⟩ := List.mem_map.mp hj
    omega
  opens := .cons ⟨t, tokens, List.prefix_rfl, hx, hplace⟩ (h.behind [t]).opens

theorem moved (h : Outline tokens xs starts) (f : Place → Place) :
    Outline (tokens.map (Token.moved f)) (xs.map (Declaration.moved f)) starts :=
  ⟨h.increasing, List.forall₂_map_left_iff.mpr (h.opens.imp fun _ _ hx => hx.moved f)⟩

end Outline

open Phrase

theorem Phrase.Many.exists_outline {α : Type} {p : Phrase α} {g : α → List Declaration}
    {run : List Token} {as : List α} (h : Many p run as)
    (hp : ∀ run a, p run a → ∃ starts, Outline run (g a) starts) :
    ∃ starts, Outline run (as.flatMap g) starts := by
  induction h with
  | nil => exact ⟨[], .nil []⟩
  | cons ha _ ih =>
      obtain ⟨starts, hfirst⟩ := hp _ _ ha
      obtain ⟨starts', hmore⟩ := ih
      exact ⟨_, hfirst.append hmore⟩

section

variable {run : List Token}

theorem ParameterPhrase.exists_outline {f : Field} (h : ParameterPhrase run f) :
    ∃ starts, Outline run [.member (.field f)] starts := by
  have hphrase := DeclarationPhrase.parameter h
  obtain ⟨hname, ⟨htype, hdefault⟩, hcomma⟩ := h
  exact ⟨_, .cons hphrase rfl (.nil _)⟩

/-- What follows the first token of a member outlines what is inside the member. -/
theorem MemberRestPhrase.exists_outline {name : String} {visibility : Option Visibility}
    {place : Place} {m : Member} (h : MemberRestPhrase name visibility place run m) :
    m.place = place ∧ ∃ inside starts, m.declarations = .member m :: inside ∧
      Outline run inside starts := by
  cases h with
  | field h =>
      obtain ⟨htype, hdefault⟩ := h
      exact ⟨rfl, [], [], rfl, .nil _⟩
  | method h =>
      obtain ⟨hopening, hparameters, hclosing, hreturn⟩ := h
      obtain ⟨starts, houtline⟩ := hparameters.exists_outline
        (g := fun f => [.member (.field f)]) fun _ _ hf => hf.exists_outline
      rw [← List.map_eq_flatMap] at houtline
      exact ⟨rfl, _, _, rfl, (houtline.behind [_]).front _⟩

theorem MemberPhrase.exists_outline {m : Member} (h : MemberPhrase run m) :
    ∃ starts, Outline run m.declarations starts := by
  have hphrase := DeclarationPhrase.member h
  cases h with
  | unmarked hname hrest =>
      obtain ⟨hplace, inside, starts, hlist, houtline⟩ := hrest.exists_outline
      rw [hlist]
      exact ⟨_, .cons hphrase hplace houtline⟩
  | marked hmark hname hrest =>
      obtain ⟨hplace, inside, starts, hlist, houtline⟩ := hrest.exists_outline
      rw [hlist]
      exact ⟨_, .cons hphrase hplace (houtline.behind [_])⟩

theorem EntityPhrase.exists_outline {e : Entity} (h : EntityPhrase run e) :
    ∃ starts, Outline run e.declarations starts := by
  have hphrase := DeclarationPhrase.entity h
  cases h with
  | classDeclaration h =>
      cases h with
      | bare hword hname => exact ⟨_, .cons hphrase rfl (.nil _)⟩
      | body hword hname hopening hmembers hclosing =>
          obtain ⟨starts, houtline⟩ :=
            hmembers.exists_outline (g := Member.declarations) fun _ _ hm => hm.exists_outline
          exact ⟨_, .cons hphrase rfl ((houtline.behind [_, _]).front [_])⟩
  | interfaceDeclaration h =>
      obtain ⟨hword, hname⟩ := h
      exact ⟨_, .cons hphrase rfl (.nil _)⟩
  | relationship h =>
      obtain ⟨hsource, hleft, hoperator, hright, htarget, hmiddle⟩ := h
      exact ⟨_, .cons hphrase rfl (.nil _)⟩

/-- The declarations of a document begin one after the other in its tokens. -/
theorem DocumentPhrase.exists_outline {d : Diagram} (h : DocumentPhrase run d) :
    ∃ starts, Outline run d.declarations starts := by
  obtain ⟨hentities⟩ := h
  exact hentities.exists_outline (g := Entity.declarations) fun _ _ he => he.exists_outline

end

end ClassDiagram
