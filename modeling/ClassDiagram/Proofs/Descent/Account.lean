import ClassDiagram.Diagram.Rules
import ClassDiagram.Proofs.Descent.Passage
import ClassDiagram.Proofs.Phrase

/-!
# What rules account for

A rule is sound for the phrases of a construct if its every outcome can be told in terms of them.
When it succeeds, the tokens it passed are a phrase that says what it read.  When it fails, the
tokens it passed begin some phrase, and it blames the token after them: nothing that was passed
could not have been completed.

Both halves are kept by the ways to combine rules, so they are shown together: that a failure comes
no later than it must needs that the rules before it read phrases.
-/

namespace ClassDiagram

namespace Phrase

variable {α β : Type}

/-- A single token of the given kind, which says itself. -/
inductive One (kind : Token.Kind) : Phrase Token
  | intro {t : Token} (ht : t.kind = kind) : One kind [t] t

/-- No tokens, which say `a`. -/
inductive Pure (a : α) : Phrase α
  | intro : Pure a [] a

/-- A phrase, and another one that may depend on what the first says. -/
inductive Then (p : Phrase α) (q : α → Phrase β) : Phrase β
  | intro {run more : List Token} {a : α} {b : β} (hp : p run a) (hq : q a more b) :
      Then p q (run ++ more) b

/-- A phrase that says `f a` instead of `a`. -/
inductive Map (f : α → β) (p : Phrase α) : Phrase β
  | intro {run : List Token} {a : α} (hp : p run a) : Map f p run (f a)

/-- The tokens passed from `c` on, and the outcome, are told by the phrases. -/
def Accounts (p : Phrase α) (c : Cursor) : Rule.Outcome α → Prop
  | .ok a c' => ∃ run, c.Passes run c' ∧ p run a
  | .error e c' => e.token = c'.current ∧ ∃ run, c.Passes run c' ∧ ∃ more a, p (run ++ more) a

end Phrase

open Phrase

namespace Rule

variable {α β : Type}

/-- Whatever the rule does is told by the phrases. -/
structure Sound (rule : Rule α) (p : Phrase α) : Prop where
  inhabited : ∃ run a, p run a
  accounts : ∀ c, Accounts p c (rule c)

namespace Sound

theorem of_ok {rule : Rule α} {p : Phrase α} (h : Sound rule p) {c c' : Cursor} {a : α}
    (hc : rule c = .ok a c') : ∃ run, c.Passes run c' ∧ p run a := by
  have := h.accounts c
  rwa [hc] at this

theorem of_error {rule : Rule α} {p : Phrase α} (h : Sound rule p) {c c' : Cursor}
    {e : ParseError} (hc : rule c = .error e c') :
    e.token = c'.current ∧ ∃ run, c.Passes run c' ∧ ∃ more a, p (run ++ more) a := by
  have := h.accounts c
  rwa [hc] at this

theorem mono {rule : Rule α} {p q : Phrase α} (h : Sound rule p)
    (hpq : ∀ run a, p run a → q run a) : Sound rule q where
  inhabited := by
    obtain ⟨run, a, hp⟩ := h.inhabited
    exact ⟨run, a, hpq run a hp⟩
  accounts := by
    intro c
    cases hc : rule c with
    | ok a c' =>
        obtain ⟨run, hrun, hp⟩ := h.of_ok hc
        exact ⟨run, hrun, hpq run a hp⟩
    | error e c' =>
        obtain ⟨he, run, hrun, more, a, hp⟩ := h.of_error hc
        exact ⟨he, run, hrun, more, a, hpq _ a hp⟩

/-- A rule that always does as some sound rule does is sound. -/
theorem of_agree {rule : Rule α} {p : Phrase α} (inhabited : ∃ run a, p run a)
    (h : ∀ c, ∃ rule', Sound rule' p ∧ rule c = rule' c) : Sound rule p where
  inhabited := inhabited
  accounts := by
    intro c
    obtain ⟨rule', hsound, heq⟩ := h c
    exact heq ▸ hsound.accounts c

theorem map {rule : Rule α} {p : Phrase α} (h : Sound rule p) (f : α → β) :
    Sound (f <$> rule) (Map f p) where
  inhabited := by
    obtain ⟨run, a, hp⟩ := h.inhabited
    exact ⟨run, f a, .intro hp⟩
  accounts := by
    intro c
    change Accounts _ c (EStateM.map f rule c)
    simp only [EStateM.map]
    split
    · rename_i a c' hc
      obtain ⟨run, hrun, hp⟩ := h.of_ok hc
      exact ⟨run, hrun, .intro hp⟩
    · rename_i e c' hc
      obtain ⟨he, run, hrun, more, a, hp⟩ := h.of_error hc
      exact ⟨he, run, hrun, more, f a, .intro hp⟩

theorem bind {rule : Rule α} {next : α → Rule β} {p : Phrase α} {q : α → Phrase β}
    (h : Sound rule p) (hnext : ∀ a, Sound (next a) (q a)) : Sound (rule >>= next) (Then p q) where
  inhabited := by
    obtain ⟨run, a, hp⟩ := h.inhabited
    obtain ⟨more, b, hq⟩ := (hnext a).inhabited
    exact ⟨run ++ more, b, .intro hp hq⟩
  accounts := by
    intro c
    change Accounts _ c (EStateM.bind rule next c)
    simp only [EStateM.bind]
    split
    · rename_i a c' hc
      obtain ⟨run, hrun, hp⟩ := h.of_ok hc
      cases hc' : next a c' with
      | ok b c'' =>
          obtain ⟨more, hmore, hq⟩ := (hnext a).of_ok hc'
          exact ⟨run ++ more, hrun.trans hmore, .intro hp hq⟩
      | error e c'' =>
          obtain ⟨he, more, hmore, rest, b, hq⟩ := (hnext a).of_error hc'
          refine ⟨he, run ++ more, hrun.trans hmore, rest, b, ?_⟩
          rw [List.append_assoc]
          exact .intro hp hq
    · rename_i e c' hc
      obtain ⟨he, run, hrun, more, a, hp⟩ := h.of_error hc
      -- The rest of the rule was not tried, but something could have been read by it.
      obtain ⟨rest, b, hq⟩ := (hnext a).inhabited
      refine ⟨he, run, hrun, more ++ rest, b, ?_⟩
      rw [← List.append_assoc]
      exact .intro hp hq

end Sound

theorem sound_pure (a : α) : Sound (pure a : Rule α) (Pure a) where
  inhabited := ⟨[], a, .intro⟩
  accounts := fun c => ⟨[], .refl c, .intro⟩

theorem sound_blame (problem : ParseProblem) {p : Phrase α} (inhabited : ∃ run a, p run a) :
    Sound (blame problem : Rule α) p where
  inhabited := inhabited
  accounts := fun c => ⟨rfl, [], .refl c, inhabited⟩

theorem sound_expect {kind : Token.Kind} (hkind : kind ≠ .endOfText) (what within : String) :
    Sound (expect kind what within) (One kind) where
  inhabited := ⟨[⟨kind, "", .nowhere⟩], ⟨kind, "", .nowhere⟩, .intro rfl⟩
  accounts := by
    intro c
    simp only [expect]
    split
    · next h => exact ⟨[c.current], .advance (h ▸ hkind), .intro h⟩
    · exact ⟨rfl, [], .refl c, [⟨kind, "", .nowhere⟩], ⟨kind, "", .nowhere⟩, .intro rfl⟩

theorem sound_text {kind : Token.Kind} (hkind : kind ≠ .endOfText) (what within : String) :
    Sound (Token.value <$> expect kind what within) (TextOf kind) := by
  refine ((sound_expect hkind what within).map Token.value).mono ?_
  rintro run a ⟨⟨ht⟩⟩
  exact .intro ht

theorem sound_accept {kind : Token.Kind} (hkind : kind ≠ .endOfText) :
    Sound (accept kind) (Maybe (One kind)) where
  inhabited := ⟨[], none, .missing⟩
  accounts := by
    intro c
    simp only [accept]
    split
    · next h => exact ⟨[c.current], .advance (h ▸ hkind), .given (.intro h)⟩
    · exact ⟨[], .refl c, .missing⟩

theorem sound_after {kind : Token.Kind} {rule : Rule α} {p : Phrase α}
    (hkind : kind ≠ .endOfText) (h : Sound rule p) :
    Sound (after kind rule) (Maybe (Led kind p)) where
  inhabited := ⟨[], none, .missing⟩
  accounts := by
    intro c
    simp only [after]
    split
    · next hc =>
      have hadvance : c.Passes [c.current] c.advance := .advance (hc ▸ hkind)
      have hmap := (h.map some).accounts c.advance
      cases hout : (some <$> rule) c.advance with
      | ok o c' =>
          rw [hout] at hmap
          obtain ⟨run, hrun, ⟨hp⟩⟩ := hmap
          exact ⟨c.current :: run, hadvance.trans hrun, .given (.intro hc hp)⟩
      | error e c' =>
          rw [hout] at hmap
          obtain ⟨he, run, hrun, more, _, ⟨hp⟩⟩ := hmap
          exact ⟨he, c.current :: run, hadvance.trans hrun, more, some _, .given (.intro hc hp)⟩
    · exact ⟨[], .refl c, .missing⟩

theorem sound_many {stop : Token.Kind → Bool} {rule : Rule α} {p : Phrase α}
    (advancing : Advancing rule) (h : Sound rule p) :
    Sound (many stop rule advancing) (Many p) where
  inhabited := ⟨[], [], .nil⟩
  accounts := by
    intro c
    fun_induction many stop rule advancing c with
    | case1 c _ => exact ⟨[], .refl c, .nil⟩
    | case2 c _ e c' hc =>
        obtain ⟨he, run, hrun, more, a, hp⟩ := h.of_error hc
        refine ⟨he, run, hrun, more, [a], ?_⟩
        rw [← List.append_nil (run ++ more)]
        exact .cons hp .nil
    | case3 c _ a c' hc _ e c'' hmany ih =>
        obtain ⟨run, hrun, hp⟩ := h.of_ok hc
        rw [hmany] at ih
        obtain ⟨he, run', hrun', more, as, hps⟩ := ih
        refine ⟨he, run ++ run', hrun.trans hrun', more, a :: as, ?_⟩
        rw [List.append_assoc]
        exact .cons hp hps
    | case4 c _ a c' hc _ as c'' hmany ih =>
        obtain ⟨run, hrun, hp⟩ := h.of_ok hc
        rw [hmany] at ih
        obtain ⟨run', hrun', hps⟩ := ih
        exact ⟨run ++ run', hrun.trans hrun', .cons hp hps⟩

end Rule

end ClassDiagram
