import ClassDiagram.Grammar.Document

/-!
# Steps of the automaton

The automaton takes lexemes one at a time.  A run over a whole text is a number of steps, and then
one of three ends: a lexeme that is refused, the point where lexing is stuck, or the end of the
text.  Which terminals a state takes does not depend on what the lexemes carry.
-/

namespace ClassDiagram.Grammar.State

/-- The state after a lexeme, if it may come next. -/
def step? (s : State) (x : Lexeme) : Option State :=
  (s.shift? x.terminal).map fun next => next x.content x.place

/-- The state after a run of lexemes, if each of them may come next. -/
def steps? : State → List Lexeme → Option State
  | s, [] => some s
  | s, x :: more => (s.step? x).bind fun s' => s'.steps? more

@[simp] theorem steps?_nil (s : State) : s.steps? [] = some s := rfl

@[simp] theorem steps?_cons (s : State) (x : Lexeme) (more : List Lexeme) :
    s.steps? (x :: more) = (s.step? x).bind fun s' => s'.steps? more := rfl

theorem steps?_append (s : State) (xs ys : List Lexeme) :
    s.steps? (xs ++ ys) = (s.steps? xs).bind fun s' => s'.steps? ys := by
  induction xs generalizing s with
  | nil => rfl
  | cons x xs ih =>
      simp only [List.cons_append, steps?_cons, ih, Option.bind_assoc]

/-- A run of lexemes that is not taken has a first lexeme that is refused. -/
theorem exists_refused {s : State} {xs : List Lexeme} (h : s.steps? xs = none) :
    ∃ before x after s', xs = before ++ x :: after ∧ s.steps? before = some s' ∧
      s'.step? x = none := by
  induction xs generalizing s with
  | nil => cases h
  | cons x xs ih =>
      cases hx : s.step? x with
      | none => exact ⟨[], x, xs, s, rfl, rfl, hx⟩
      | some s₁ =>
          rw [steps?_cons, hx] at h
          obtain ⟨before, y, after, s', rfl, hbefore, hy⟩ := ih h
          exact ⟨x :: before, y, after, s', rfl, by simpa [hx] using hbefore, hy⟩

section Run

variable {text : List Char} {stuck : Option Point} {previous : Option Lexeme} {s s' : State}

theorem run_of_step? {x : Lexeme} {more : List Lexeme} (h : s.step? x = some s') :
    run text stuck (x :: more) previous s = run text stuck more (some x) s' := by
  obtain ⟨next, hnext, rfl⟩ := Option.map_eq_some_iff.mp h
  rw [run, hnext]

theorem run_of_refused {x : Lexeme} {more : List Lexeme} (h : s.step? x = none) :
    run text stuck (x :: more) previous s =
      .error (.unexpectedLexeme x (s.expected x.terminal)) := by
  rw [run, Option.map_eq_none_iff.mp h]

/-- Lexemes that are taken lead to the state after them; the last one is remembered. -/
theorem run_of_steps? {xs more : List Lexeme} (h : s.steps? xs = some s') :
    run text stuck (xs ++ more) previous s = run text stuck more (xs.getLast?.or previous) s' := by
  induction xs generalizing s previous with
  | nil =>
      cases h
      rfl
  | cons x xs ih =>
      obtain ⟨s₁, hx, hxs⟩ := Option.bind_eq_some_iff.mp h
      rw [List.cons_append, run_of_step? hx, ih hxs, List.getLast?_cons]
      cases xs.getLast? with
      | none => rfl
      | some y => rfl

end Run

/-- Whatever lexemes of these terminals carry, the state takes them one after the other and gets to
a state of the given kind. -/
def Takes : State → List Terminal → (State → Prop) → Prop
  | s, [], goal => goal s
  | s, t :: more, goal =>
    ∃ next, s.shift? t = some next ∧ ∀ content place, (next content place).Takes more goal

namespace Takes

variable {s : State} {t : Terminal} {ts us : List Terminal} {goal goal' : State → Prop}

theorem nil (h : goal s) : s.Takes [] goal := h

theorem cons {next : Shift State t} (h : s.shift? t = some next)
    (hmore : ∀ content place, (next content place).Takes ts goal) : s.Takes (t :: ts) goal :=
  ⟨next, h, hmore⟩

theorem append (h : s.Takes ts goal) (hmore : ∀ s', goal s' → s'.Takes us goal') :
    s.Takes (ts ++ us) goal' := by
  induction ts generalizing s with
  | nil => exact hmore s h
  | cons t ts ih =>
      obtain ⟨next, hnext, hts⟩ := h
      exact cons hnext fun content place => ih (hts content place)

theorem of_append (h : s.Takes (ts ++ us) goal) : s.Takes ts fun s' => s'.Takes us goal := by
  induction ts generalizing s with
  | nil => exact h
  | cons t ts ih =>
      obtain ⟨next, hnext, hmore⟩ := h
      exact cons hnext fun content place => ih (hmore content place)

theorem mono (h : s.Takes ts goal) (hgoal : ∀ s', goal s' → goal' s') : s.Takes ts goal' := by
  rw [← List.append_nil ts]
  exact h.append hgoal

theorem exists_steps? {xs : List Lexeme} (h : s.Takes (xs.map (·.terminal)) goal) :
    ∃ s', s.steps? xs = some s' ∧ goal s' := by
  induction xs generalizing s with
  | nil => exact ⟨s, rfl, h⟩
  | cons x xs ih =>
      obtain ⟨next, hnext, hmore⟩ := h
      obtain ⟨s', hs', hgoal⟩ := ih (hmore x.content x.place)
      exact ⟨s', by simp [step?, hnext, hs'], hgoal⟩

end Takes

end ClassDiagram.Grammar.State
