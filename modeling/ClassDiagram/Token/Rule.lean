import ClassDiagram.Text.Raised
import ClassDiagram.Token.Cursor

/-!
# Rules

A rule reads something from a sequence of tokens: it moves a cursor and gives what it read, or it
fails and blames the token it stands on.  Every choice is made on the current token, so a rule
never goes back; a failed rule leaves the cursor where the blame fell.

A rule is `Steady` if it never goes back and `Advancing` if, whenever it succeeds, it has moved on.
Repeating a rule is possible for advancing rules only, and that is why it comes to an end.
-/

namespace ClassDiagram

/-- What is wrong with a token: nothing can begin with it, or `what` had to stand there by the rule
`within`. -/
inductive ParseProblem where
  | unexpected
  | expected (what within : String)
  deriving DecidableEq, Repr

/-- A sequence of tokens that is not a diagram: the token to blame, and why. -/
structure ParseError where
  token : Token
  problem : ParseProblem
  deriving DecidableEq, Repr

def ParseError.message (e : ParseError) : String :=
  e.token.place.describe ++ ": " ++
    match e.problem with
    | .unexpected => "Unexpected token: " ++ e.token.describe
    | .expected what within =>
      "Expected " ++ what ++ " in " ++ within ++ ", got " ++ e.token.describe

/-- What is raised for a token to blame. -/
def ParseError.raised (e : ParseError) : Raised ParseError := e.token.place.raise e

abbrev Rule := EStateM ParseError Cursor

namespace Rule

variable {α β : Type}

/-- The outcome of a rule tried at a cursor. -/
abbrev Outcome (α : Type) := EStateM.Result ParseError Cursor α

def Outcome.cursor : Outcome α → Cursor
  | .ok _ c => c
  | .error _ c => c

def current : Rule Token := fun c => .ok c.current c

def advance : Rule Token := fun c => .ok c.advance.current c.advance

def check (kind : Token.Kind) : Rule Bool := fun c => .ok (c.current.kind == kind) c

def blame (problem : ParseProblem) : Rule α := fun c => .error ⟨c.current, problem⟩ c

/-- A rule as it is called: what it blames is raised. -/
def raising (rule : Rule α) : EStateM (Raised ParseError) Cursor α :=
  rule.adaptExcept ParseError.raised

/-- Makes the error that blames the current token, without raising it. -/
def makeError (problem : ParseProblem) : EStateM (Raised ParseError) Cursor ParseError := fun c =>
  match (⟨c.current, problem⟩ : ParseError).raised with
  | .error e => .ok e c
  | .unwritable => .error .unwritable c

theorem makeError_eq (problem : ParseProblem) (c : Cursor) :
    makeError problem c =
      if c.current.place.Writable then .ok ⟨c.current, problem⟩ c else .error .unwritable c := by
  by_cases h : c.current.place.Writable
  · simp [makeError, ParseError.raised, Place.raise, h]
  · simp [makeError, ParseError.raised, Place.raise, h]

/-- Takes the current token, which has to be of the given kind. -/
def expect (kind : Token.Kind) (what within : String) : Rule Token := fun c =>
  if c.current.kind = kind then .ok c.current c.advance
  else .error ⟨c.current, .expected what within⟩ c

/-- Reads a token of the given kind and what the rule reads after it, if such a token comes next. -/
def after (kind : Token.Kind) (rule : Rule α) : Rule (Option α) := fun c =>
  if c.current.kind = kind then (some <$> rule) c.advance else .ok none c

def accept (kind : Token.Kind) : Rule (Option Token) := fun c =>
  if c.current.kind = kind then .ok (some c.current) c.advance else .ok none c

/-- The rule never goes back. -/
def Steady (rule : Rule α) : Prop :=
  ∀ c, (Outcome.cursor (rule c)).left ≤ c.left

/-- The rule has moved on whenever it succeeds. -/
def Advancing (rule : Rule α) : Prop :=
  ∀ c a c', rule c = .ok a c' → c'.left < c.left

/-- Reads with the rule again and again until the current token is of a kind at which to stop. -/
def many (stop : Token.Kind → Bool) (rule : Rule α) (advancing : Advancing rule) (c : Cursor) :
    Outcome (List α) :=
  if stop c.current.kind then .ok [] c
  else
    match h : rule c with
    | .error e c' => .error e c'
    | .ok a c' =>
      have := advancing c a c' h
      match many stop rule advancing c' with
      | .error e c'' => .error e c''
      | .ok as c'' => .ok (a :: as) c''
termination_by c.left

theorem Steady.of_ok {rule : Rule α} (h : Steady rule) {c c' : Cursor} {a : α}
    (hc : rule c = .ok a c') : c'.left ≤ c.left := by
  have := h c
  rwa [hc] at this

theorem steady_pure (a : α) : Steady (pure a : Rule α) := fun _ => Nat.le_refl _

theorem steady_current : Steady current := fun _ => Nat.le_refl _

theorem steady_check (kind : Token.Kind) : Steady (check kind) := fun _ => Nat.le_refl _

theorem steady_expect (kind : Token.Kind) (what within : String) :
    Steady (expect kind what within) := by
  intro c
  simp only [expect]
  split
  · exact c.left_advance_le
  · exact Nat.le_refl _

theorem steady_accept (kind : Token.Kind) : Steady (accept kind) := by
  intro c
  simp only [accept]
  split
  · exact c.left_advance_le
  · exact Nat.le_refl _

theorem Steady.bind {rule : Rule α} {next : α → Rule β} (h : Steady rule)
    (hnext : ∀ a, Steady (next a)) : Steady (rule >>= next) := by
  intro c
  show (Outcome.cursor (EStateM.bind rule next c)).left ≤ c.left
  have hc := h c
  simp only [EStateM.bind]
  split
  · rename_i a c' heq
    rw [heq] at hc
    exact Nat.le_trans (hnext a c') hc
  · rename_i e c' heq
    rw [heq] at hc
    exact hc

theorem Steady.map {rule : Rule α} (h : Steady rule) (f : α → β) : Steady (f <$> rule) := by
  intro c
  show (Outcome.cursor (EStateM.map f rule c)).left ≤ c.left
  have hc := h c
  simp only [EStateM.map]
  split
  · rename_i a c' heq
    rw [heq] at hc
    exact hc
  · rename_i e c' heq
    rw [heq] at hc
    exact hc

theorem steady_after (kind : Token.Kind) {rule : Rule α} (h : Steady rule) :
    Steady (after kind rule) := by
  intro c
  simp only [after]
  split
  · exact Nat.le_trans (h.map some c.advance) c.left_advance_le
  · exact Nat.le_refl _

theorem advancing_expect {kind : Token.Kind} (hkind : kind ≠ .endOfText) (what within : String) :
    Advancing (expect kind what within) := by
  intro c a c' h
  simp only [expect] at h
  split at h
  · rename_i heq
    cases h
    exact Cursor.left_advance_lt (heq ▸ hkind)
  · cases h

theorem advancing_blame (problem : ParseProblem) : Advancing (blame problem : Rule α) := by
  intro c a c' h
  cases h

theorem Advancing.bind {rule : Rule α} {next : α → Rule β} (h : Advancing rule)
    (hnext : ∀ a, Steady (next a)) : Advancing (rule >>= next) := by
  intro c b c'' heq
  change EStateM.bind rule next c = .ok b c'' at heq
  simp only [EStateM.bind] at heq
  split at heq
  · rename_i a c' ha
    exact Nat.lt_of_le_of_lt ((hnext a).of_ok heq) (h c a c' ha)
  · cases heq

theorem Steady.bind_advancing {rule : Rule α} {next : α → Rule β} (h : Steady rule)
    (hnext : ∀ a, Advancing (next a)) : Advancing (rule >>= next) := by
  intro c b c'' heq
  change EStateM.bind rule next c = .ok b c'' at heq
  simp only [EStateM.bind] at heq
  split at heq
  · rename_i a c' ha
    exact Nat.lt_of_lt_of_le (hnext a c' b c'' heq) (h.of_ok ha)
  · cases heq

theorem Advancing.map {rule : Rule α} (h : Advancing rule) (f : α → β) :
    Advancing (f <$> rule) := by
  intro c b c' heq
  change EStateM.map f rule c = .ok b c' at heq
  simp only [EStateM.map] at heq
  split at heq
  · rename_i a c₁ ha
    cases heq
    exact h c a _ ha
  · cases heq

theorem steady_many {stop : Token.Kind → Bool} {rule : Rule α} (advancing : Advancing rule)
    (steady : Steady rule) : Steady (many stop rule advancing) := by
  intro c
  fun_induction many stop rule advancing c with
  | case1 c _ => exact Nat.le_refl _
  | case2 c _ e c' h =>
      have := steady c
      rwa [h] at this
  | case3 c _ a c' h hlt e c'' hmany ih =>
      rw [hmany] at ih
      exact Nat.le_trans ih (Nat.le_of_lt hlt)
  | case4 c _ a c' h hlt as c'' hmany ih =>
      rw [hmany] at ih
      exact Nat.le_trans ih (Nat.le_of_lt hlt)

end Rule

end ClassDiagram
