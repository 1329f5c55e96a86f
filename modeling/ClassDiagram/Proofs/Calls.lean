import ClassDiagram.Proofs.Descent.Acceptance
import Mathlib.Logic.Function.Iterate

/-!
# Calls of a parser

The rules and the steps they are made of can be called one by one, in any order and also after a
call that failed, on one cursor.  The cursor never leaves its tokens and never goes back.  A rule
stops at a token for the end of the text, wherever there is one, and can be called on it again; only
a step that is asked to take such a token passes it.  Every list is read in as many rounds as there
are tokens left to pass, at most.

What a call raises is an error that blames the token it stops at, unless the place of that token
cannot be written.
-/

namespace ClassDiagram

/-- What can be asked of a parser: a look at the current token, a step, or a construct. -/
inductive Call where
  | current
  | advance
  | atEnd
  | check (kind : Token.Kind)
  | expect (kind : Token.Kind) (what within : String)
  | error (what within : String)
  | entity
  | classDeclaration
  | interfaceDeclaration
  | relationship
  | label
  | member
  | typeName (within : String)
  | fieldRest (name : String) (visibility : Option Visibility) (place : Place)
  | methodRest (name : String) (visibility : Option Visibility) (place : Place)
  | diagram

namespace Call

/-- What a call gives if it does not fail. -/
def Answer : Call → Type
  | current => Token
  | advance => Token
  | atEnd => Bool
  | check _ => Bool
  | expect _ _ _ => Token
  | error _ _ => ParseError
  | entity => Entity
  | classDeclaration => ClassDeclaration
  | interfaceDeclaration => InterfaceDeclaration
  | relationship => Relationship
  | label => Option String
  | member => Member
  | typeName _ => String
  | fieldRest _ _ _ => Field
  | methodRest _ _ _ => Method
  | diagram => Diagram

/-- What a call reads.  Asked for an error, it finds one for the current token and does not fail. -/
def rule : (call : Call) → Rule call.Answer
  | current => Rule.current
  | advance => Rule.advance
  | atEnd => fun c => .ok c.atEnd c
  | check kind => Rule.check kind
  | expect kind what within => Rule.expect kind what within
  | error what within => fun c => .ok ⟨c.current, .expected what within⟩ c
  | entity => Rule.entity
  | classDeclaration => Rule.classDeclaration
  | interfaceDeclaration => Rule.interfaceDeclaration
  | relationship => Rule.relationship
  | label => Rule.label
  | member => Rule.member
  | typeName within => Rule.typeName within
  | fieldRest name visibility place => Rule.fieldRest name visibility place
  | methodRest name visibility place => Rule.methodRest name visibility place
  | diagram => Rule.diagram

/-- What a call does: what its rule blames is raised, and an error that is asked for is made. -/
def run : (call : Call) → EStateM (Raised ParseError) Cursor call.Answer
  | error what within => Rule.makeError (.expected what within)
  | call => call.rule.raising

/-- Where a call leaves the cursor, be it that it failed. -/
def next (call : Call) (c : Cursor) : Cursor :=
  match call.run c with
  | .ok _ d => d
  | .error _ d => d

/-- The steps that take whatever they stand on, or that are asked to take an end. -/
def takesEnd : Call → Bool
  | advance => true
  | expect kind _ _ => kind == .endOfText
  | _ => false

/-- The constructs that have a token of their own. -/
def takesToken : Call → Bool
  | entity | classDeclaration | interfaceDeclaration | relationship | member => true
  | typeName _ => true
  | methodRest _ _ _ => true
  | _ => false

end Call

namespace Cursor

/-- The cursor after some calls. -/
def afterCalls (c : Cursor) (calls : List Call) : Cursor :=
  calls.foldl (fun c call => call.next c) c

/-- The cursor stands in the tokens, at the index that it counts. -/
def In (tokens : List Token) (c : Cursor) : Prop := tokens.drop c.index = c.tokens

namespace In

variable {tokens run : List Token} {c c' : Cursor}

theorem ofTokens (closed : Token.Closed tokens) : In tokens (Cursor.ofTokens tokens closed) := by
  simp [In]

theorem getElem? (h : c.In tokens) : tokens[c.index]? = some c.current := by
  have hhead : (tokens.drop c.index).head? = some c.current := by rw [h]; rfl
  simpa using hhead

theorem index_add_left (h : c.In tokens) : c.index + c.left + 1 = tokens.length := by
  have hlength : (tokens.drop c.index).length = c.left + 1 := by rw [h]; rfl
  rw [List.length_drop] at hlength
  omega

theorem advance (h : c.In tokens) : c.advance.In tokens := by
  cases c with
  | mk index current rest closed =>
      cases rest with
      | nil => exact h
      | cons next rest =>
          change tokens.drop (index + 1) = next :: rest
          have hdrop : tokens.drop index = current :: next :: rest := h
          rw [← List.drop_drop, hdrop]
          rfl

/-- What a cursor passes is what stands between its indices. -/
theorem getElem?_of_passes (h : c.In tokens) (hrun : c.Passes run c') {i : Nat}
    (hi : c.index ≤ i) (hi' : i < c'.index) {t : Token} (ht : tokens[i]? = some t) : t ∈ run := by
  obtain ⟨k, rfl⟩ := Nat.exists_eq_add_of_le hi
  have hk : k < run.length := by
    rw [hrun.index_eq] at hi'
    omega
  rw [← List.getElem?_drop, h, hrun.tokens_eq, List.getElem?_append_left hk] at ht
  exact List.mem_of_getElem? ht

end In

theorem Passes.eq_iterate {c c' : Cursor} {run : List Token} (h : c.Passes run c') :
    c' = Cursor.advance^[run.length] c := by
  induction run generalizing c with
  | nil => exact h.eq_of_nil.symm
  | cons t run ih =>
      rw [List.length_cons, Function.iterate_succ_apply]
      exact ih h.tail

end Cursor

namespace Rule

variable {α : Type}

/-- The loop of a list with a bound on its rounds: `none` if the bound does not suffice. -/
def rounds (stop : Token.Kind → Bool) (rule : Rule α) : Nat → Cursor → Outcome (Option (List α))
  | 0, c => .ok (if stop c.current.kind then some [] else none) c
  | n + 1, c =>
    if stop c.current.kind then .ok (some []) c
    else
      match rule c with
      | .error e c' => .error e c'
      | .ok a c' =>
        match rounds stop rule n c' with
        | .error e c'' => .error e c''
        | .ok as c'' => .ok (as.map (List.cons a)) c''

/-- A list needs no more rounds than there are tokens left to pass. -/
theorem rounds_eq_many {stop : Token.Kind → Bool} {rule : Rule α} (advancing : Advancing rule)
    (hstop : stop .endOfText = true) {n : Nat} {c : Cursor} (h : c.left ≤ n) :
    rounds stop rule n c = EStateM.map some (many stop rule advancing) c := by
  induction n generalizing c with
  | zero =>
      have hend : c.current.kind = .endOfText := by
        by_contra hne
        have hlt := Cursor.left_advance_lt hne
        omega
      have hmany : many stop rule advancing c = .ok [] c := many_of_stop (hend ▸ hstop)
      simp only [rounds, EStateM.map, hmany, hend, hstop, if_true]
  | succ n ih =>
      cases hc : stop c.current.kind with
      | true =>
          have hmany : many stop rule advancing c = .ok [] c := many_of_stop hc
          simp only [rounds, EStateM.map, hmany, hc, if_true]
      | false =>
          have hmany : many stop rule advancing c = EStateM.bind rule
              (fun a => EStateM.map (List.cons a) (many stop rule advancing)) c :=
            many_of_not_stop hc
          simp only [rounds, hc, hmany, EStateM.map, EStateM.bind, Bool.false_eq_true, if_false]
          cases hrule : rule c with
          | error e c' => rfl
          | ok a c' =>
              have hlt : c'.left < c.left := advancing c a c' hrule
              have hrest := ih (c := c') (by omega)
              simp only [hrest, EStateM.map]
              cases many stop rule advancing c' <;> rfl

/-- A rule passes tokens that stand for no end, and blames the token that it then stands on. -/
def Walks (rule : Rule α) : Prop :=
  ∀ c, (∃ run, c.Passes run (Outcome.cursor (rule c))) ∧
    ∀ e d, rule c = .error e d → e.token = d.current

theorem Sound.walks {rule : Rule α} {p : Phrase α} (h : Sound rule p) : Walks rule := by
  intro c
  cases hc : rule c with
  | ok a d =>
      obtain ⟨run, hrun, -⟩ := h.of_ok hc
      exact ⟨⟨run, hrun⟩, fun e d' he => nomatch he⟩
  | error e d =>
      obtain ⟨htoken, run, hrun, -⟩ := h.of_error hc
      refine ⟨⟨run, hrun⟩, ?_⟩
      rintro e' d' ⟨rfl, rfl⟩
      exact htoken

theorem walks_of_stays {rule : Rule α} (h : ∀ c, ∃ a, rule c = .ok a c) : Walks rule := by
  intro c
  obtain ⟨a, ha⟩ := h c
  rw [ha]
  exact ⟨⟨[], .refl c⟩, fun e d he => nomatch he⟩

end Rule

namespace Call

open Rule

theorem walks_rule {call : Call} (h : call.takesEnd = false) : Walks call.rule := by
  cases call with
  | current => exact walks_of_stays fun c => ⟨_, rfl⟩
  | advance => cases h
  | atEnd => exact walks_of_stays fun c => ⟨_, rfl⟩
  | check kind => exact walks_of_stays fun c => ⟨_, rfl⟩
  | expect kind what within => exact (sound_expect (by simpa [takesEnd] using h) _ _).walks
  | error what within => exact walks_of_stays fun c => ⟨_, rfl⟩
  | entity => exact sound_entity.walks
  | classDeclaration => exact sound_classDeclaration.walks
  | interfaceDeclaration => exact sound_interfaceDeclaration.walks
  | relationship => exact sound_relationship.walks
  | label => exact sound_label.walks
  | member => exact sound_member.walks
  | typeName within => exact (sound_typeName _).walks
  | fieldRest name visibility place => exact (sound_fieldRest _ _ _).walks
  | methodRest name visibility place => exact (sound_methodRest _ _ _).walks
  | diagram => exact sound_diagram.walks

theorem advancing_rule {call : Call} (h : call.takesToken = true) : Advancing call.rule := by
  cases call with
  | entity => exact advancing_entity
  | classDeclaration => exact advancing_classDeclaration
  | interfaceDeclaration => exact advancing_interfaceDeclaration
  | relationship => exact advancing_relationship
  | member => exact advancing_member
  | typeName within => exact advancing_typeName within
  | methodRest name visibility place => exact advancing_methodRest name visibility place
  | _ => cases h

/-- A step that may take an end takes at most the current token, and blames that one. -/
theorem cursor_of_takesEnd {call : Call} (h : call.takesEnd = true) (c : Cursor) :
    (Outcome.cursor (call.rule c) = c ∨ Outcome.cursor (call.rule c) = c.advance) ∧
      ∀ e d, call.rule c = .error e d → e.token = d.current := by
  cases call with
  | advance => exact ⟨.inr rfl, fun e d he => nomatch he⟩
  | expect kind what within =>
      by_cases hkind : c.current.kind = kind
      · have hrule : (expect kind what within).rule c = .ok c.current c.advance := if_pos hkind
        rw [hrule]
        exact ⟨.inr rfl, fun e d he => nomatch he⟩
      · have hrule : (expect kind what within).rule c =
            .error ⟨c.current, .expected what within⟩ c := if_neg hkind
        rw [hrule]
        refine ⟨.inl rfl, ?_⟩
        rintro e d ⟨rfl, rfl⟩
        rfl
  | _ => cases h

variable {call : Call} {c d : Cursor}

theorem token_of_rule_eq_error {e : ParseError} (h : call.rule c = .error e d) :
    e.token = d.current := by
  cases hend : call.takesEnd with
  | false => exact (walks_rule hend c).2 e d h
  | true => exact (cursor_of_takesEnd hend c).2 e d h

/-- What a call gives is what its rule reads. -/
theorem rule_of_run_eq_ok {a : call.Answer} (h : call.run c = .ok a d) :
    call.rule c = .ok a d := by
  cases call with
  | error what within =>
      have hmake : makeError (.expected what within) c = .ok a d := h
      rw [makeError_eq] at hmake
      split at hmake
      · cases hmake
        rfl
      · cases hmake
  | _ => exact (adaptExcept_eq_ok_iff (f := ParseError.raised)).mp h

/-- What a call raises is an error for the token that its rule stops at. -/
theorem exists_error_of_run {r : Raised ParseError} (h : call.run c = .error r d) :
    ∃ e : ParseError, e.raised = r ∧ e.token = d.current ∧ Outcome.cursor (call.rule c) = d := by
  have hraising : call.rule.raising c = .error r d →
      ∃ e : ParseError, e.raised = r ∧ e.token = d.current ∧
        Outcome.cursor (call.rule c) = d := by
    intro hrun
    obtain ⟨e, he, hraised⟩ := adaptExcept_eq_error_iff.mp hrun
    exact ⟨e, hraised, token_of_rule_eq_error he, by rw [he]; rfl⟩
  cases call with
  | error what within =>
      have hmake : makeError (.expected what within) c = .error r d := h
      rw [makeError_eq] at hmake
      split at hmake
      · cases hmake
      · next hplace =>
        cases hmake
        exact ⟨⟨c.current, .expected what within⟩, Place.raise_of_not_writable hplace _, rfl, rfl⟩
  | _ => exact hraising h

theorem next_of_run_eq_ok {a : call.Answer} (h : call.run c = .ok a d) : call.next c = d := by
  rw [next, h]

theorem next_of_run_eq_error {r : Raised ParseError} (h : call.run c = .error r d) :
    call.next c = d := by
  rw [next, h]

/-- A call leaves the cursor where its rule does. -/
theorem next_eq (call : Call) (c : Cursor) : call.next c = Outcome.cursor (call.rule c) := by
  cases h : call.run c with
  | ok a d => rw [next_of_run_eq_ok h, rule_of_run_eq_ok h, Outcome.cursor]
  | error r d =>
      obtain ⟨e, -, -, hcursor⟩ := exists_error_of_run h
      rw [next_of_run_eq_error h, hcursor]

/-- A call makes some number of steps, each of them by one token. -/
theorem exists_iterate (call : Call) (c : Cursor) :
    ∃ n, call.next c = Cursor.advance^[n] c ∧ (call.next c).index = c.index + n := by
  rw [next_eq]
  cases hend : call.takesEnd with
  | false =>
      obtain ⟨run, hrun⟩ := (walks_rule hend c).1
      exact ⟨run.length, hrun.eq_iterate, hrun.index_eq⟩
  | true =>
      rcases (cursor_of_takesEnd hend c).1 with hnext | hnext
      · exact ⟨0, hnext, by rw [hnext, Nat.add_zero]⟩
      · cases c with
        | mk index current rest closed =>
            cases rest with
            | nil => exact ⟨0, hnext, by rw [hnext]; rfl⟩
            | cons t rest => exact ⟨1, hnext, by rw [hnext]; rfl⟩

end Call

namespace Cursor

variable {tokens : List Token} {c : Cursor}

theorem In.iterate (h : c.In tokens) (n : Nat) : (Cursor.advance^[n] c).In tokens := by
  induction n generalizing c with
  | zero => exact h
  | succ n ih =>
      rw [Function.iterate_succ_apply]
      exact ih h.advance

/-- A call leaves the cursor in its tokens. -/
theorem In.next (h : c.In tokens) (call : Call) : (call.next c).In tokens := by
  obtain ⟨n, hnext, -⟩ := call.exists_iterate c
  rw [hnext]
  exact h.iterate n

theorem In.afterCalls (h : c.In tokens) (calls : List Call) : (c.afterCalls calls).In tokens := by
  induction calls generalizing c with
  | nil => exact h
  | cons call calls ih => exact ih (h.next call)

theorem index_le_afterCalls (c : Cursor) (calls : List Call) :
    c.index ≤ (c.afterCalls calls).index := by
  induction calls generalizing c with
  | nil => exact Nat.le_refl _
  | cons call calls ih =>
      obtain ⟨n, -, hindex⟩ := call.exists_iterate c
      have hle : c.index ≤ (call.next c).index := by omega
      exact hle.trans (ih (call.next c))

/-- Whatever calls are made of a parser and whichever of them fail, its cursor stays at a token of
the sequence and never goes back.  What a further call raises is an error for the token that it
leaves the cursor on, or, if the place of this token cannot be written, that failure.  The call
passes no end unless it is a step that is asked to, and passes a token if it reads one of the
constructs that have a token of their own.  It makes no more steps than there are tokens left, and a
list needs no more rounds either.  A document is read up to an end. -/
theorem calls_keep_cursor (tokens : List Token) (closed : Token.Closed tokens)
    (calls : List Call) (c : Cursor) (hc : (ofTokens tokens closed).afterCalls calls = c) :
    c.index < tokens.length ∧ tokens[c.index]? = some c.current ∧
    (∀ more, c.index ≤ (c.afterCalls more).index) ∧
    (∀ call : Call,
      (∀ r d, call.run c = .error r d → ∃ e : ParseError,
        r = e.token.place.raise e ∧ tokens[d.index]? = some e.token) ∧
      (call.takesEnd = false → ∀ i t, c.index ≤ i → i < (call.next c).index →
        tokens[i]? = some t → t.kind ≠ .endOfText) ∧
      (call.takesToken = true → ∀ a d, call.run c = .ok a d → c.index < d.index) ∧
      ∃ n ≤ tokens.length - 1 - c.index, call.next c = Cursor.advance^[n] c ∧
        (call.next c).index = c.index + n) ∧
    (∀ n, tokens.length - 1 - c.index ≤ n →
      Rule.rounds (· == .endOfText) Rule.entity n c =
        EStateM.map some (Rule.many (· == .endOfText) Rule.entity Rule.advancing_entity) c ∧
      Rule.rounds Rule.endsBody Rule.member n c =
        EStateM.map some (Rule.many Rule.endsBody Rule.member Rule.advancing_member) c ∧
      ∀ within, Rule.rounds Rule.endsParameters (Rule.parameter within) n c =
        EStateM.map some (Rule.many Rule.endsParameters (Rule.parameter within)
          (Rule.advancing_parameter within)) c) ∧
    ∀ d c', Call.diagram.run c = .ok d c' → c'.current.kind = .endOfText := by
  have hin : c.In tokens := hc ▸ (In.ofTokens closed).afterCalls calls
  have hleft := hin.index_add_left
  refine ⟨by omega, hin.getElem?, c.index_le_afterCalls, fun call => ⟨?_, ?_, ?_, ?_⟩, ?_,
    fun d c' h => Rule.kind_of_diagram_eq_ok (Call.rule_of_run_eq_ok h)⟩
  · intro r d h
    have hd : d.In tokens := Call.next_of_run_eq_error h ▸ hin.next call
    obtain ⟨e, hraised, htoken, -⟩ := Call.exists_error_of_run h
    exact ⟨e, hraised.symm, htoken ▸ hd.getElem?⟩
  · intro hend i t hi hi' ht
    obtain ⟨run, hrun⟩ := (Call.walks_rule hend c).1
    rw [Call.next_eq] at hi'
    exact hrun.inner t (hin.getElem?_of_passes hrun hi hi' ht)
  · intro htoken a d h
    have hd : d.In tokens := Call.next_of_run_eq_ok h ▸ hin.next call
    have hdleft := hd.index_add_left
    have hlt : d.left < c.left := Call.advancing_rule htoken c a d (Call.rule_of_run_eq_ok h)
    omega
  · obtain ⟨n, hnext, hindex⟩ := call.exists_iterate c
    have hnleft := (hin.next call).index_add_left
    exact ⟨n, by omega, hnext, hindex⟩
  · intro n hn
    have hbound : c.left ≤ n := by omega
    exact ⟨Rule.rounds_eq_many _ rfl hbound, Rule.rounds_eq_many _ rfl hbound,
      fun within => Rule.rounds_eq_many _ rfl hbound⟩

/-- Two interfaces with an end between them, and one more end. -/
def interruptedInterfaces : List Token :=
  [⟨.interfaceWord, "interface", ⟨1, 1⟩⟩, ⟨.identifier, "I", ⟨1, 11⟩⟩, ⟨.endOfText, "", ⟨1, 12⟩⟩,
    ⟨.interfaceWord, "interface", ⟨2, 1⟩⟩, ⟨.identifier, "J", ⟨2, 11⟩⟩, ⟨.endOfText, "", ⟨2, 12⟩⟩]

/-- After the first interface an entity fails at the end, and a step that takes the end leads on to
the second one. -/
theorem calls_keep_cursor_interruptedInterfaces :
    ∃ closed c, (ofTokens interruptedInterfaces closed).afterCalls
        [.interfaceDeclaration, .entity, .expect .endOfText "end" "document"] = c ∧
      c.index = 3 ∧ interruptedInterfaces[c.index]? = some c.current ∧
      c.index < (Call.next .interfaceDeclaration c).index := by
  have closed : Token.Closed interruptedInterfaces := by decide
  obtain ⟨-, hcurrent, -, hcall, -⟩ := calls_keep_cursor interruptedInterfaces closed
    [.interfaceDeclaration, .entity, .expect .endOfText "end" "document"] _ rfl
  exact ⟨closed, _, rfl, rfl, hcurrent, (hcall .interfaceDeclaration).2.2.1 rfl _ _ rfl⟩

/-- A bracket in a line whose number is too long to be written. -/
def farBracket : List Token :=
  [⟨.rightBracket, "]", ⟨Text.firstTooLong, 1⟩⟩, ⟨.endOfText, "", ⟨1, 1⟩⟩]

/-- Not all that calls raise are errors that blame a token. -/
theorem call_raises_unwritable :
    ¬ ∀ (tokens : List Token) (closed : Token.Closed tokens) (call : Call) (r : Raised ParseError)
      (d : Cursor), call.run (ofTokens tokens closed) = .error r d →
        ∃ e : ParseError, r = .error e ∧ tokens[d.index]? = some e.token := by
  intro h
  have closed : Token.Closed farBracket := by decide
  have hrun : Call.entity.run (ofTokens farBracket closed) =
      .error .unwritable (ofTokens farBracket closed) :=
    adaptExcept_eq_error_iff.mpr
      ⟨_, rfl, Place.raise_firstTooLong 1 _⟩
  obtain ⟨e, he, -⟩ := h farBracket closed .entity _ _ hrun
  cases he

end Cursor

end ClassDiagram
