import ClassDiagram.Token.Cursor

/-!
# Passages of a cursor

A cursor on its way passes a run of tokens.  Where it stands before and where it stands after
determine each other through that run, and a run can be cut anywhere.  A token for the end of the
text is never passed, though it may be met anywhere in a sequence made by hand.
-/

namespace ClassDiagram.Cursor

/-- The current token and all that come after it. -/
def tokens (c : Cursor) : List Token := c.current :: c.rest

/-- On its way from `c` to `c'` the cursor passes `run`. -/
structure Passes (c : Cursor) (run : List Token) (c' : Cursor) : Prop where
  tokens_eq : c.tokens = run ++ c'.tokens
  index_eq : c'.index = c.index + run.length
  inner : ∀ t ∈ run, t.kind ≠ .endOfText

@[simp] theorem tokens_ofTokens {tokens : List Token} (h : Token.Closed tokens) :
    (ofTokens tokens h).tokens = tokens := by
  cases tokens with
  | nil => exact absurd h Token.not_closed_nil
  | cons t rest => rfl

@[simp] theorem index_ofTokens {tokens : List Token} (h : Token.Closed tokens) :
    (ofTokens tokens h).index = 0 := by
  cases tokens with
  | nil => exact absurd h Token.not_closed_nil
  | cons t rest => rfl

theorem tokens_ne_nil (c : Cursor) : c.tokens ≠ [] := by simp [tokens]

theorem current_eq_of_tokens {c : Cursor} {t : Token} {rest : List Token}
    (h : c.tokens = t :: rest) : c.current = t :=
  (List.cons.inj h).1

theorem eq_of_tokens {c d : Cursor} (hindex : c.index = d.index) (htokens : c.tokens = d.tokens) :
    c = d := by
  cases c
  cases d
  simp only [tokens, List.cons.injEq] at hindex htokens
  obtain ⟨rfl, rfl⟩ := htokens
  cases hindex
  rfl

theorem tokens_advance {c : Cursor} {t : Token} {rest : List Token} (h : c.tokens = t :: rest)
    (hrest : rest ≠ []) : c.advance.tokens = rest ∧ c.advance.index = c.index + 1 := by
  cases c with
  | mk index current after closed =>
      obtain ⟨rfl, rfl⟩ := List.cons.inj h
      cases after with
      | nil => exact absurd rfl hrest
      | cons next after => exact ⟨rfl, rfl⟩

theorem rest_ne_nil_of_kind_ne {c : Cursor} (h : c.current.kind ≠ .endOfText) : c.rest ≠ [] := by
  intro hrest
  have hclosed := c.closed
  rw [hrest] at hclosed
  exact h (Token.closed_singleton.mp hclosed)

namespace Passes

variable {c c₁ c₂ d : Cursor} {t : Token} {run more : List Token}

theorem refl (c : Cursor) : c.Passes [] c := ⟨rfl, rfl, by simp⟩

theorem trans (h₁ : c.Passes run c₁) (h₂ : c₁.Passes more c₂) : c.Passes (run ++ more) c₂ where
  tokens_eq := by rw [h₁.tokens_eq, h₂.tokens_eq, List.append_assoc]
  index_eq := by rw [h₂.index_eq, h₁.index_eq, List.length_append, Nat.add_assoc]
  inner := fun t ht => (List.mem_append.mp ht).elim (h₁.inner t) (h₂.inner t)

theorem advance (h : c.current.kind ≠ .endOfText) : c.Passes [c.current] c.advance := by
  obtain ⟨htokens, hindex⟩ := tokens_advance (t := c.current) rfl (rest_ne_nil_of_kind_ne h)
  exact ⟨by rw [htokens]; rfl, hindex, by simpa using h⟩

theorem eq_of_nil (h : c.Passes [] c₁) : c = c₁ :=
  eq_of_tokens (by simp [h.index_eq]) h.tokens_eq

theorem current_eq (h : c.Passes (t :: run) c₁) : c.current = t :=
  current_eq_of_tokens h.tokens_eq

theorem tail (h : c.Passes (t :: run) c₁) : c.advance.Passes run c₁ := by
  have hne : run ++ c₁.tokens ≠ [] := by simp [c₁.tokens_ne_nil]
  obtain ⟨htokens, hindex⟩ := tokens_advance h.tokens_eq hne
  refine ⟨htokens, ?_, fun u hu => h.inner u (List.mem_cons_of_mem t hu)⟩
  rw [h.index_eq, hindex, List.length_cons]
  omega

/-- A passage can be cut anywhere. -/
theorem split (h : c.Passes (run ++ more) c₂) :
    ∃ c₁, c.Passes run c₁ ∧ c₁.Passes more c₂ := by
  induction run generalizing c with
  | nil => exact ⟨c, refl c, h⟩
  | cons t run ih =>
      obtain ⟨c₁, h₁, h₂⟩ := ih h.tail
      have ht := h.current_eq
      have hadvance : c.Passes [c.current] c.advance :=
        advance (ht ▸ h.inner t List.mem_cons_self)
      rw [ht] at hadvance
      exact ⟨c₁, hadvance.trans h₁, h₂⟩

/-- The next token after a cut is told by what is passed after it, or by where the cursor stops. -/
theorem current_eq_of_passes {d₁ d₂ : Cursor} (hc : c₁.Passes more c₂) (hd : d₁.Passes more d₂)
    (h : d₂.current = c₂.current) : d₁.current = c₁.current := by
  cases more with
  | nil => rw [hd.eq_of_nil, h, hc.eq_of_nil]
  | cons t more => rw [hd.current_eq, hc.current_eq]

/-- From the start of a sequence, what is passed and what is left make up the sequence. -/
theorem tokens_eq_append {tokens : List Token} {closed : Token.Closed tokens}
    (h : (ofTokens tokens closed).Passes run c) : tokens = run ++ c.current :: c.rest :=
  (tokens_ofTokens closed).symm.trans h.tokens_eq

theorem index_eq_length {tokens : List Token} {closed : Token.Closed tokens}
    (h : (ofTokens tokens closed).Passes run c) : c.index = run.length := by
  simp [h.index_eq]

end Passes

/-- A cursor can pass whatever comes next and does not hold the end of the text. -/
theorem exists_passes {c : Cursor} {run rest : List Token} (h : c.tokens = run ++ rest)
    (hrest : rest ≠ []) (hinner : ∀ t ∈ run, t.kind ≠ .endOfText) :
    ∃ c', c.Passes run c' ∧ c'.tokens = rest := by
  induction run generalizing c with
  | nil => exact ⟨c, .refl c, h⟩
  | cons t run ih =>
      have ht : c.current = t := current_eq_of_tokens h
      have hadvance : c.Passes [c.current] c.advance :=
        .advance (ht ▸ hinner t List.mem_cons_self)
      have htokens := (tokens_advance h (by simp [hrest])).1
      obtain ⟨c', hc', hrest'⟩ := ih htokens fun u hu => hinner u (List.mem_cons_of_mem t hu)
      rw [ht] at hadvance
      exact ⟨c', hadvance.trans hc', hrest'⟩

end ClassDiagram.Cursor
