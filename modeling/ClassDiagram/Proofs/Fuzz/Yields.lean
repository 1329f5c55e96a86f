import ClassDiagram.Fuzz.Draws
import ClassDiagram.Proofs.Sequencing
import Mathlib.Data.List.Basic

/-!
# What generators yield

A generator yields values with a property if it gives one such value whatever is drawn.  So it never
fails: it never has to choose from nothing.
-/

namespace ClassDiagram.Fuzz.Gen

variable {α β : Type}

/-- Whatever is drawn, the generator gives a value, and one with the property. -/
def Yields (g : Gen α) (P : α → Prop) : Prop := ∀ draws, ∃ a rest, g draws = .ok a rest ∧ P a

namespace Yields

variable {g : Gen α} {P : α → Prop} {Q : β → Prop}

theorem mono {P' : α → Prop} (h : Yields g P) (himp : ∀ a, P a → P' a) : Yields g P' := by
  intro draws
  obtain ⟨a, rest, ha, hP⟩ := h draws
  exact ⟨a, rest, ha, himp a hP⟩

theorem pure {a : α} (h : P a) : Yields (Pure.pure a) P := fun draws => ⟨a, draws, rfl, h⟩

theorem bind {next : α → Gen β} (h : Yields g P) (hnext : ∀ a, P a → Yields (next a) Q) :
    Yields (g >>= next) Q := by
  intro draws
  obtain ⟨a, middle, ha, hP⟩ := h draws
  obtain ⟨b, rest, hb, hQ⟩ := hnext a hP middle
  exact ⟨b, rest, (bind_of_ok ha).trans hb, hQ⟩

theorem map {f : α → β} (h : Yields g P) (hf : ∀ a, P a → Q (f a)) : Yields (f <$> g) Q := by
  intro draws
  obtain ⟨a, rest, ha, hP⟩ := h draws
  exact ⟨f a, rest, map_of_ok ha, hf a hP⟩

theorem ite {g' : Gen α} {c : Prop} [Decidable c] (h : c → Yields g P)
    (h' : ¬ c → Yields g' P) : Yields (if c then g else g') P := by
  by_cases hc : c
  · simpa [hc] using h hc
  · simpa [hc] using h' hc

theorem times (h : Yields g P) (n : Nat) :
    Yields (Gen.times n g) fun as => as.length = n ∧ ∀ a ∈ as, P a := by
  induction n with
  | zero => exact pure (by simp)
  | succ n ih =>
      refine bind h fun a ha => bind ih fun as has => pure ?_
      exact ⟨congrArg (· + 1) has.1, List.forall_mem_cons.mpr ⟨ha, has.2⟩⟩

end Yields

theorem yields_draw : Yields draw fun _ => True := fun _ => ⟨_, _, rfl, trivial⟩

theorem yields_below {n : Nat} (h : 0 < n) : Yields (below n) (· < n) := by
  unfold below
  rw [if_neg (by omega)]
  refine yields_draw.bind fun d _ => .pure ?_
  have hpos : (0 : Int) < n := by omega
  have hlt := Int.emod_lt_of_pos d hpos
  have hnonneg := Int.emod_nonneg d (by omega : (n : Int) ≠ 0)
  change (d % (n : Int)).toNat < n
  omega

theorem yields_among {low count : Nat} (h : 0 < count) :
    Yields (among low count) fun n => low ≤ n ∧ n < low + count :=
  (yields_below h).map fun n hn => by omega

theorem yields_choose {xs : List α} (h : xs ≠ []) : Yields (choose xs) (· ∈ xs) := by
  obtain ⟨x, xs, rfl⟩ := List.exists_cons_of_ne_nil h
  refine (yields_below (Nat.succ_pos _)).bind fun i hi => .pure ?_
  rw [List.getD_eq_getElem?_getD, List.getElem?_eq_getElem hi]
  exact List.getElem_mem hi

theorem yields_permille : Yields permille (· < 1000) := by
  refine yields_draw.bind fun d _ => .pure ?_
  change (d % 1000).toNat < 1000
  omega

theorem yields_chance (thousandths : Nat) : Yields (chance thousandths) fun _ => True :=
  yields_permille.bind fun _ _ => .pure trivial

theorem Yields.sometimes {g : Gen α} {P : α → Prop} (h : Yields g P) (thousandths : Nat) :
    Yields (Gen.sometimes thousandths g) fun o => ∀ a ∈ o, P a := by
  refine (yields_chance _).bind fun _ _ => .ite (fun _ => ?_) fun _ => .pure (by simp)
  exact h.map fun a ha => by simpa using ha

end ClassDiagram.Fuzz.Gen
