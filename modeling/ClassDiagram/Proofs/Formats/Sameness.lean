import ClassDiagram.Proofs.Formats.Textual
import Mathlib.Data.List.Perm.Subperm

/-!
# When values are the same

Records are the same if their entries are, in any order.  If no key occurs twice, this is told by
looking the entries up: under every key, both records have the same value or both have none.
-/

namespace ClassDiagram.Value

/-- The value that a record has under a key. -/
def under? (key : String) (v : Value) : Option Value := v.entries.lookup key

/-- The same values, or no values. -/
abbrev SameAttribute : Option Value → Option Value → Prop := Option.Rel fun v w => v.same w = true

variable {key : String} {v w : Value} {entries others : List (String × Value)}

theorem mem_of_lookup (h : entries.lookup key = some v) : (key, v) ∈ entries := by
  obtain ⟨before, after, rfl, -⟩ := List.lookup_eq_some_iff.mp h
  simp

theorem lookup_of_mem (hnodup : (entries.map Prod.fst).Nodup) (h : (key, v) ∈ entries) :
    entries.lookup key = some v := by
  induction entries with
  | nil => cases h
  | cons e rest ih =>
      obtain ⟨hnew, hrest⟩ := List.nodup_cons.mp hnodup
      rcases List.mem_cons.mp h with rfl | h
      · exact List.lookup_cons_self
      · have hne : (key == e.1) = false := by
          rw [beq_eq_false_iff_ne]
          rintro rfl
          exact hnew (List.mem_map.mpr ⟨_, h, rfl⟩)
        rw [List.lookup_cons, hne]
        exact ih hrest h

theorem lookup_eq_none_iff_not_mem : entries.lookup key = none ↔ key ∉ entries.map Prod.fst := by
  rw [List.lookup_eq_none_iff]
  constructor
  · intro h hmem
    obtain ⟨e, he, rfl⟩ := List.mem_map.mp hmem
    simpa using h e he
  · intro h e he
    rw [bne_iff_ne]
    rintro rfl
    exact h (List.mem_map_of_mem he)

theorem sameItems_iff {items items' : List Value} :
    sameItems items items' = true ↔ List.Forall₂ (fun v w => v.same w = true) items items' := by
  induction items generalizing items' with
  | nil => cases items' <;> simp [sameItems]
  | cons v items ih => cases items' <;> simp [sameItems, ih]

theorem sameEntries_iff :
    sameEntries entries others = true ↔
      ∀ e ∈ entries, ∃ w, others.lookup e.1 = some w ∧ e.2.same w = true := by
  induction entries with
  | nil => simp [sameEntries]
  | cons e rest ih =>
      obtain ⟨key, v⟩ := e
      cases h : others.lookup key <;> simp [sameEntries, h, ih]

theorem same_lists (items others : List Value) :
    (list items).same (list others) = sameItems items others := rfl

theorem same_records (entries others : List (String × Value)) :
    (record entries).same (record others) =
      (entries.length == others.length && sameEntries entries others) := rfl

/-- Values made of text are the same as themselves. -/
theorem Textual.same_self {IsKey : String → Prop} {n : Nat} (h : Textual IsKey n v) :
    v.same v = true := by
  induction h with
  | text s => exact beq_self_eq_true s
  | list _ ih =>
      rw [same_lists, sameItems_iff]
      exact List.forall₂_same.mpr ih
  | record hnodup _ _ ih =>
      rw [same_records, Bool.and_eq_true, sameEntries_iff]
      exact ⟨by simp, fun e he => ⟨e.2, lookup_of_mem hnodup he, ih e he⟩⟩

theorem sameAttribute_of_record (hentries : (entries.map Prod.fst).Nodup)
    (h : (record entries).same (record others) = true) (key : String) :
    SameAttribute (entries.lookup key) (others.lookup key) := by
  rw [same_records, Bool.and_eq_true, sameEntries_iff, beq_iff_eq] at h
  obtain ⟨hlength, hall⟩ := h
  cases hv : entries.lookup key with
  | some v =>
      obtain ⟨w, hw, hsame⟩ := hall _ (mem_of_lookup hv)
      rw [hw]
      exact .some hsame
  | none =>
      -- There are no more keys on the other side, so it does not have the key either.
      have hsubset : entries.map Prod.fst ⊆ others.map Prod.fst := by
        intro other hother
        obtain ⟨e, he, rfl⟩ := List.mem_map.mp hother
        obtain ⟨w, hw, -⟩ := hall e he
        exact List.mem_map.mpr ⟨_, mem_of_lookup hw, rfl⟩
      have hperm := (List.subperm_of_subset hentries hsubset).perm_of_length_le (by simp [hlength])
      rw [lookup_eq_none_iff_not_mem, hperm.mem_iff, ← lookup_eq_none_iff_not_mem] at hv
      rw [hv]
      exact .none

/-- Under every key, values that are the same have the same. -/
theorem Textual.sameAttribute {IsKey : String → Prop} {n : Nat} (hv : Textual IsKey n v)
    (h : v.same w = true) (key : String) : SameAttribute (v.under? key) (w.under? key) := by
  cases hv with
  | text s =>
      cases w with
      | text t => exact .none
      | _ => cases h
  | list =>
      cases w with
      | list others => exact .none
      | _ => cases h
  | record hnodup =>
      cases w with
      | record others => exact sameAttribute_of_record hnodup h key
      | _ => cases h

@[simp] theorem under?_record : (record entries).under? key = entries.lookup key := rfl

/-! ## Attributes that are told in words -/

@[simp] theorem same_text {s t : String} : (text s).same (text t) = true ↔ s = t := by
  exact beq_iff_eq

@[simp] theorem same_list {items items' : List Value} :
    (list items).same (list items') = true ↔
      List.Forall₂ (fun v w => v.same w = true) items items' := by
  rw [same_lists, sameItems_iff]

@[simp] theorem sameAttribute_some : SameAttribute (some v) (some w) ↔ v.same w = true := by
  simp [SameAttribute]

theorem sameAttribute_map {α : Type} {words : α → String} (hwords : Function.Injective words)
    {a b : Option α} :
    SameAttribute (a.map fun a => text (words a)) (b.map fun b => text (words b)) ↔ a = b := by
  cases a <;> cases b <;> simp [SameAttribute, hwords.eq_iff]

@[simp] theorem sameAttribute_map_text {a b : Option String} :
    SameAttribute (a.map text) (b.map text) ↔ a = b := sameAttribute_map Function.injective_id

@[simp] theorem lookup_given (other : String) (words : Option String) :
    (given other (ofText? words)).lookup key = if key = other then words.map text else none := by
  cases words with
  | none => simp [given, ofText?, isNull]
  | some s => by_cases h : key = other <;> simp [given, ofText?, isNull, h]

@[simp] theorem lookup_visibilityEntry (visibility : Option Visibility) :
    (visibilityEntry visibility).lookup key =
      if key = "visibility" then visibility.map fun v => text (String.singleton v.mark)
      else none := by
  cases visibility with
  | none => simp [visibilityEntry]
  | some v => by_cases h : key = "visibility" <;> simp [visibilityEntry, h]

end ClassDiagram.Value
