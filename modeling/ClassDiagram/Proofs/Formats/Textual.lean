import ClassDiagram.Record.Shape
import Mathlib.Data.List.Nodup

/-!
# Records that are made of text

What a diagram has for a record is made of text, lists and records, a few levels deep, and no record
in it has two entries under one key.  Formats that gather entries by their keys therefore lose none
of them.
-/

namespace ClassDiagram

namespace Value

/-- Entries with a further one: it takes the place of the entry under the same key, if there is one,
and comes last otherwise. -/
def enter (key : String) (v : Value) : List (String × Value) → List (String × Value)
  | [] => [(key, v)]
  | (other, w) :: rest => if other = key then (key, v) :: rest else (other, w) :: enter key v rest

/-- The record that is gathered from entries one after the other. -/
def gather (entries : List (String × Value)) : Value :=
  record (entries.foldl (fun es e => enter e.1 e.2 es) [])

theorem enter_of_not_mem {key : String} {v : Value} {entries : List (String × Value)}
    (h : key ∉ entries.map Prod.fst) : enter key v entries = entries ++ [(key, v)] := by
  induction entries with
  | nil => rfl
  | cons e rest ih =>
      obtain ⟨other, w⟩ := e
      rw [List.map_cons, List.mem_cons, not_or] at h
      rw [enter, if_neg (Ne.symm h.1), ih h.2]
      rfl

/-- Entries under different keys are all kept, in their order. -/
theorem gather_of_nodup {entries : List (String × Value)} (h : (entries.map Prod.fst).Nodup) :
    gather entries = record entries := by
  have hfold : ∀ before : List (String × Value), ((before ++ entries).map Prod.fst).Nodup →
      entries.foldl (fun es e => enter e.1 e.2 es) before = before ++ entries := by
    clear h
    induction entries with
    | nil => simp
    | cons e rest ih =>
        intro before hnodup
        have hnew : e.1 ∉ before.map Prod.fst := by
          rw [List.map_append, List.nodup_append'] at hnodup
          intro hmem
          exact hnodup.2.2 hmem (List.mem_map_of_mem List.mem_cons_self)
        rw [List.foldl_cons, enter_of_not_mem hnew, ih _ (by simpa using hnodup)]
        simp
  rw [gather, hfold [] h, List.nil_append]

/-- Values made of text, lists and records, at most `n` of them inside each other, where the keys of
a record are different and each is one that there may be. -/
inductive Textual (IsKey : String → Prop) : Nat → Value → Prop
  | text {n : Nat} (s : String) : Textual IsKey n (text s)
  | list {n : Nat} {items : List Value} (h : ∀ v ∈ items, Textual IsKey n v) :
      Textual IsKey (n + 1) (list items)
  | record {n : Nat} {entries : List (String × Value)} (hnodup : (entries.map Prod.fst).Nodup)
      (hkey : ∀ e ∈ entries, IsKey e.1) (h : ∀ e ∈ entries, Textual IsKey n e.2) :
      Textual IsKey (n + 1) (record entries)

/-- The keys of the records of diagrams, in an order that all of these records follow. -/
def attributes : List String :=
  ["type", "name", "entities", "members", "visibility", "value_type", "default", "parameters",
    "return_type", "source_class", "target_class", "relationship_type", "operator", "left_label",
    "middle_label", "right_label"]

/-- Values made of text, with the keys that the records of diagrams have. -/
abbrev Described : Nat → Value → Prop := Textual (· ∈ attributes)

namespace Textual

variable {IsKey : String → Prop} {m n : Nat} {v : Value}

theorem mono (h : Textual IsKey m v) (hle : m ≤ n) : Textual IsKey n v := by
  induction h generalizing n with
  | text s => exact .text s
  | list _ ih =>
      obtain ⟨n, rfl⟩ : ∃ k, n = k + 1 := ⟨n - 1, by omega⟩
      exact .list fun v hv => ih v hv (Nat.le_of_succ_le_succ hle)
  | record hnodup hkey _ ih =>
      obtain ⟨n, rfl⟩ : ∃ k, n = k + 1 := ⟨n - 1, by omega⟩
      exact .record hnodup hkey fun e he => ih e he (Nat.le_of_succ_le_succ hle)

end Textual

theorem nodup_attributes : attributes.Nodup := by decide

/-- Entries with keys of attributes in their order, and described values. -/
structure Entries (n : Nat) (keys : List String) (entries : List (String × Value)) : Prop where
  keys : (entries.map Prod.fst).Sublist keys
  values : ∀ e ∈ entries, Described n e.2

namespace Entries

variable {n : Nat} {keys keys' : List String} {entries entries' : List (String × Value)}

theorem append (h : Entries n keys entries) (h' : Entries n keys' entries') :
    Entries n (keys ++ keys') (entries ++ entries') where
  keys := by
    rw [List.map_append]
    exact h.keys.append h'.keys
  values := by
    intro e he
    rcases List.mem_append.mp he with he | he
    · exact h.values e he
    · exact h'.values e he

theorem single (key : String) {v : Value} (h : Described n v) : Entries n [key] [(key, v)] where
  keys := List.Sublist.refl _
  values := by
    intro e he
    obtain rfl := List.mem_singleton.mp he
    exact h

theorem cons (key : String) {v : Value} (hv : Described n v) (h : Entries n keys entries) :
    Entries n (key :: keys) ((key, v) :: entries) :=
  (single key hv).append h

theorem given (key : String) (text : Option String) :
    Entries n [key] (given key (ofText? text)) := by
  cases text with
  | none => exact ⟨List.nil_sublist _, by simp [Value.given, ofText?, isNull]⟩
  | some s => exact single key (.text s)

theorem visibility (v : Option Visibility) :
    Entries n ["visibility"] (visibilityEntry v) := by
  cases v with
  | none => exact ⟨List.nil_sublist _, by simp [visibilityEntry]⟩
  | some v => exact single _ (.text _)

theorem described (h : Entries n keys entries) (hkeys : keys.Sublist attributes) :
    Described (n + 1) (.record entries) := by
  have hall := h.keys.trans hkeys
  refine .record (hall.nodup nodup_attributes) ?_ h.values
  intro e he
  exact hall.subset (List.mem_map_of_mem he)

end Entries

end Value

open Value

theorem Field.described_toRecord (f : Field) : Described 1 f.toRecord := by
  have head : Entries 0 ["type", "name"] [("type", .text "FIELD"), ("name", .text f.name)] :=
    .cons _ (.text _) (.single _ (.text _))
  have typed := (head.append (.visibility f.visibility)).append (.given "value_type" f.valueType)
  have all := typed.append (.given "default" f.defaultValue)
  exact all.described (by decide)

theorem Method.described_toRecord (m : Method) : Described 3 m.toRecord := by
  have head : Entries 2 ["type", "name"] [("type", .text "METHOD"), ("name", .text m.name)] :=
    .cons _ (.text _) (.single _ (.text _))
  have parameters : Described 2 (.list (m.parameters.map Field.toRecord)) := by
    refine .list fun v hv => ?_
    obtain ⟨f, -, rfl⟩ := List.mem_map.mp hv
    exact f.described_toRecord
  have called := (head.append (.visibility m.visibility)).append (.single "parameters" parameters)
  have all := called.append (.given "return_type" m.returnType)
  exact all.described (by decide)

theorem Member.described_toRecord (m : Member) : Described 3 m.toRecord := by
  cases m with
  | field f => exact f.described_toRecord.mono (by decide)
  | method m => exact m.described_toRecord

theorem ClassDeclaration.described_toRecord (c : ClassDeclaration) : Described 5 c.toRecord := by
  have members : Described 4 (.list (c.members.map Member.toRecord)) := by
    refine .list fun v hv => ?_
    obtain ⟨m, -, rfl⟩ := List.mem_map.mp hv
    exact m.described_toRecord
  have all : Entries 4 ["type", "name", "members"] _ :=
    .cons "type" (.text "CLASS") (.cons "name" (.text c.name) (.single "members" members))
  exact all.described (by decide)

theorem InterfaceDeclaration.described_toRecord (i : InterfaceDeclaration) :
    Described 1 i.toRecord := by
  have all : Entries 0 ["type", "name"] _ :=
    .cons "type" (.text "INTERFACE") (.single "name" (.text i.name))
  exact all.described (by decide)

theorem Relationship.described_toRecord (r : Relationship) : Described 1 r.toRecord := by
  have head : Entries 0
      ["type", "name", "source_class", "target_class", "relationship_type", "operator"] _ :=
    .cons "type" (.text "RELATIONSHIP") (.cons "name" (.text r.name)
      (.cons "source_class" (.text r.source) (.cons "target_class" (.text r.target)
        (.cons "relationship_type" (.text r.kind.name) (.single "operator" (.text r.operator))))))
  have all := ((head.append (.given "left_label" r.leftLabel)).append
    (.given "middle_label" r.middleLabel)).append (.given "right_label" r.rightLabel)
  exact all.described (by decide)

theorem Entity.described_toRecord (e : Entity) : Described 5 e.toRecord := by
  cases e with
  | classDeclaration c => exact c.described_toRecord
  | interfaceDeclaration i => exact i.described_toRecord.mono (by decide)
  | relationship r => exact r.described_toRecord.mono (by decide)

/-- The record of a diagram is made of text, in seven levels. -/
theorem Diagram.described_toRecord (d : Diagram) : Described 7 d.toRecord := by
  have entities : Described 6 (.list (d.entities.map Entity.toRecord)) := by
    refine .list fun v hv => ?_
    obtain ⟨e, -, rfl⟩ := List.mem_map.mp hv
    exact e.described_toRecord
  have all : Entries 6 ["type", "name", "entities"] _ :=
    .cons "type" (.text "ROOT") (.cons "name" (.text d.name) (.single "entities" entities))
  exact all.described (by decide)

end ClassDiagram
