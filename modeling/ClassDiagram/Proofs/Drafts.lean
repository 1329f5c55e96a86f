import ClassDiagram.Draft
import Mathlib.Data.List.Forall2

/-!
# Drafts and their records

A draft is listed in preorder: a node before its children, and each child with all below it before
the next.  If all that is listed are nodes, the draft has a record that portrays it: at every level
the kind comes first, and there is one record for each child, in the order of the children.
Otherwise there is an error, and what it blames is the first foreign value of the list.
-/

namespace ClassDiagram.Draft

open Value

variable {α : Type} {c d x : Draft α} {ds es : List (Draft α)} {e : NotANode α} {v : Value}
  {vs : List Value}

/-! ## Nodes and their children -/

/-- What the record of a node has for its type.  A foreign value is of no kind. -/
def kind? : Draft α → Option String
  | foreign _ => none
  | diagram .. => some "ROOT"
  | classDeclaration .. => some "CLASS"
  | interfaceDeclaration .. => some "INTERFACE"
  | field .. => some "FIELD"
  | method .. => some "METHOD"
  | relationship .. => some "RELATIONSHIP"

def IsNode (d : Draft α) : Prop := d.kind?.isSome

/-- The children of a node that may have some, with the key under which its record lists theirs. -/
def slot? : Draft α → Option (String × List (Draft α))
  | diagram _ entities => some ("entities", entities)
  | classDeclaration _ members _ _ => some ("members", members)
  | method _ _ parameters _ _ _ => some ("parameters", parameters)
  | _ => none

def children (d : Draft α) : List (Draft α) := d.slot?.elim [] Prod.snd

mutual

/-- All that a draft reaches, depth first and from left to right. -/
def listing : Draft α → List (Draft α)
  | foreign value => [foreign value]
  | diagram name entities => diagram name entities :: listings entities
  | classDeclaration name members line column =>
    classDeclaration name members line column :: listings members
  | interfaceDeclaration name line column => [interfaceDeclaration name line column]
  | field name visibility valueType defaultValue line column =>
    [field name visibility valueType defaultValue line column]
  | method name visibility parameters returnType line column =>
    method name visibility parameters returnType line column :: listings parameters
  | relationship name source target kind operator left middle right line column =>
    [relationship name source target kind operator left middle right line column]

def listings : List (Draft α) → List (Draft α)
  | [] => []
  | d :: rest => listing d ++ listings rest

end

/-- The first foreign value of a list has only nodes before it. -/
def FirstForeign (ds : List (Draft α)) (value : α) : Prop :=
  ∃ before after, ds = before ++ foreign value :: after ∧ ∀ x ∈ before, x.IsNode

theorem FirstForeign.append {value : α} (hbefore : ∀ x ∈ es, x.IsNode)
    (h : FirstForeign ds value) (after : List (Draft α)) :
    FirstForeign (es ++ ds ++ after) value := by
  obtain ⟨front, back, rfl, hfront⟩ := h
  refine ⟨es ++ front, back ++ after, by simp, fun x hx => ?_⟩
  rcases List.mem_append.mp hx with hx | hx
  · exact hbefore x hx
  · exact hfront x hx

end ClassDiagram.Draft
