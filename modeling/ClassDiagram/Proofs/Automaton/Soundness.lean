import ClassDiagram.Proofs.Automaton.Body

/-!
# What the automaton has read

Every state is the outcome of what has been read so far: complete entities, and then the beginning
of one.  Each step keeps this invariant, and where a document may end, what has been read is a
document.
-/

namespace ClassDiagram

open Phrase

namespace Grammar

/-- The body of a class, once it is closed, is that of a class. -/
theorem OpenClass.Reads.class {word name opening closing : Token} {run : List Token}
    {c : ClassDeclaration} (h : OpenClass.Reads name.value word.place run ⟨c, .between⟩)
    (hword : word.kind = .classWord) (hname : name.kind = .identifier)
    (hopening : opening.kind = .leftBrace) (hclosing : closing.kind = .rightBrace) :
    ClassPhrase (word :: name :: opening :: run ++ [closing]) c := by
  cases h with
  | intro hmembers hpart =>
  cases hpart
  rw [List.append_nil]
  exact .body hword hname hopening hmembers hclosing

/-- A relationship up to its target. -/
inductive RelationshipHead : List Token → Relationship → Prop
  | intro {source operator target : Token} {kind : RelationshipKind} {left right : List Token}
      {leftLabel rightLabel : Option String} (hsource : source.kind = .identifier)
      (hleft : Maybe (TextOf .quotation) left leftLabel)
      (hoperator : operator.kind = .operator kind)
      (hright : Maybe (TextOf .quotation) right rightLabel) (htarget : target.kind = .identifier) :
      RelationshipHead (source :: left ++ operator :: right ++ [target])
        { name := source.value ++ " " ++ operator.value ++ " " ++ target.value
          source := source.value
          target := target.value
          kind
          operator := operator.value
          leftLabel
          rightLabel
          place := source.place }

namespace RelationshipHead

variable {run more : List Token} {r : Relationship}

theorem relationship (h : RelationshipHead run r) {middleLabel : Option String}
    (hmiddle : Maybe (Led .colon (TextOf .quotation)) more middleLabel) :
    RelationshipPhrase (run ++ more) { r with middleLabel } := by
  obtain ⟨hsource, hleft, hoperator, hright, htarget⟩ := h
  rw [List.append_assoc]
  exact .intro hsource hleft hoperator hright htarget hmiddle

theorem complete (h : RelationshipHead run r) : RelationshipPhrase run r := by
  have hrelationship := h.relationship .missing
  obtain ⟨hsource, hleft, hoperator, hright, htarget⟩ := h
  rw [← List.append_nil (_ ++ _)]
  exact hrelationship

end RelationshipHead

/-- A label as the token for its string says it. -/
def labelOf (raw : List Char) : String := String.ofList (unquote raw)

/-- The tokens of a document since its last complete entity. -/
inductive DocumentPart.Reads : List Token → DocumentPart → Prop
  | between : Reads [] .between
  | classWord {word : Token} (hword : word.kind = .classWord) : Reads [word] (.classWord word.place)
  | className {word name : Token} (hword : word.kind = .classWord)
      (hname : name.kind = .identifier) :
      Reads [word, name] (.className { name := name.value, place := word.place })
  | body {word name opening : Token} {run : List Token} {part : OpenClass}
      (hword : word.kind = .classWord) (hname : name.kind = .identifier)
      (hopening : opening.kind = .leftBrace) (hpart : part.Reads name.value word.place run) :
      Reads (word :: name :: opening :: run) (.body part)
  | interfaceWord {word : Token} (hword : word.kind = .interfaceWord) :
      Reads [word] (.interfaceWord word.place)
  | source {source : Token} {name : List Char} {run : List Token} {left : Option (List Char)}
      (hsource : source.kind = .identifier) (hname : source.value = String.ofList name)
      (hleft : Maybe (TextOf .quotation) run (left.map labelOf)) :
      Reads (source :: run) (.source name left source.place)
  | operator {source operator : Token} {name : List Char} {run more : List Token} {o : Operator}
      {left right : Option (List Char)} (hsource : source.kind = .identifier)
      (hname : source.value = String.ofList name)
      (hleft : Maybe (TextOf .quotation) run (left.map labelOf))
      (hoperator : operator.kind = .operator o.kind) (hspelling : operator.value = o.text)
      (hright : Maybe (TextOf .quotation) more (right.map labelOf)) :
      Reads (source :: run ++ operator :: more) (.operator name left source.place o right)
  | target {run : List Token} {r : Relationship} (h : RelationshipHead run r) :
      Reads run (.target r)
  | middle {run : List Token} {r : Relationship} {colon : Token} (h : RelationshipHead run r)
      (hcolon : colon.kind = .colon) : Reads (run ++ [colon]) (.middle r)

namespace State

/-- The tokens of a document under way. -/
inductive Reads : List Token → State → Prop
  | intro {run more : List Token} {done : List Entity} {part : DocumentPart}
      (hdone : Many EntityPhrase run done) (hpart : part.Reads more) :
      Reads (run ++ more) ⟨done, part⟩

theorem step?_body {done : List Entity} {part : OpenClass} {x : Lexeme} {s : State}
    (h : step? ⟨done, .body part⟩ x = some s) :
    (∃ part', part.step? x = some part' ∧ s = ⟨done, .body part'⟩) ∨
    ∃ c, part.complete? = some c ∧ x.terminal = .rightBrace ∧
      s = ⟨done ++ [.classDeclaration c], .between⟩ := by
  obtain ⟨⟨t, content⟩, offset, origin⟩ := x
  by_cases hbrace : t = .rightBrace
  · subst hbrace
    obtain ⟨next, hnext, rfl⟩ := Option.map_eq_some_iff.mp h
    obtain ⟨c, hc, rfl⟩ := Option.map_eq_some_iff.mp hnext
    exact .inr ⟨c, hc, rfl, rfl⟩
  · have hshift : State.shift? ⟨done, .body part⟩ t =
        (part.shift? t).map fun next content place => ⟨done, .body (next content place)⟩ := by
      cases t <;> first | rfl | exact absurd rfl hbrace
    simp only [step?, hshift, Option.map_map, Option.map_eq_some_iff] at h
    obtain ⟨next, hnext, rfl⟩ := h
    exact .inl ⟨next content origin, by simp [OpenClass.step?, hnext], rfl⟩

/-- A class has its body behind its name; all else is left to the next entity. -/
theorem step?_className {done : List Entity} {c : ClassDeclaration} {x : Lexeme} {s : State}
    (h : step? ⟨done, .className c⟩ x = some s) :
    (x.terminal = .leftBrace ∧ s = ⟨done, .body ⟨c, .between⟩⟩) ∨
      step? ⟨done ++ [.classDeclaration c], .between⟩ x = some s := by
  obtain ⟨⟨t, content⟩, offset, origin⟩ := x
  by_cases hbrace : t = .leftBrace
  · subst hbrace
    cases h
    exact .inl ⟨rfl, rfl⟩
  · right
    cases t <;> first | exact h | exact absurd rfl hbrace

theorem step?_target {done : List Entity} {r : Relationship} {x : Lexeme} {s : State}
    (h : step? ⟨done, .target r⟩ x = some s) :
    (x.terminal = .colon ∧ s = ⟨done, .middle r⟩) ∨
      step? ⟨done ++ [.relationship r], .between⟩ x = some s := by
  obtain ⟨⟨t, content⟩, offset, origin⟩ := x
  by_cases hcolon : t = .colon
  · subst hcolon
    cases h
    exact .inl ⟨rfl, rfl⟩
  · right
    cases t <;> first | exact h | exact absurd rfl hcolon

/-- After the source of a relationship, its left label and its operator are read. -/
theorem reads_of_source {done : List Entity} {source : Token} {name : List Char}
    {run : List Token} {left : Option (List Char)} (hsource : source.kind = .identifier)
    (hname : source.value = String.ofList name)
    (hleft : Maybe (TextOf .quotation) run (left.map labelOf)) {x : Lexeme} {s : State}
    (hx : step? ⟨done, .source name left source.place⟩ x = some s) :
    ∃ part, s = ⟨done, part⟩ ∧ part.Reads (source :: run ++ [x.token]) := by
  obtain ⟨⟨t, content⟩, offset, origin⟩ := x
  cases left with
  | none =>
      cases hleft
      cases t <;> cases hx
      · exact ⟨_, rfl, .source hsource hname (.given (.intro rfl))⟩
      · exact ⟨_, rfl, .operator hsource hname .missing rfl rfl .missing⟩
  | some raw =>
      cases t <;> cases hx
      exact ⟨_, rfl, .operator hsource hname hleft rfl rfl .missing⟩

/-- After its operator, its right label and its target are read. -/
theorem reads_of_operator {done : List Entity} {source operator : Token} {name : List Char}
    {run more : List Token} {o : Operator} {left right : Option (List Char)}
    (hsource : source.kind = .identifier) (hname : source.value = String.ofList name)
    (hleft : Maybe (TextOf .quotation) run (left.map labelOf))
    (hoperator : operator.kind = .operator o.kind) (hspelling : operator.value = o.text)
    (hright : Maybe (TextOf .quotation) more (right.map labelOf)) {x : Lexeme} {s : State}
    (hx : step? ⟨done, .operator name left source.place o right⟩ x = some s) :
    ∃ part, s = ⟨done, part⟩ ∧ part.Reads (source :: run ++ operator :: more ++ [x.token]) := by
  obtain ⟨⟨t, content⟩, offset, origin⟩ := x
  have hhead {target : Token} (htarget : target.kind = .identifier) :=
    RelationshipHead.intro hsource hleft hoperator hright htarget
  rw [hname, hspelling] at hhead
  cases right with
  | none =>
      cases hright
      cases t <;> cases hx
      · exact ⟨_, rfl, .target (hhead rfl)⟩
      · refine ⟨_, rfl, ?_⟩
        rw [List.append_assoc]
        exact .operator hsource hname hleft hoperator hspelling (.given (.intro rfl))
  | some raw =>
      cases t <;> cases hx
      exact ⟨_, rfl, .target (hhead rfl)⟩

theorem name_of_complete? {s : State} {d : Diagram} (h : s.complete? = some d) :
    d.name = "root" := by
  obtain ⟨done, part⟩ := s
  cases part <;> cases h <;> rfl

namespace Reads

variable {run : List Token} {s s' : State} {x : Lexeme}

theorem of_entity {before more : List Token} {done : List Entity} {e : Entity}
    (hdone : Many EntityPhrase before done) (he : EntityPhrase more e) :
    Reads (before ++ more) ⟨done ++ [e], .between⟩ := by
  rw [← List.append_nil (before ++ more)]
  exact .intro (hdone.concat he) .between

/-- What has been read may be taken as entities as soon as it is complete. -/
theorem complete {d : Diagram} (h : Reads run s) (hd : s.complete? = some d) :
    Reads run ⟨d.entities, .between⟩ := by
  cases h with
  | @intro before more done part hdone hpart =>
  cases hpart with
  | between =>
      cases hd
      exact .intro hdone .between
  | className hword hname =>
      cases hd
      exact .of_entity hdone (.classDeclaration (.bare hword hname))
  | target h =>
      cases hd
      exact .of_entity hdone (.relationship h.complete)
  | _ => cases hd

theorem begin {done : List Entity} (h : Reads run ⟨done, .between⟩)
    (hx : step? ⟨done, .between⟩ x = some s') : Reads (run ++ [x.token]) s' := by
  obtain ⟨⟨t, content⟩, offset, origin⟩ := x
  cases h with
  | @intro before more _ _ hdone hpart =>
  cases hpart
  rw [List.append_nil]
  cases t <;> cases hx
  · exact .intro hdone (.classWord rfl)
  · exact .intro hdone (.interfaceWord rfl)
  · exact .intro hdone (.source rfl rfl .missing)

theorem step_of_complete {d : Diagram} (h : Reads run s) (hd : s.complete? = some d)
    (hx : step? ⟨d.entities, .between⟩ x = some s') : Reads (run ++ [x.token]) s' :=
  (h.complete hd).begin hx

/-- A step keeps the invariant. -/
theorem step (h : Reads run s) (hx : s.step? x = some s') : Reads (run ++ [x.token]) s' := by
  cases h with
  | @intro before more done part hdone hpart =>
  -- A part that may end its entity also goes on with the next entity.
  have hwhole : Reads (before ++ more) ⟨done, part⟩ := .intro hdone hpart
  have hstay {part' : DocumentPart} (hpart' : part'.Reads (more ++ [x.token])) :
      Reads (before ++ more ++ [x.token]) ⟨done, part'⟩ := by
    rw [List.append_assoc]
    exact .intro hdone hpart'
  cases hpart with
  | between => exact hwhole.step_of_complete rfl hx
  | classWord hword =>
      obtain ⟨⟨t, content⟩, offset, origin⟩ := x
      cases t <;> cases hx
      have hname : (Lexeme.token ⟨⟨.name, content⟩, offset, origin⟩).kind = .identifier := rfl
      exact hstay (.className hword hname)
  | className hword hname =>
      rcases step?_className hx with ⟨hbrace, rfl⟩ | hx'
      · have hopening := Symbol.kind_of_terminal hbrace fun _ => rfl
        exact hstay (.body hword hname hopening (.intro .nil .between))
      · exact hwhole.step_of_complete rfl hx'
  | body hword hname hopening hpart =>
      rcases step?_body hx with ⟨part', hx', rfl⟩ | ⟨c, hc, hclosing, rfl⟩
      · exact hstay (.body hword hname hopening (hpart.step hx'))
      · rw [List.append_assoc]
        refine .of_entity hdone (.classDeclaration ?_)
        have hkind := Symbol.kind_of_terminal hclosing fun _ => rfl
        exact (hpart.complete hc).class hword hname hopening hkind
  | interfaceWord hword =>
      obtain ⟨⟨t, content⟩, offset, origin⟩ := x
      cases t <;> cases hx
      have hname : (Lexeme.token ⟨⟨.name, content⟩, offset, origin⟩).kind = .identifier := rfl
      rw [List.append_assoc]
      exact .of_entity hdone (.interfaceDeclaration (.intro hword hname))
  | source hsource hname hleft =>
      obtain ⟨part, rfl, hpart⟩ := reads_of_source hsource hname hleft hx
      exact hstay hpart
  | operator hsource hname hleft hoperator hspelling hright =>
      obtain ⟨part, rfl, hpart⟩ :=
        reads_of_operator hsource hname hleft hoperator hspelling hright hx
      exact hstay hpart
  | target h =>
      rcases step?_target hx with ⟨hcolon, rfl⟩ | hx'
      · exact hstay (.middle h (Symbol.kind_of_terminal hcolon fun _ => rfl))
      · exact hwhole.step_of_complete rfl hx'
  | middle h hcolon =>
      obtain ⟨⟨t, content⟩, offset, origin⟩ := x
      cases t <;> cases hx
      have hlabel : (Lexeme.token ⟨⟨.string, content⟩, offset, origin⟩).kind = .quotation := rfl
      have hrelationship := h.relationship (.given (.intro hcolon (.intro hlabel)))
      rw [List.append_assoc, List.append_assoc]
      exact .of_entity hdone (.relationship hrelationship)

/-- The invariant holds after every run. -/
theorem steps {xs : List Lexeme} (h : Reads run s) (hxs : s.steps? xs = some s') :
    Reads (run ++ xs.map Lexeme.token) s' := by
  induction xs generalizing run s with
  | nil =>
      cases hxs
      simpa using h
  | cons x xs ih =>
      obtain ⟨s₁, hx, hmore⟩ := Option.bind_eq_some_iff.mp hxs
      simpa using ih (h.step hx) hmore

/-- Where a document may end, it has been read. -/
theorem document {d : Diagram} (h : Reads run s) (hd : s.complete? = some d) :
    DocumentPhrase run d := by
  obtain ⟨entities, name⟩ := d
  obtain rfl : name = "root" := name_of_complete? hd
  cases h.complete hd with
  | intro hdone hpart =>
  cases hpart
  rw [List.append_nil]
  exact .intro hdone

end Reads

theorem reads_start : Reads [] start := .intro .nil .between

end State

end Grammar

end ClassDiagram
