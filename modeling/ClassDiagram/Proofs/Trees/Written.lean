import ClassDiagram.Proofs.Lexing.Spelled

/-!
# Declarations as they are written

Fields and methods are written without more blanks than are wanted: a marker stands right before a
name, and a colon right after it.  What is written spells the tokens of the declaration, with commas
between parameters, whatever the names are: no name goes on over a mark, and no marker of visibility
goes on over a name.
-/

namespace ClassDiagram

open Token Phrase

/-- The tokens of a method as it is written, with commas between its parameters. -/
def Method.writtenTokens (m : Method) : List Token :=
  head m.visibility m.name ++
    (fixed .leftParenthesis :: ([fixed .comma].intercalate (m.parameters.map Field.tokens) ++
      [fixed .rightParenthesis])) ++
    maybe (fun text => fixed .colon :: ofType text) m.returnType

def Member.writtenTokens : Member → List Token
  | field f => f.tokens
  | method m => m.writtenTokens

/-! ## Texts -/

namespace Token.Spells

theorem writtenAfter {introduction : List Char} {o : Option String} {tokens : String → List Token}
    (h : ∀ text ∈ o, Spells (introduction ++ text.toList) (tokens text)) :
    Spells (ClassDiagram.writtenAfter introduction o) (maybe tokens o) := by
  cases o with
  | none => exact nil
  | some text => exact h text rfl

theorem ascription {o : Option String} (h : ∀ text ∈ o, IsTypeName text) :
    Spells (ClassDiagram.writtenAfter [':', ' '] o)
      (maybe (fun text => fixed .colon :: ofType text) o) := by
  refine writtenAfter fun text htext => ?_
  exact mark rfl (by decide) (blank (by decide) (typeName (h text htext)))

theorem defaultValue {o : Option String} (h : ∀ text ∈ o, IsName text) :
    Spells (ClassDiagram.writtenAfter [' ', '=', ' '] o)
      (maybe (fun text => [fixed .equals, named text]) o) := by
  refine writtenAfter fun text htext => ?_
  exact blank (by decide) (mark rfl (by decide) (blank (by decide) (name (h text htext))))

theorem head {name : String} (h : IsName name) (visibility : Option Visibility) :
    Spells ((visibility.map Visibility.mark).toList ++ name.toList)
      (Token.head visibility name) := by
  cases visibility with
  | none => exact Spells.name h
  | some v =>
      have hfirst : ∀ c ∈ name.toList.head?, Text.isWordChar c = true :=
        fun c hc => h.word c (List.mem_of_mem_head? hc)
      exact marker v hfirst h.ne_nil (Spells.name h)

end Token.Spells

theorem Token.edge_writtenAfter {introduction : List Char} (h : ∀ text, Edge (introduction ++ text))
    (o : Option String) : Edge (writtenAfter introduction o) := by
  cases o with
  | none => exact edge_nil
  | some text => exact h text.toList

theorem Field.WellFormed.spells {f : Field} (h : f.WellFormed) : Spells f.written f.tokens := by
  have htype := Spells.ascription h.valueType
  have hdefault := Spells.defaultValue h.defaultValue
  have htypeEdge : Edge (writtenAfter [':', ' '] f.valueType) :=
    edge_writtenAfter (fun text => edge_cons (by decide) (' ' :: text)) _
  have hdefaultEdge : Edge (writtenAfter [' ', '=', ' '] f.defaultValue) :=
    edge_writtenAfter (fun text => edge_cons (by decide) ('=' :: ' ' :: text)) _
  have htyped := (Spells.head h.name f.visibility).append htype htypeEdge
  have hall := htyped.append hdefault hdefaultEdge
  rwa [List.append_assoc (Token.head f.visibility f.name)] at hall

theorem Method.WellFormed.spells {m : Method} (h : m.WellFormed) :
    Spells m.written m.writtenTokens := by
  have hcomma : ∀ {text tokens}, Spells text tokens →
      Spells ([',', ' '] ++ text) ([fixed .comma] ++ tokens) :=
    fun h => .mark rfl (by decide) (.blank (by decide) h)
  have hparameters : Spells ([',', ' '].intercalate (m.parameters.map Field.written))
      ([fixed .comma].intercalate (m.parameters.map Field.tokens)) :=
    Spells.intercalate hcomma (fun text => edge_cons (by decide) (' ' :: text))
      fun f hf => (h.parameters f hf).1.spells
  have hclosing : Spells [')'] [fixed .rightParenthesis] := .mark rfl (by decide) .nil
  have hsignature := Spells.mark (c := '(') rfl (by decide)
    (hparameters.append hclosing (edge_cons (by decide) []))
  have hreturn := Spells.ascription h.returnType
  have hreturnEdge : Edge (writtenAfter [':', ' '] m.returnType) :=
    edge_writtenAfter (fun text => edge_cons (by decide) (' ' :: text)) _
  have hhead := Spells.head h.name m.visibility
  exact (hhead.append hsignature (edge_cons (by decide) _)).append hreturn hreturnEdge

theorem Member.WellFormed.spells {m : Member} (h : m.WellFormed) :
    Spells m.written m.writtenTokens := by
  cases m with
  | field f => exact Field.WellFormed.spells h
  | method m => exact Method.WellFormed.spells h

/-! ## Phrases -/

theorem Phrase.many_parameters {parameters : List Field}
    (h : ∀ f ∈ parameters, f.WellFormed ∧ f.visibility = none) :
    Many ParameterPhrase ([fixed .comma].intercalate (parameters.map Field.tokens))
      (parameters.map Field.unplaced) := by
  induction parameters with
  | nil => exact .nil
  | cons f parameters ih =>
      obtain ⟨⟨hf, hvisibility⟩, hparameters⟩ := List.forall_mem_cons.mp h
      cases parameters with
      | nil => simpa using Many.single (hf.parameterPhrase hvisibility .missing)
      | cons g parameters =>
          have hcomma : Maybe (TextOf .comma) [fixed .comma] _ := .given (.intro rfl)
          have hall := Many.cons (hf.parameterPhrase hvisibility hcomma) (ih hparameters)
          simpa only [List.map_cons, List.intercalate_cons_cons] using hall

theorem Member.WellFormed.writtenPhrase {m : Member} (h : m.WellFormed) :
    MemberPhrase m.writtenTokens m.unplaced := by
  cases m with
  | field f => exact Member.WellFormed.phrase h
  | method m =>
      have hm : m.WellFormed := h
      have hreturn := linear_ascription.phrase hm.returnType
      have hrest : MethodRestPhrase m.name m.visibility .nowhere
          (fixed .leftParenthesis :: _ ++ fixed .rightParenthesis :: _) m.unplaced :=
        .intro rfl (many_parameters hm.parameters) rfl hreturn
      have hmember := (MemberRestPhrase.method hrest).phrase_head
      simpa [writtenTokens, Method.writtenTokens, unplaced] using hmember

end ClassDiagram
