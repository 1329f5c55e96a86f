import ClassDiagram.Proofs.Automaton.Viability

/-!
# The productions of the grammar

The grammar as one writes it down: each nonterminal has one production, an expression over terminals
and nonterminals.  What the document derives are exactly the runs of terminals that the automaton
reads to an end.
-/

namespace ClassDiagram.Grammar

/-- The constructs that have a production. -/
inductive Nonterminal where
  | document
  | entity
  | classDeclaration
  | classBody
  | interfaceDeclaration
  | member
  | field
  | method
  | parameters
  | parameter
  | ascription
  | arraySuffix
  | defaultValue
  | relationship
  deriving DecidableEq, Repr

/-- What may stand on the right of a production. -/
inductive Expression where
  | terminal (t : Terminal)
  | nonterminal (n : Nonterminal)
  | sequence (first second : Expression)
  | choice (left right : Expression)
  | optional (e : Expression)
  | repeated (e : Expression)

instance : Append Expression := ⟨.sequence⟩

/-- The production of a nonterminal. -/
def Nonterminal.production : Nonterminal → Expression
  | document => .repeated (.nonterminal entity)
  | entity =>
    .choice (.nonterminal classDeclaration)
      (.choice (.nonterminal interfaceDeclaration) (.nonterminal relationship))
  | classDeclaration =>
    .terminal .classWord ++ .terminal .name ++ .optional (.nonterminal classBody)
  | classBody =>
    .terminal .leftBrace ++ .repeated (.nonterminal member) ++ .terminal .rightBrace
  | interfaceDeclaration => .terminal .interfaceWord ++ .terminal .name
  | member => .choice (.nonterminal field) (.nonterminal method)
  | field =>
    .optional (.terminal .visibility) ++ .terminal .name ++
      .optional (.nonterminal ascription) ++ .optional (.nonterminal defaultValue)
  | method =>
    .optional (.terminal .visibility) ++ .terminal .name ++ .terminal .leftParenthesis ++
      .nonterminal parameters ++ .terminal .rightParenthesis ++
      .optional (.nonterminal ascription)
  | parameters => .repeated (.nonterminal parameter ++ .optional (.terminal .comma))
  | parameter =>
    .terminal .name ++ .optional (.nonterminal ascription) ++
      .optional (.nonterminal defaultValue)
  | ascription =>
    .terminal .colon ++ .terminal .name ++ .optional (.nonterminal arraySuffix)
  | arraySuffix => .terminal .leftBracket ++ .terminal .rightBracket
  | defaultValue => .terminal .equal ++ .terminal .name
  | relationship =>
    .terminal .name ++ .optional (.terminal .string) ++ .terminal .operator ++
      .optional (.terminal .string) ++ .terminal .name ++
      .optional (.terminal .colon ++ .terminal .string)

/-- The runs of terminals that an expression derives. -/
inductive Expression.Derives : Expression → List Terminal → Prop
  | terminal (t : Terminal) : Derives (.terminal t) [t]
  | nonterminal {n : Nonterminal} {ts : List Terminal} (h : Derives n.production ts) :
      Derives (.nonterminal n) ts
  | sequence {first second : Expression} {ts us : List Terminal} (hfirst : Derives first ts)
      (hsecond : Derives second us) : Derives (.sequence first second) (ts ++ us)
  | left {left right : Expression} {ts : List Terminal} (h : Derives left ts) :
      Derives (.choice left right) ts
  | right {left right : Expression} {ts : List Terminal} (h : Derives right ts) :
      Derives (.choice left right) ts
  | missing {e : Expression} : Derives (.optional e) []
  | given {e : Expression} {ts : List Terminal} (h : Derives e ts) : Derives (.optional e) ts
  | nil {e : Expression} : Derives (.repeated e) []
  | cons {e : Expression} {ts us : List Terminal} (h : Derives e ts)
      (hmore : Derives (.repeated e) us) : Derives (.repeated e) (ts ++ us)

/-- The expression derives just the terminals of phrases. -/
def Expression.Spells {α : Type} (e : Expression) (p : Phrase α) : Prop :=
  ∀ ts, e.Derives ts ↔ ∃ run a, p run a ∧ terminals run = ts

namespace Expression

open Phrase

variable {α : Type} {e f : Expression} {n : Nonterminal} {t : Terminal} {ts : List Terminal}

@[simp] theorem derives_terminal : (terminal t).Derives ts ↔ ts = [t] := by
  constructor
  · rintro ⟨⟩
    rfl
  · rintro rfl
    exact .terminal t

@[simp] theorem derives_sequence :
    (e ++ f).Derives ts ↔ ∃ us vs, e.Derives us ∧ f.Derives vs ∧ us ++ vs = ts := by
  constructor
  · intro h
    cases h with
    | sequence hfirst hsecond => exact ⟨_, _, hfirst, hsecond, rfl⟩
  · rintro ⟨us, vs, hfirst, hsecond, rfl⟩
    exact .sequence hfirst hsecond

theorem derives_choice : (choice e f).Derives ts ↔ e.Derives ts ∨ f.Derives ts := by
  constructor
  · intro h
    cases h with
    | left h => exact .inl h
    | right h => exact .inr h
  · rintro (h | h)
    · exact .left h
    · exact .right h

theorem derives_optional : (optional e).Derives ts ↔ ts = [] ∨ e.Derives ts := by
  constructor
  · intro h
    cases h with
    | missing => exact .inl rfl
    | given h => exact .inr h
  · rintro (rfl | h)
    · exact .missing
    · exact .given h

theorem derives_nonterminal : (nonterminal n).Derives ts ↔ n.production.Derives ts := by
  constructor
  · intro h
    cases h with
    | nonterminal h => exact h
  · exact .nonterminal

theorem Spells.nonterminal {p : Phrase α} (h : n.production.Spells p) :
    (nonterminal n).Spells p := by
  intro ts
  rw [derives_nonterminal]
  exact h ts

theorem spells_text (kind : Token.Kind) : (terminal (terminalOf kind)).Spells (TextOf kind) := by
  intro ts
  rw [derives_terminal]
  constructor
  · rintro rfl
    exact ⟨[⟨kind, "", .nowhere⟩], _, .intro rfl, rfl⟩
  · rintro ⟨_, _, ⟨ht⟩, rfl⟩
    simp [ht]

theorem Spells.led {p : Phrase α} (h : e.Spells p) (kind : Token.Kind) :
    (terminal (terminalOf kind) ++ e).Spells (Led kind p) := by
  intro ts
  rw [derives_sequence]
  constructor
  · rintro ⟨_, vs, hfirst, hsecond, rfl⟩
    obtain rfl := derives_terminal.mp hfirst
    obtain ⟨run, a, hp, rfl⟩ := (h vs).mp hsecond
    exact ⟨⟨kind, "", .nowhere⟩ :: run, a, .intro rfl hp, rfl⟩
  · rintro ⟨_, a, ⟨ht, hp⟩, rfl⟩
    exact ⟨_, _, .terminal _, (h _).mpr ⟨_, _, hp, rfl⟩, by simp [ht]⟩

theorem Spells.maybe {p : Phrase α} (h : e.Spells p) : (optional e).Spells (Maybe p) := by
  intro ts
  constructor
  · intro he
    rcases derives_optional.mp he with rfl | he
    · exact ⟨[], none, .missing, rfl⟩
    · obtain ⟨run, a, hp, rfl⟩ := (h ts).mp he
      exact ⟨run, some a, .given hp, rfl⟩
  · rintro ⟨_, _, _ | hp, rfl⟩
    · exact .missing
    · exact .given ((h _).mpr ⟨_, _, hp, rfl⟩)

theorem Spells.many {p : Phrase α} (h : e.Spells p) : (repeated e).Spells (Many p) := by
  intro ts
  constructor
  · intro he
    -- Only the two ways to derive a repetition remain.
    generalize heq : repeated e = r at he
    induction he with
    | nil => exact ⟨[], [], .nil, rfl⟩
    | cons he _ _ ih =>
        cases heq
        obtain ⟨run, a, hp, rfl⟩ := (h _).mp he
        obtain ⟨more, as, hps, rfl⟩ := ih rfl
        exact ⟨run ++ more, a :: as, .cons hp hps, terminals_append _ _⟩
    | _ => cases heq
  · rintro ⟨run, as, hps, rfl⟩
    induction hps with
    | nil => exact .nil
    | cons hp _ ih =>
        rw [terminals_append]
        exact .cons ((h _).mpr ⟨_, _, hp, rfl⟩) ih

theorem spells_type :
    (terminal .name ++ optional (nonterminal .arraySuffix)).Spells TypePhrase := by
  intro ts
  rw [derives_sequence]
  constructor
  · rintro ⟨_, vs, hname, hsuffix, rfl⟩
    obtain rfl := derives_terminal.mp hname
    rcases derives_optional.mp hsuffix with rfl | hsuffix
    · exact ⟨[⟨.identifier, "", .nowhere⟩], _, .plain rfl, rfl⟩
    · obtain ⟨_, _, hopening, hclosing, rfl⟩ := derives_sequence.mp (derives_nonterminal.mp hsuffix)
      obtain rfl := derives_terminal.mp hopening
      obtain rfl := derives_terminal.mp hclosing
      exact ⟨[⟨.identifier, "", .nowhere⟩, ⟨.leftBracket, "", .nowhere⟩,
        ⟨.rightBracket, "", .nowhere⟩], _, .array rfl rfl rfl, rfl⟩
  · rintro ⟨_, _, hname | ⟨hname, hopening, hclosing⟩, rfl⟩
    · exact ⟨[.name], [], .terminal _, .missing, by simp [hname, terminalOf]⟩
    · have hsuffix : (nonterminal .arraySuffix).Derives [.leftBracket, .rightBracket] :=
        .nonterminal (.sequence (.terminal _) (.terminal _))
      exact ⟨[.name], _, .terminal _, .given hsuffix,
        by simp [hname, hopening, hclosing, terminalOf]⟩

theorem derives_assoc {g : Expression} :
    (e ++ f ++ g).Derives ts ↔ (e ++ (f ++ g)).Derives ts := by
  constructor
  · intro h
    obtain ⟨_, ws, hboth, hg, rfl⟩ := derives_sequence.mp h
    obtain ⟨us, vs, he, hf, rfl⟩ := derives_sequence.mp hboth
    rw [List.append_assoc]
    exact .sequence he (.sequence hf hg)
  · intro h
    obtain ⟨us, _, he, hboth, rfl⟩ := derives_sequence.mp h
    obtain ⟨vs, ws, hf, hg, rfl⟩ := derives_sequence.mp hboth
    rw [← List.append_assoc]
    exact .sequence (.sequence he hf) hg

theorem spells_ascription :
    (optional (nonterminal .ascription)).Spells AscriptionPhrase := by
  apply Spells.maybe
  apply Spells.nonterminal
  intro ts
  rw [Nonterminal.production, derives_assoc]
  exact Spells.led spells_type .colon ts

theorem spells_default : (optional (nonterminal .defaultValue)).Spells DefaultPhrase := by
  apply Spells.maybe
  apply Spells.nonterminal
  exact (spells_text .identifier).led .equals

theorem spells_fieldRest (name : String) (visibility : Option Visibility) (place : Place) :
    (optional (nonterminal .ascription) ++ optional (nonterminal .defaultValue)).Spells
      (FieldRestPhrase name visibility place) := by
  intro ts
  rw [derives_sequence]
  constructor
  · rintro ⟨us, vs, hus, hvs, rfl⟩
    obtain ⟨run, type, htype, rfl⟩ := (spells_ascription us).mp hus
    obtain ⟨more, value, hdefault, rfl⟩ := (spells_default vs).mp hvs
    exact ⟨run ++ more, _, .intro htype hdefault, terminals_append _ _⟩
  · rintro ⟨_, _, ⟨htype, hdefault⟩, rfl⟩
    exact ⟨_, _, (spells_ascription _).mpr ⟨_, _, htype, rfl⟩,
      (spells_default _).mpr ⟨_, _, hdefault, rfl⟩, (terminals_append _ _).symm⟩

theorem spells_parameter :
    (nonterminal .parameter ++ optional (terminal .comma)).Spells ParameterPhrase := by
  have hcomma : (optional (terminal .comma)).Spells (Maybe (TextOf .comma)) :=
    (spells_text .comma).maybe
  intro ts
  rw [derives_sequence]
  constructor
  · rintro ⟨us, vs, hus, hvs, rfl⟩
    rw [derives_nonterminal, Nonterminal.production, derives_assoc, derives_sequence] at hus
    obtain ⟨_, ws, hname, hws, rfl⟩ := hus
    obtain rfl := derives_terminal.mp hname
    obtain ⟨run, f, hrest, rfl⟩ := (spells_fieldRest "" none .nowhere ws).mp hws
    obtain ⟨more, comma, hmore, rfl⟩ := (hcomma vs).mp hvs
    exact ⟨⟨.identifier, "", .nowhere⟩ :: run ++ more, f, .intro rfl hrest hmore,
      by simp [terminalOf]⟩
  · rintro ⟨_, f, @⟨_, run, more, _, _, hname, hrest, hmore⟩, rfl⟩
    have hparameter : (nonterminal .parameter).Derives (.name :: terminals run) := by
      rw [derives_nonterminal, Nonterminal.production, derives_assoc]
      exact .sequence (.terminal _) ((spells_fieldRest _ _ _ _).mpr ⟨_, _, hrest, rfl⟩)
    exact ⟨_, _, hparameter, (hcomma _).mpr ⟨_, _, hmore, rfl⟩, by simp [hname, terminalOf]⟩

theorem spells_parameters : (nonterminal .parameters).Spells (Many ParameterPhrase) := by
  apply Spells.nonterminal
  exact Spells.many spells_parameter

/-- What a member begins with, up to its name. -/
theorem derives_head :
    (optional (terminal .visibility) ++ terminal .name).Derives ts ↔
      ∃ head name visibility place, MemberHead head name visibility place ∧
        terminals head = ts := by
  rw [derives_sequence]
  constructor
  · rintro ⟨us, _, hmark, hname, rfl⟩
    obtain rfl := derives_terminal.mp hname
    rcases derives_optional.mp hmark with rfl | hmark
    · exact ⟨[⟨.identifier, "", .nowhere⟩], _, _, _, .unmarked rfl, rfl⟩
    · obtain rfl := derives_terminal.mp hmark
      exact ⟨[⟨.marker .toAll, "", .nowhere⟩, ⟨.identifier, "", .nowhere⟩], _, _, _,
        .marked rfl rfl, rfl⟩
  · rintro ⟨_, _, _, _, hname | ⟨hmark, hname⟩, rfl⟩
    · exact ⟨[], [.name], .missing, .terminal _, by simp [hname, terminalOf]⟩
    · exact ⟨[.visibility], [.name], .given (.terminal _), .terminal _,
        by simp [hmark, hname, terminalOf]⟩

theorem exists_head_of_member {run : List Token} {m : Member} (h : MemberPhrase run m) :
    ∃ head rest name visibility place, run = head ++ rest ∧
      MemberHead head name visibility place ∧ MemberRestPhrase name visibility place rest m := by
  cases h with
  | unmarked hname hrest => exact ⟨[_], _, _, _, _, rfl, .unmarked hname, hrest⟩
  | marked hmark hname hrest => exact ⟨[_, _], _, _, _, _, rfl, .marked hmark hname, hrest⟩

theorem derives_field :
    (nonterminal .field).Derives ts ↔ ∃ head rest name visibility place f,
      MemberHead head name visibility place ∧ FieldRestPhrase name visibility place rest f ∧
        terminals (head ++ rest) = ts := by
  rw [derives_nonterminal, Nonterminal.production, derives_assoc, derives_sequence]
  constructor
  · rintro ⟨us, vs, hus, hvs, rfl⟩
    obtain ⟨head, name, visibility, place, hhead, rfl⟩ := derives_head.mp hus
    obtain ⟨rest, f, hrest, rfl⟩ := (spells_fieldRest name visibility place vs).mp hvs
    exact ⟨head, rest, name, visibility, place, f, hhead, hrest, terminals_append _ _⟩
  · rintro ⟨head, rest, name, visibility, place, f, hhead, hrest, rfl⟩
    exact ⟨_, _, derives_head.mpr ⟨_, _, _, _, hhead, rfl⟩,
      (spells_fieldRest _ _ _ _).mpr ⟨_, _, hrest, rfl⟩, (terminals_append _ _).symm⟩

theorem derives_method :
    (nonterminal .method).Derives ts ↔ ∃ head rest name visibility place m,
      MemberHead head name visibility place ∧ MethodRestPhrase name visibility place rest m ∧
        terminals (head ++ rest) = ts := by
  rw [derives_nonterminal, Nonterminal.production]
  constructor
  · intro h
    obtain ⟨_, ws, h₁, hreturn, rfl⟩ := derives_sequence.mp h
    obtain ⟨_, _, h₂, hclosing, rfl⟩ := derives_sequence.mp h₁
    obtain ⟨_, vs, h₃, hparameters, rfl⟩ := derives_sequence.mp h₂
    obtain ⟨us, _, hus, hopening, rfl⟩ := derives_sequence.mp h₃
    obtain rfl := derives_terminal.mp hopening
    obtain rfl := derives_terminal.mp hclosing
    obtain ⟨head, name, visibility, place, hhead, rfl⟩ := derives_head.mp hus
    obtain ⟨run, parameters, hrun, rfl⟩ := (spells_parameters vs).mp hparameters
    obtain ⟨more, type, hmore, rfl⟩ := (spells_ascription ws).mp hreturn
    refine ⟨head,
      ⟨.leftParenthesis, "", .nowhere⟩ :: run ++ ⟨.rightParenthesis, "", .nowhere⟩ :: more,
      name, visibility, place, _, hhead, .intro rfl hrun rfl hmore, ?_⟩
    simp [terminalOf]
  · rintro ⟨head, _, name, visibility, place, _, hhead,
      @⟨opening, closing, run, more, _, _, hopening, hparameters, hclosing, hreturn⟩, rfl⟩
    have hhead := derives_head.mpr ⟨_, _, _, _, hhead, rfl⟩
    have hrun := (spells_parameters _).mpr ⟨_, _, hparameters, rfl⟩
    have hmore := (spells_ascription _).mpr ⟨_, _, hreturn, rfl⟩
    have hall : terminals (head ++ (opening :: run ++ closing :: more)) =
        terminals head ++ [.leftParenthesis] ++ terminals run ++ [.rightParenthesis] ++
          terminals more := by
      simp [hopening, hclosing, terminalOf]
    rw [hall]
    exact .sequence (.sequence (.sequence (.sequence hhead (.terminal _)) hrun) (.terminal _)) hmore

theorem spells_member : (nonterminal .member).Spells MemberPhrase := by
  apply Spells.nonterminal
  intro ts
  constructor
  · intro hmember
    rcases derives_choice.mp hmember with h | h
    · obtain ⟨head, rest, name, visibility, place, f, hhead, hrest, rfl⟩ := derives_field.mp h
      exact ⟨head ++ rest, _, hhead.member (.field hrest), rfl⟩
    · obtain ⟨head, rest, name, visibility, place, m, hhead, hrest, rfl⟩ := derives_method.mp h
      exact ⟨head ++ rest, _, hhead.member (.method hrest), rfl⟩
  · rintro ⟨_, m, hmember, rfl⟩
    obtain ⟨head, rest, name, visibility, place, rfl, hhead, hrest⟩ := exists_head_of_member hmember
    cases hrest with
    | field hrest => exact .left (derives_field.mpr ⟨_, _, _, _, _, _, hhead, hrest, rfl⟩)
    | method hrest => exact .right (derives_method.mpr ⟨_, _, _, _, _, _, hhead, hrest, rfl⟩)

theorem spells_members : (repeated (nonterminal .member)).Spells (Many MemberPhrase) :=
  Spells.many spells_member

theorem spells_class : (nonterminal .classDeclaration).Spells ClassPhrase := by
  apply Spells.nonterminal
  intro ts
  rw [Nonterminal.production, derives_sequence]
  constructor
  · rintro ⟨_, _, hhead, hbody, rfl⟩
    obtain ⟨_, _, hword, hname, rfl⟩ := derives_sequence.mp hhead
    obtain rfl := derives_terminal.mp hword
    obtain rfl := derives_terminal.mp hname
    rcases derives_optional.mp hbody with rfl | hbody
    · exact ⟨[⟨.classWord, "", .nowhere⟩, ⟨.identifier, "", .nowhere⟩], _, .bare rfl rfl, rfl⟩
    · obtain ⟨_, _, hopen, hclosing, rfl⟩ := derives_sequence.mp (derives_nonterminal.mp hbody)
      obtain ⟨_, us, hopening, hus, rfl⟩ := derives_sequence.mp hopen
      obtain rfl := derives_terminal.mp hopening
      obtain rfl := derives_terminal.mp hclosing
      obtain ⟨run, members, hmembers, rfl⟩ := (spells_members us).mp hus
      refine ⟨⟨.classWord, "", .nowhere⟩ :: ⟨.identifier, "", .nowhere⟩ ::
        ⟨.leftBrace, "", .nowhere⟩ :: run ++ [⟨.rightBrace, "", .nowhere⟩], _,
        .body rfl rfl rfl hmembers rfl, ?_⟩
      simp [terminalOf]
  · have hhead : (terminal .classWord ++ terminal .name).Derives [.classWord, .name] :=
      .sequence (.terminal _) (.terminal _)
    rintro ⟨_, _, ⟨hword, hname⟩ |
      @⟨_, _, _, _, run, _, hword, hname, hopening, hmembers, hclosing⟩, rfl⟩
    · exact ⟨_, [], hhead, .missing, by simp [hword, hname, terminalOf]⟩
    · have hrun := (spells_members _).mpr ⟨_, _, hmembers, rfl⟩
      have hbody : (nonterminal .classBody).Derives
          ([.leftBrace] ++ terminals run ++ [.rightBrace]) :=
        .nonterminal (.sequence (.sequence (.terminal _) hrun) (.terminal _))
      exact ⟨_, _, hhead, .given hbody, by simp [hword, hname, hopening, hclosing, terminalOf]⟩

theorem spells_interface : (nonterminal .interfaceDeclaration).Spells InterfacePhrase := by
  apply Spells.nonterminal
  intro ts
  rw [Nonterminal.production, derives_sequence]
  constructor
  · rintro ⟨_, _, hword, hname, rfl⟩
    obtain rfl := derives_terminal.mp hword
    obtain rfl := derives_terminal.mp hname
    exact ⟨[⟨.interfaceWord, "", .nowhere⟩, ⟨.identifier, "", .nowhere⟩], _, .intro rfl rfl, rfl⟩
  · rintro ⟨_, _, ⟨hword, hname⟩, rfl⟩
    exact ⟨[_], [_], .terminal _, .terminal _, by simp [hword, hname, terminalOf]⟩

theorem spells_relationship : (nonterminal .relationship).Spells RelationshipPhrase := by
  have hlabel : (optional (terminal .string)).Spells (Maybe (TextOf .quotation)) :=
    (spells_text .quotation).maybe
  have hlast : (optional (terminal .colon ++ terminal .string)).Spells
      (Maybe (Led .colon (TextOf .quotation))) :=
    ((spells_text .quotation).led .colon).maybe
  apply Spells.nonterminal
  intro ts
  rw [Nonterminal.production]
  constructor
  · intro h
    obtain ⟨_, ws, h₁, hmiddle, rfl⟩ := derives_sequence.mp h
    obtain ⟨_, _, h₂, htarget, rfl⟩ := derives_sequence.mp h₁
    obtain ⟨_, vs, h₃, hright, rfl⟩ := derives_sequence.mp h₂
    obtain ⟨_, _, h₄, hoperator, rfl⟩ := derives_sequence.mp h₃
    obtain ⟨_, us, hsource, hleft, rfl⟩ := derives_sequence.mp h₄
    obtain rfl := derives_terminal.mp hsource
    obtain rfl := derives_terminal.mp hoperator
    obtain rfl := derives_terminal.mp htarget
    obtain ⟨left, leftLabel, hus, rfl⟩ := (hlabel us).mp hleft
    obtain ⟨right, rightLabel, hvs, rfl⟩ := (hlabel vs).mp hright
    obtain ⟨middle, middleLabel, hws, rfl⟩ := (hlast ws).mp hmiddle
    refine ⟨⟨.identifier, "", .nowhere⟩ :: left ++
      ⟨.operator .association, "", .nowhere⟩ :: right ++
      ⟨.identifier, "", .nowhere⟩ :: middle, _, .intro rfl hus rfl hvs rfl hws, ?_⟩
    simp [terminalOf]
  · rintro ⟨_, _, @⟨source, operator, target, _, left, right, middle, _, _, _, hsource, hleft,
      hoperator, hright, htarget, hmiddle⟩, rfl⟩
    have hus := (hlabel _).mpr ⟨_, _, hleft, rfl⟩
    have hvs := (hlabel _).mpr ⟨_, _, hright, rfl⟩
    have hws := (hlast _).mpr ⟨_, _, hmiddle, rfl⟩
    have hall : terminals (source :: left ++ operator :: right ++ target :: middle) =
        [.name] ++ terminals left ++ [.operator] ++ terminals right ++ [.name] ++
          terminals middle := by
      simp [hsource, hoperator, htarget, terminalOf]
    rw [hall]
    have hsides := Derives.sequence
      (.sequence (.sequence (.terminal .name) hus) (.terminal .operator)) hvs
    exact .sequence (.sequence hsides (.terminal _)) hws

theorem spells_entity : (nonterminal .entity).Spells EntityPhrase := by
  apply Spells.nonterminal
  intro ts
  constructor
  · intro hentity
    rcases derives_choice.mp hentity with h | hother
    · obtain ⟨run, c, hc, rfl⟩ := (spells_class ts).mp h
      exact ⟨run, _, .classDeclaration hc, rfl⟩
    rcases derives_choice.mp hother with h | h
    · obtain ⟨run, i, hi, rfl⟩ := (spells_interface ts).mp h
      exact ⟨run, _, .interfaceDeclaration hi, rfl⟩
    · obtain ⟨run, r, hr, rfl⟩ := (spells_relationship ts).mp h
      exact ⟨run, _, .relationship hr, rfl⟩
  · rintro ⟨run, _, h | h | h, rfl⟩
    · exact .left ((spells_class _).mpr ⟨_, _, h, rfl⟩)
    · exact .right (.left ((spells_interface _).mpr ⟨_, _, h, rfl⟩))
    · exact .right (.right ((spells_relationship _).mpr ⟨_, _, h, rfl⟩))

/-- The productions derive just the terminals of documents. -/
theorem spells_document : (nonterminal .document).Spells DocumentPhrase := by
  apply Spells.nonterminal
  intro ts
  have hmany := Spells.many spells_entity ts
  rw [Nonterminal.production, hmany]
  constructor
  · rintro ⟨run, entities, h, rfl⟩
    exact ⟨run, _, .intro h, rfl⟩
  · rintro ⟨run, _, ⟨h⟩, rfl⟩
    exact ⟨run, _, h, rfl⟩

end Expression

/-- The automaton reads lexemes to an end exactly if the productions derive their terminals. -/
theorem State.exists_complete_iff_derives {xs : List Lexeme} :
    (∃ s d, start.steps? xs = some s ∧ s.complete? = some d) ↔
      (Expression.nonterminal .document).Derives (xs.map (·.terminal)) := by
  rw [Expression.spells_document]
  constructor
  · rintro ⟨s, d, hxs, hd⟩
    exact ⟨_, d, document_of_steps? hxs hd, terminals_map_token xs⟩
  · rintro ⟨run, d, hdocument, hrun⟩
    have htakes := takes_document hdocument
    rw [hrun] at htakes
    obtain ⟨s, hxs, hcomplete⟩ := htakes.exists_steps?
    obtain ⟨d', hd'⟩ := Option.isSome_iff_exists.mp hcomplete
    exact ⟨s, d', hxs, hd'⟩

end ClassDiagram.Grammar
