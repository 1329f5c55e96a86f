import ClassDiagram.Fuzz.Generate
import ClassDiagram.Proofs.Fuzz.Sketches
import ClassDiagram.Proofs.Fuzz.Yields

/-!
# Random documents are documents

Names are drawn as words, and so they may turn out to be keywords.  If none does, whatever is drawn
is a sketch that can be read again: both readers read from a random document the entities that were
drawn, in their order and with all their members.
-/

namespace ClassDiagram.Fuzz.Gen

/-- None of the names is a keyword. -/
def NoKeyword (names : List String) : Prop := ∀ name ∈ names, name ≠ "class" ∧ name ≠ "interface"

instance (names : List String) : Decidable (NoKeyword names) :=
  inferInstanceAs (Decidable (∀ name ∈ names, _))

theorem noKeyword_cons {name : String} {names : List String} :
    NoKeyword (name :: names) ↔ NoKeyword [name] ∧ NoKeyword names := by
  simp [NoKeyword]

/-- A name as it is drawn: one of the pool, or a word of up to 20 characters. -/
def DrawnName (name : String) : Prop :=
  name ∈ namePool ∨ ∃ first rest, name = String.ofList (first :: rest) ∧
    first ∈ letters ++ ['_'] ∧ rest.length < 20 ∧ ∀ c ∈ rest, c ∈ letters ++ digits ++ ['_']

/-- A label as it is drawn: one of the pool, or up to 20 characters of the alphabet. -/
def DrawnLabel (label : List Char) : Prop :=
  String.ofList label ∈ labelPool ∨ label.length ≤ 20 ∧ ∀ c ∈ label, c ∈ labelAlphabet

theorem yields_drawnName : Yields identifier DrawnName := by
  refine (yields_chance _).bind fun _ _ => .ite (fun _ => ?_) fun _ => ?_
  · exact (yields_choose (by decide)).mono fun name hname => .inl hname
  · refine (yields_among (by decide)).bind fun length hlength => ?_
    refine (yields_choose (by decide)).bind fun first hfirst => ?_
    refine ((yields_choose (by decide)).times _).bind fun rest hrest => .pure ?_
    exact .inr ⟨first, rest, rfl, hfirst, by omega, hrest.2⟩

theorem DrawnName.isName {name : String} (h : DrawnName name) (hkeyword : NoKeyword [name]) :
    IsName name := by
  rcases h with hname | ⟨first, rest, rfl, hfirst, -, hrest⟩
  · have hpool : ∀ name ∈ namePool, IsName name := by decide
    exact hpool name hname
  · have hletters : ∀ c ∈ letters, Text.isWordChar c = true :=
      List.all_eq_true.mp (by decide)
    have hdigits : ∀ c ∈ digits, Text.isWordChar c = true := List.all_eq_true.mp (by decide)
    have hfirsts : ∀ c ∈ letters ++ ['_'], Text.isWordChar c = true :=
      List.forall_mem_append.mpr ⟨hletters, by simp⟩
    have hothers : ∀ c ∈ letters ++ digits ++ ['_'], Text.isWordChar c = true :=
      List.forall_mem_append.mpr ⟨List.forall_mem_append.mpr ⟨hletters, hdigits⟩, by simp⟩
    obtain ⟨hclass, hinterface⟩ := hkeyword _ List.mem_cons_self
    refine ⟨by simp, ?_, hclass, hinterface⟩
    rw [String.toList_ofList]
    exact List.forall_mem_cons.mpr ⟨hfirsts first hfirst, fun c hc => hothers c (hrest c hc)⟩

theorem yields_identifier : Yields identifier fun name => NoKeyword [name] → IsName name :=
  Yields.mono yields_drawnName fun _ hname => hname.isName

theorem yields_label : Yields label DrawnLabel := by
  refine (yields_chance _).bind fun _ _ => .ite (fun _ => ?_) fun _ => ?_
  · exact (yields_choose (by decide)).map fun label hlabel => .inl (by simpa using hlabel)
  · refine (yields_below (by decide)).bind fun length hlength => ?_
    refine ((yields_choose (by decide)).times length).mono fun label hlabel => ?_
    exact .inr ⟨by omega, hlabel.2⟩

theorem yields_typeName : Yields typeName IsTypeName := by
  have hpool : ∀ name ∈ typePool, IsName name := by decide
  refine (yields_choose (by decide)).bind fun base hbase => (yields_chance _).bind fun _ _ => ?_
  refine .pure ?_
  split
  · exact .array (hpool base hbase)
  · exact .plain (hpool base hbase)

theorem yields_visibility : Yields visibility fun _ => True :=
  ((yields_choose (by decide)).sometimes _).mono fun _ _ => trivial

theorem yields_field (withVisibility : Bool) :
    Yields (field withVisibility) fun f =>
      (NoKeyword f.names → f.WellFormed) ∧ (withVisibility = false → f.visibility = none) := by
  refine Yields.bind yields_identifier fun name hname => ?_
  have hrest : ∀ v, (withVisibility = false → v = none) → Yields (do
      let valueType ← sometimes 600 typeName
      let defaultValue ← sometimes 200 identifier
      return { name, visibility := v, valueType, defaultValue }) fun f : Field =>
        (NoKeyword f.names → f.WellFormed) ∧ (withVisibility = false → f.visibility = none) := by
    intro v hv
    refine (Yields.sometimes yields_typeName _).bind fun valueType htype => ?_
    refine (Yields.sometimes yields_identifier _).bind fun defaultValue hdefault => .pure ⟨?_, hv⟩
    intro hkeyword
    obtain ⟨hfirst, hothers⟩ := noKeyword_cons.mp hkeyword
    refine ⟨hname hfirst, htype, fun text htext => hdefault text htext fun t ht => ?_⟩
    rw [List.mem_singleton.mp ht]
    exact hothers text (Option.mem_toList.mpr htext)
  refine .ite (fun hwith => ?_) fun _ => ?_
  · exact Yields.bind yields_visibility fun v _ => hrest v (by simp [hwith])
  · exact (Yields.pure (P := (· = none)) rfl).bind fun v hv => hrest v fun _ => hv

theorem yields_method : Yields method fun m => NoKeyword m.names → m.WellFormed := by
  refine Yields.bind yields_identifier fun name hname => ?_
  refine Yields.bind yields_visibility fun v _ => ?_
  refine (yields_below (by decide)).bind fun count _ => ?_
  refine ((yields_field false).times count).bind fun parameters hparameters => ?_
  refine (Yields.sometimes yields_typeName _).bind fun returnType hreturn =>
    .pure fun hkeyword => ?_
  obtain ⟨hfirst, hrest⟩ := noKeyword_cons.mp hkeyword
  refine ⟨hname hfirst, fun f hf => ?_, hreturn⟩
  obtain ⟨hfield, hvisibility⟩ := hparameters.2 f hf
  exact ⟨hfield fun t ht => hrest t (List.mem_flatMap.mpr ⟨f, hf, ht⟩), hvisibility rfl⟩

theorem yields_member : Yields member fun m => NoKeyword m.names → m.WellFormed := by
  refine (yields_chance _).bind fun _ _ => .ite (fun _ => ?_) fun _ => ?_
  · exact (yields_field true).map fun f hf => hf.1
  · exact Yields.map yields_method fun m hm => hm

theorem yields_relationship :
    Yields relationship fun r => NoKeyword [r.source, r.target] → r.declaration.WellFormed := by
  refine Yields.bind yields_identifier fun source hsource => ?_
  refine (Yields.sometimes yields_label _).bind fun left _ => ?_
  refine (yields_choose (by decide)).bind fun operator hoperator => ?_
  refine (Yields.sometimes yields_label _).bind fun right _ => ?_
  refine Yields.bind yields_identifier fun target htarget => ?_
  refine (Yields.sometimes yields_label _).bind fun middle _ => .pure fun hkeyword => ?_
  obtain ⟨hfirst, hsecond⟩ := noKeyword_cons.mp hkeyword
  exact ⟨hsource hfirst, htarget hsecond, ⟨operator, hoperator, rfl, rfl⟩, rfl⟩

/-- What is drawn can be read again if its names are no keywords. -/
theorem yields_sketch :
    Yields sketch fun s => NoKeyword s.names → s.entity.WellFormed := by
  refine (yields_below (by decide)).bind fun sort _ => ?_
  split
  · refine Yields.bind yields_identifier fun name hname => ?_
    have hmembers : Yields members fun ms => NoKeyword (ms.flatMap Member.names) →
        ∀ m ∈ ms, m.WellFormed := by
      refine (yields_below (by decide)).bind fun count _ => ?_
      refine (Yields.times yields_member count).mono ?_
      exact fun ms hms hkeyword m hm => hms.2 m hm fun t ht =>
        hkeyword t (List.mem_flatMap.mpr ⟨m, hm, ht⟩)
    refine (hmembers.sometimes _).bind fun body hbody => .pure fun hkeyword => ?_
    obtain ⟨hfirst, hrest⟩ := noKeyword_cons.mp hkeyword
    refine ⟨hname hfirst, ?_⟩
    cases body with
    | none => simp
    | some ms => exact hbody ms rfl hrest
  · exact Yields.map yields_identifier fun name hname => hname
  · exact Yields.map yields_relationship fun r hr => hr

/-- A document is drawn as a number of sketches, and written out. -/
theorem exists_drawn (draws : Draws) :
    ∃ count start drawn rest, among 1 5 draws = .ok count start ∧ 1 ≤ count ∧ count ≤ 5 ∧
      times count sketch start = .ok drawn rest ∧
      document draws = .ok (String.ofList (Sketch.writtenAll drawn)) rest ∧
      drawn.length = count ∧ ∀ s ∈ drawn, NoKeyword s.names → s.entity.WellFormed := by
  have hamong : Yields (among 1 5) fun n => 1 ≤ n ∧ n < 1 + 5 := yields_among (by decide)
  obtain ⟨count, start, hcount, hlow, hhigh⟩ := hamong draws
  obtain ⟨drawn, rest, hdrawn, hlength, hsound⟩ := Yields.times yields_sketch count start
  have hsketches : sketches draws = .ok drawn rest := (bind_of_ok hcount).trans hdrawn
  have hdocument : document draws = .ok (String.ofList (Sketch.writtenAll drawn)) rest :=
    map_of_ok hsketches
  exact ⟨count, start, drawn, rest, hcount, hlow, by omega, hdrawn, hdocument, hlength, hsound⟩

theorem yields_document : Yields document fun _ => True := by
  intro draws
  obtain ⟨_, _, drawn, rest, -, -, -, -, hdocument, -⟩ := exists_drawn draws
  exact ⟨_, rest, hdocument, trivial⟩

/-- Random documents are documents.  Whatever is drawn, first a number is drawn, from one to five,
and then so many sketches, and they are written out.  Unless a keyword was drawn for a name, both
readers read the same diagram from the text; it has so many entities, and they say what the sketches
say, in their order. -/
theorem document_reads (draws : Draws) :
    ∃ count start drawn rest, among 1 5 draws = .ok count start ∧ 1 ≤ count ∧ count ≤ 5 ∧
      times count sketch start = .ok drawn rest ∧
      document draws = .ok (String.ofList (Sketch.writtenAll drawn)) rest ∧
      (NoKeyword (drawn.flatMap Sketch.names) →
        ∃ d, (∀ reader, Reader.read reader (String.ofList (Sketch.writtenAll drawn)) = .ok d) ∧
          d.entities.length = count ∧
          d.unplaced = Diagram.unplaced { entities := drawn.map Sketch.entity }) := by
  obtain ⟨count, start, drawn, rest, hcount, hlow, hhigh, hdrawn, hdocument, hlength, hsound⟩ :=
    exists_drawn draws
  refine ⟨count, start, drawn, rest, hcount, hlow, hhigh, hdrawn, hdocument, fun hkeyword => ?_⟩
  have hwellFormed : ∀ s ∈ drawn, s.entity.WellFormed := fun s hs =>
    hsound s hs fun name hname => hkeyword name (List.mem_flatMap.mpr ⟨s, hs, hname⟩)
  obtain ⟨d, hread, hunplaced⟩ := Sketch.exists_read_writtenAll hwellFormed
  refine ⟨d, hread, ?_, hunplaced⟩
  have hentities := congrArg (fun d : Diagram => d.entities.length) hunplaced
  simpa [Diagram.unplaced, hlength] using hentities

/-- A method and names that look like the beginnings of operators, a number for a name, and a label
that looks like a comment. -/
theorem document_reads_relationship :
    let draws := Draws.ofList [1, 0, 0, 8, 0, 1, 999, 0, 8, 0, 1, 2, 0, 10, 0, 0, 0, 0, 0, 0, 0, 1,
      999, 999, 999, 2, 0, 8, 0, 999, 2, 75, 75, 12, 999, 0, 8, 999]
    let text := "class o \x7b -o(42: int[] = x, y) \x7d\no \"//\" -- o"
    (∃ rest, document draws = .ok text rest) ∧
      ∃ d, (∀ reader, Reader.read reader text = .ok d) ∧ d.unplaced = {
        entities := [
          .classDeclaration { name := "o", members := [.method {
            name := "o", visibility := some .toSelf, parameters := [
              { name := "42", valueType := some "int[]", defaultValue := some "x" },
              { name := "y" }] }] },
          .relationship {
            name := "o -- o", source := "o", target := "o", kind := .association,
            operator := "--", leftLabel := some "//" }] } := by
  intro draws text
  obtain ⟨count, start, drawn, rest, hcount, -, -, hdrawn, hdocument, hread⟩ := document_reads draws
  obtain ⟨rfl, rfl⟩ : count = 2 ∧ _ = start := by
    have hcount' : among 1 5 draws = .ok 2 _ := rfl
    rw [hcount'] at hcount
    exact ⟨(EStateM.Result.ok.inj hcount).1.symm, (EStateM.Result.ok.inj hcount).2⟩
  obtain rfl : [Sketch.classDeclaration "o" (some [.method {
        name := "o", visibility := some .toSelf, parameters := [
          { name := "42", valueType := some "int[]", defaultValue := some "x" },
          { name := "y" }] }]), Sketch.relationship {
        source := "o", left := some ['/', '/'], operator := ⟨['-', '-'], .association⟩,
        right := none, target := "o", middle := none }] = drawn :=
    (EStateM.Result.ok.inj hdrawn).1
  obtain ⟨d, hd, -, hunplaced⟩ := hread (by decide)
  exact ⟨⟨rest, hdocument⟩, d, hd, hunplaced⟩

end ClassDiagram.Fuzz.Gen
