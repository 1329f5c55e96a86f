import ClassDiagram.Proofs.Denotation
import ClassDiagram.Proofs.Trees.Declarations

/-!
# Places of declarations

The tokens of a text stand in it one behind the other, each where its place says, and a declaration
has the place of its first token.  So the places of the declarations go through the text in their
order, and each of them points at the first word or marker of what is declared there.
-/

namespace ClassDiagram

namespace Place

theorem behind_before_append (before : List Char) {run : List Char} (h : run ≠ []) :
    (behind before).Before (behind (before ++ run)) := by
  rw [behind_append]
  exact before_afterAll _ h

theorem not_before_self (p : Place) : ¬ p.Before p := by
  unfold Before
  omega

/-- In a text, a place tells what is before it. -/
theorem eq_of_behind_eq {before before' text : List Char} (h : before <+: text)
    (h' : before' <+: text) (heq : behind before = behind before') : before = before' := by
  rcases List.prefix_or_prefix_of_prefix h h' with ⟨run, rfl⟩ | ⟨run, rfl⟩
  · by_cases hrun : run = []
    · rw [hrun, List.append_nil]
    · exact absurd (heq ▸ behind_before_append before hrun) (not_before_self _)
  · by_cases hrun : run = []
    · rw [hrun, List.append_nil]
    · exact absurd (heq ▸ behind_before_append before' hrun) (not_before_self _)

end Place

namespace Token

variable {before run rest : List Char} {tokens : List Token}

/-- Every token is spelled in the text at its place. -/
theorem Cuts.exists_spelling (h : Cuts before run tokens rest) : ∀ t ∈ tokens,
    ∃ front text back, run = front ++ (text ++ back) ∧ Spelling text t.kind t.value.toList ∧
      t.place = .behind (before ++ front) := by
  induction h with
  | nil => simp
  | @layout before piece run rest tokens _ _ ih =>
      intro t ht
      obtain ⟨front, text, back, rfl, hspelling, hplace⟩ := ih t ht
      exact ⟨piece ++ front, text, back, by simp, hspelling, by simpa using hplace⟩
  | @token before text run rest value kind tokens hmunch _ ih =>
      refine List.forall_mem_cons.mpr ⟨⟨[], text, run, rfl, ?_, by simp⟩, fun t ht => ?_⟩
      · rw [String.toList_ofList]
        exact hmunch.spelling
      · obtain ⟨front, text', back, rfl, hspelling, hplace⟩ := ih t ht
        exact ⟨text ++ front, text', back, by simp, hspelling, by simpa using hplace⟩

/-- The tokens stand in the text one behind the other. -/
theorem Cuts.pairwise_place (h : Cuts before run tokens rest) :
    tokens.Pairwise fun t u => t.place.Before u.place := by
  induction h with
  | nil => exact .nil
  | layout _ _ ih => exact ih
  | @token before text run rest value kind tokens hmunch hrun ih =>
      refine List.pairwise_cons.mpr ⟨fun u hu => ?_, ih⟩
      obtain ⟨front, -, -, -, -, hplace⟩ := hrun.exists_spelling u hu
      rw [hplace, List.append_assoc]
      exact Place.behind_before_append before (by simp [hmunch.spelling.ne_nil])

end Token

/-! ## First lexemes -/

theorem MemberRestPhrase.head_eq {name : String} {visibility : Option Visibility} {place : Place}
    {run : List Token} {m : Member} (h : MemberRestPhrase name visibility place run m) :
    m.name = name ∧ m.visibility = visibility := by
  cases h with
  | field h =>
      obtain ⟨htype, hdefault⟩ := h
      exact ⟨rfl, rfl⟩
  | method h =>
      obtain ⟨hopening, hparameters, hclosing, hreturn⟩ := h
      exact ⟨rfl, rfl⟩

/-- The first token of a declaration is its opening. -/
theorem DeclarationPhrase.value_eq {t : Token} {more : List Token} {x : Declaration}
    (h : DeclarationPhrase (t :: more) x) (ht : t.Lexical) :
    t.value = x.opening ∧ t.kind ≠ .quotation := by
  generalize hrun : t :: more = run at h
  cases h with
  | entity h =>
      cases h with
      | classDeclaration h =>
          cases h with
          | bare hword hname =>
              cases hrun
              exact ⟨ht.value_eq hword (by decide), by simp [hword]⟩
          | body hword hname hopening hmembers hclosing =>
              cases hrun
              exact ⟨ht.value_eq hword (by decide), by simp [hword]⟩
      | interfaceDeclaration h =>
          obtain ⟨hword, hname⟩ := h
          cases hrun
          exact ⟨ht.value_eq hword (by decide), by simp [hword]⟩
      | relationship h =>
          obtain ⟨hsource, hleft, hoperator, hright, htarget, hmiddle⟩ := h
          cases hrun
          exact ⟨rfl, by simp [hsource]⟩
  | member h =>
      cases h with
      | unmarked hname hrest =>
          cases hrun
          obtain ⟨hmember, hvisibility⟩ := hrest.head_eq
          exact ⟨by simp [Declaration.opening, hmember, hvisibility], by simp [hname]⟩
      | @marked mark name visibility run m hmark hname hrest =>
          cases hrun
          obtain ⟨hmember, hvisibility⟩ := hrest.head_eq
          refine ⟨?_, by simp [hmark]⟩
          rw [ht.value_eq hmark (by cases visibility <;> decide)]
          simp [Declaration.opening, hvisibility, Token.Kind.spelling]
  | parameter h =>
      obtain ⟨hname, ⟨htype, hdefault⟩, hcomma⟩ := h
      cases hrun
      exact ⟨rfl, by simp [hname]⟩

namespace Reader

/-- Whatever either reader reads, its declarations come in the order of their places.  The place of
each is that of a point in the text, and from there on the text begins with the word or the marker
that opens the declaration. -/
theorem reads_point_at_text {reader : Reader} {text : String} {d : Diagram}
    (h : read reader text = .ok d) :
    d.declarations.Pairwise (fun x y => x.place.Before y.place) ∧
    ∀ x ∈ d.declarations,
      (∃ before after, text.toList = before ++ after ∧ x.place = .behind before) ∧
      ∀ before after, text.toList = before ++ after → x.place = .behind before →
        x.opening.toList <+: after := by
  obtain ⟨lexemes, hcuts, hdocument⟩ := read_eq_ok_iff_cuts.mp h
  obtain ⟨starts, houtline⟩ := hdocument.exists_outline
  refine ⟨houtline.pairwise_place hcuts.pairwise_place, fun x hx => ?_⟩
  obtain ⟨t, more, ht, hphrase, hplace⟩ := houtline.exists_token hx
  obtain ⟨hvalue, hkind⟩ := hphrase.value_eq (hcuts.lexical t ht)
  obtain ⟨front, word, back, htext, hspelling, hfront⟩ := hcuts.exists_spelling t ht
  rw [List.nil_append, ← hplace] at hfront
  refine ⟨⟨front, word ++ back, htext, hfront⟩, fun before after heq hbefore => ?_⟩
  have hsame : before = front := by
    apply Place.eq_of_behind_eq ⟨after, heq.symm⟩ ⟨word ++ back, htext.symm⟩
    rw [← hbefore, hfront]
  rw [hsame, htext] at heq
  have hword : word = x.opening.toList := by
    rcases hspelling.label_or_verbatim with ⟨hlabel, -⟩ | ⟨-, hword⟩
    · exact absurd hlabel hkind
    · rw [hword, hvalue]
  rw [← List.append_cancel_left heq, hword]
  exact List.prefix_append _ back

/-- A marker on another line than the name that it marks, parameters, and a relationship. -/
theorem reads_point_at_text_marker :
    let text := "class A \x7b + // m\nf(x y) \x7d A --> B"
    ∃ d, read .descent text = .ok d ∧
      d.declarations.map (fun x => (x.opening, x.place)) =
        [("class", ⟨1, 1⟩), ("+", ⟨1, 11⟩), ("x", ⟨2, 3⟩), ("y", ⟨2, 5⟩), ("A", ⟨2, 10⟩)] ∧
      d.declarations.Pairwise (fun x y => x.place.Before y.place) ∧
      ∀ x ∈ d.declarations, ∀ before after, text.toList = before ++ after →
        x.place = .behind before → x.opening.toList <+: after := by
  intro text
  have htokens : Token.ofString? text = .ok
      [⟨.classWord, "class", ⟨1, 1⟩⟩, ⟨.identifier, "A", ⟨1, 7⟩⟩, ⟨.leftBrace, "\x7b", ⟨1, 9⟩⟩,
        ⟨.marker .toAll, "+", ⟨1, 11⟩⟩, ⟨.identifier, "f", ⟨2, 1⟩⟩,
        ⟨.leftParenthesis, "(", ⟨2, 2⟩⟩, ⟨.identifier, "x", ⟨2, 3⟩⟩, ⟨.identifier, "y", ⟨2, 5⟩⟩,
        ⟨.rightParenthesis, ")", ⟨2, 6⟩⟩, ⟨.rightBrace, "\x7d", ⟨2, 8⟩⟩,
        ⟨.identifier, "A", ⟨2, 10⟩⟩, ⟨.operator .association, "-->", ⟨2, 12⟩⟩,
        ⟨.identifier, "B", ⟨2, 16⟩⟩, ⟨.endOfText, "", ⟨2, 17⟩⟩] := by
    decide +kernel
  obtain ⟨d, hd, hdeclarations⟩ : ∃ d, read .descent text = .ok d ∧
      d.declarations.map (fun x => (x.opening, x.place)) =
        [("class", ⟨1, 1⟩), ("+", ⟨1, 11⟩), ("x", ⟨2, 3⟩), ("y", ⟨2, 5⟩), ("A", ⟨2, 10⟩)] := by
    refine ⟨{ entities := [
      .classDeclaration { name := "A", place := ⟨1, 1⟩, members := [.method
        { name := "f", visibility := some .toAll, place := ⟨1, 11⟩,
          parameters := [{ name := "x", place := ⟨2, 3⟩ }, { name := "y", place := ⟨2, 5⟩ }] }] },
      .relationship
        { name := "A --> B", source := "A", target := "B", kind := .association,
          operator := "-->", place := ⟨2, 10⟩ }] }, ?_, by decide⟩
    rw [read_descent_eq_ok_iff_ofTokens htokens]
    decide +kernel
  obtain ⟨hordered, hopenings⟩ := reads_point_at_text hd
  exact ⟨d, hd, hdeclarations, hordered, fun x hx => (hopenings x hx).2⟩

end Reader

end ClassDiagram
