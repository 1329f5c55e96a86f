import ClassDiagram.Proofs.Json.Grammar
import Mathlib.Data.List.TakeWhile

/-!
# Reading JSON

A reader goes from left to right and never back: what comes next tells what it has to be.  Lists and
records go no deeper than the text is long, so that is how deep the reader looks.  Whatever it reads
is well-formed and denotes what it is read as.
-/

namespace ClassDiagram.Json

def skip (text : List Char) : List Char := text.dropWhile isBlank

/-- The codes up to the closing quote, and what follows it. -/
def codes? : List Char → Option (List Nat × List Char)
  | [] => none
  | c :: rest =>
    if c = '"' then some ([], rest)
    else if c = '\\' then
      match rest with
      | 'u' :: a :: b :: c :: d :: rest =>
        match Text.hexNumber? 0 [a, b, c, d] with
        | some code => (codes? rest).map fun r => (code :: r.1, r.2)
        | none => none
      | letter :: rest =>
        match letterCode? letter with
        | some code => (codes? rest).map fun r => (code :: r.1, r.2)
        | none => none
      | [] => none
    else if c.toNat < 0x20 then none
    else (codes? rest).map fun r => (c.toNat :: r.1, r.2)

/-- The text up to the closing quote, and what follows it. -/
def quoted? (text : List Char) : Option (String × List Char) :=
  match codes? text with
  | none => none
  | some (codes, rest) => (characters? codes).map fun chars => (.ofList chars, rest)

/-- The digits at the start of a text, of which there must be one, and what follows them. -/
def digits? (text : List Char) : Option (List Char × List Char) :=
  if text.takeWhile Char.isDigit = [] then none
  else some (text.takeWhile Char.isDigit, text.dropWhile Char.isDigit)

def fraction? : List Char → Option (Option (List Char) × List Char)
  | '.' :: rest => (digits? rest).map fun r => (some r.1, r.2)
  | rest => some (none, rest)

/-- The mark of an exponent with its sign, and what follows it. -/
def exponentMark? : List Char → Option (List Char × List Char)
  | [] => none
  | c :: rest =>
    if c = 'e' ∨ c = 'E' then
      match rest with
      | '+' :: rest => some ([c, '+'], rest)
      | '-' :: rest => some ([c, '-'], rest)
      | rest => some ([c], rest)
    else none

def exponent? (text : List Char) : Option (Option (List Char × List Char) × List Char) :=
  match exponentMark? text with
  | none => some (none, text)
  | some (mark, rest) => (digits? rest).map fun r => (some (mark, r.1), r.2)

def unsigned? (negative : Bool) (text : List Char) : Option (Numeral × List Char) := do
  let (whole, rest) ← digits? text
  if whole.head? = some '0' ∧ whole ≠ ['0'] then none
  let (fraction, rest) ← fraction? rest
  let (exponent, rest) ← exponent? rest
  return (⟨negative, whole, fraction, exponent⟩, rest)

def numeral? : List Char → Option (Numeral × List Char)
  | '-' :: rest => unsigned? true rest
  | rest => unsigned? false rest

mutual

/-- The value that a text begins with, at most `n` deep, and what follows it. -/
def value? : Nat → List Char → Option (Value × List Char)
  | 0, _ => none
  | n + 1, text =>
    match text with
    | '"' :: rest => (quoted? rest).map fun r => (.text r.1, r.2)
    | '[' :: rest =>
      match skip rest with
      | ']' :: rest => some (.list [], rest)
      | _ => (elements? n rest).map fun r => (.list r.1, r.2)
    | '\x7b' :: rest =>
      match skip rest with
      | '\x7d' :: rest => some (.record [], rest)
      | _ => (members? n rest).map fun r => (.gather r.1, r.2)
    | 'n' :: 'u' :: 'l' :: 'l' :: rest => some (.null, rest)
    | 't' :: 'r' :: 'u' :: 'e' :: rest => some (.bool true, rest)
    | 'f' :: 'a' :: 'l' :: 's' :: 'e' :: rest => some (.bool false, rest)
    | text => (numeral? text).map fun r => (r.1.value, r.2)

/-- The items of a list that is not empty, and what follows its closing bracket. -/
def elements? : Nat → List Char → Option (List Value × List Char)
  | 0, _ => none
  | n + 1, text =>
    match value? n (skip text) with
    | none => none
    | some (v, rest) =>
      match skip rest with
      | ']' :: rest => some ([v], rest)
      | ',' :: rest => (elements? n rest).map fun r => (v :: r.1, r.2)
      | _ => none

/-- The entries of a record that is not empty, and what follows its closing brace. -/
def members? : Nat → List Char → Option (List (String × Value) × List Char)
  | 0, _ => none
  | n + 1, text =>
    match skip text with
    | '"' :: rest =>
      match quoted? rest with
      | none => none
      | some (key, rest) =>
        match skip rest with
        | ':' :: rest =>
          match value? n (skip rest) with
          | none => none
          | some (v, rest) =>
            match skip rest with
            | '\x7d' :: rest => some ([(key, v)], rest)
            | ',' :: rest => (members? n rest).map fun r => ((key, v) :: r.1, r.2)
            | _ => none
        | _ => none
    | _ => none

end

/-- The value that a whole text denotes. -/
def read (text : List Char) : Option Value :=
  match value? (text.length + 1) (skip text) with
  | none => none
  | some (v, rest) => if skip rest = [] then some v else none

/-! ## What is read is well-formed -/

theorem exists_blanks (text : List Char) :
    ∃ blanks, Blanks blanks ∧ text = blanks ++ skip text := by
  refine ⟨text.takeWhile isBlank, ?_, (List.takeWhile_append_dropWhile ..).symm⟩
  intro c hc
  exact List.mem_takeWhile_imp hc

theorem codes_of_codes? {text rest : List Char} {codes : List Nat}
    (h : codes? text = some (codes, rest)) :
    ∃ used, text = used ++ '"' :: rest ∧ Codes used codes := by
  fun_induction codes? text generalizing codes with
  | case1 => cases h
  | case2 rest =>
      cases h
      exact ⟨[], rfl, .nil⟩
  | case3 a b c d more code hcode hquote ih =>
      obtain ⟨⟨codes, rest⟩, hcodes, heq⟩ := Option.map_eq_some_iff.mp h
      cases heq
      obtain ⟨used, rfl, hused⟩ := ih hcodes
      exact ⟨'\\' :: 'u' :: a :: b :: c :: d :: used, rfl, .number hcode hused⟩
  | case4 => cases h
  | case5 letter more hnumber code hcode hquote ih =>
      obtain ⟨⟨codes, rest⟩, hcodes, heq⟩ := Option.map_eq_some_iff.mp h
      cases heq
      obtain ⟨used, rfl, hused⟩ := ih hcodes
      exact ⟨'\\' :: letter :: used, rfl, .letter hcode hused⟩
  | case6 => cases h
  | case7 => cases h
  | case8 => cases h
  | case9 c more hquote hbackslash hcontrol ih =>
      obtain ⟨⟨codes, rest⟩, hcodes, heq⟩ := Option.map_eq_some_iff.mp h
      cases heq
      obtain ⟨used, rfl, hused⟩ := ih hcodes
      exact ⟨c :: used, rfl, .character (Nat.le_of_not_lt hcontrol) hquote hbackslash hused⟩

theorem quoted_of_quoted? {text rest : List Char} {s : String} (h : quoted? text = some (s, rest)) :
    ∃ used, '"' :: text = used ++ rest ∧ Quoted used s := by
  unfold quoted? at h
  split at h
  · cases h
  · next codes rest' hcodes =>
    obtain ⟨chars, hchars, heq⟩ := Option.map_eq_some_iff.mp h
    cases heq
    obtain ⟨used, rfl, hused⟩ := codes_of_codes? hcodes
    exact ⟨_, by simp, .mk hused hchars⟩

theorem digits_of_digits? {text digits rest : List Char} (h : digits? text = some (digits, rest)) :
    text = digits ++ rest ∧ digits ≠ [] ∧ digits.all Char.isDigit = true := by
  unfold digits? at h
  split at h
  · cases h
  · next hne =>
    cases h
    refine ⟨(List.takeWhile_append_dropWhile ..).symm, hne, ?_⟩
    rw [List.all_eq_true]
    intro c hc
    exact List.mem_takeWhile_imp hc

theorem fraction_of_fraction? {text rest : List Char} {fraction : Option (List Char)}
    (h : fraction? text = some (fraction, rest)) :
    text = (fraction.elim [] ('.' :: ·)) ++ rest ∧
      ∀ digits ∈ fraction, digits ≠ [] ∧ digits.all Char.isDigit = true := by
  unfold fraction? at h
  split at h
  · obtain ⟨⟨digits, rest⟩, hdigits, heq⟩ := Option.map_eq_some_iff.mp h
    cases heq
    obtain ⟨rfl, hne, hall⟩ := digits_of_digits? hdigits
    refine ⟨rfl, ?_⟩
    rintro _ ⟨⟩
    exact ⟨hne, hall⟩
  · cases h
    exact ⟨rfl, by simp⟩

theorem mark_of_exponentMark? {text mark rest : List Char}
    (h : exponentMark? text = some (mark, rest)) :
    text = mark ++ rest ∧
      mark ∈ [['e'], ['E'], ['e', '+'], ['E', '+'], ['e', '-'], ['E', '-']] := by
  unfold exponentMark? at h
  split at h
  · cases h
  split at h
  · next hc =>
    split at h
    all_goals
      cases h
      rcases hc with rfl | rfl
      all_goals exact ⟨rfl, by decide⟩
  · cases h

theorem exponent_of_exponent? {text rest : List Char}
    {exponent : Option (List Char × List Char)} (h : exponent? text = some (exponent, rest)) :
    text = (exponent.elim [] fun e => e.1 ++ e.2) ++ rest ∧
      ∀ e ∈ exponent, e.1 ∈ [['e'], ['E'], ['e', '+'], ['E', '+'], ['e', '-'], ['E', '-']] ∧
        e.2 ≠ [] ∧ e.2.all Char.isDigit = true := by
  unfold exponent? at h
  split at h
  · cases h
    exact ⟨rfl, by simp⟩
  · next mark more hmark =>
    obtain ⟨⟨digits, rest⟩, hdigits, heq⟩ := Option.map_eq_some_iff.mp h
    cases heq
    obtain ⟨rfl, hmem⟩ := mark_of_exponentMark? hmark
    obtain ⟨rfl, hne, hall⟩ := digits_of_digits? hdigits
    refine ⟨by simp, ?_⟩
    rintro _ ⟨⟩
    exact ⟨hmem, hne, hall⟩

theorem numeral_of_unsigned? {negative : Bool} {text rest : List Char} {m : Numeral}
    (h : unsigned? negative text = some (m, rest)) :
    (if negative then ['-'] else []) ++ text = m.text ++ rest ∧ m.WellFormed := by
  unfold unsigned? at h
  simp only [Option.bind_eq_bind, Option.bind_eq_some_iff, Prod.exists] at h
  obtain ⟨whole, rest₁, hwhole, h⟩ := h
  split at h
  · cases h
  next hzero =>
  simp only [Option.pure_def, Option.bind_eq_some_iff, Prod.exists,
    Option.some.injEq, Prod.mk.injEq] at h
  obtain ⟨fraction, rest₂, hfraction, exponent, rest₃, hexponent, rfl, rfl⟩ := h
  obtain ⟨rfl, hne, hall⟩ := digits_of_digits? hwhole
  obtain ⟨rfl, hfractionDigits⟩ := fraction_of_fraction? hfraction
  obtain ⟨rfl, hexponentDigits⟩ := exponent_of_exponent? hexponent
  refine ⟨?_, ⟨hne, hall, ?_⟩, hfractionDigits, hexponentDigits⟩
  · simp only [Numeral.text, List.append_assoc]
    cases fraction <;> cases exponent <;> rfl
  · intro hhead
    by_contra hwhole
    exact hzero ⟨hhead, hwhole⟩

theorem numeral_of_numeral? {text rest : List Char} {m : Numeral}
    (h : numeral? text = some (m, rest)) : text = m.text ++ rest ∧ m.WellFormed := by
  unfold numeral? at h
  split at h
  · exact numeral_of_unsigned? h
  · exact numeral_of_unsigned? h

/-- What the readers of values, items and entries give, for reading `n` deep. -/
structure Sound (n : Nat) : Prop where
  value : ∀ text v rest, value? n text = some (v, rest) →
    ∃ used, text = used ++ rest ∧ Denotes used v
  elements : ∀ text items rest, elements? n text = some (items, rest) →
    ∃ used, text = used ++ ']' :: rest ∧ Elements used items
  members : ∀ text entries rest, members? n text = some (entries, rest) →
    ∃ used, text = used ++ '\x7d' :: rest ∧ Members used entries

variable {n : Nat}

theorem Sound.value_succ (h : Sound n) {text rest : List Char} {v : Value}
    (hv : value? (n + 1) text = some (v, rest)) : ∃ used, text = used ++ rest ∧ Denotes used v := by
  unfold value? at hv
  split at hv
  · obtain ⟨⟨s, rest⟩, hs, heq⟩ := Option.map_eq_some_iff.mp hv
    cases heq
    obtain ⟨used, hused, hquoted⟩ := quoted_of_quoted? hs
    exact ⟨used, hused, .text hquoted⟩
  · next after =>
    obtain ⟨blanks, hblanks, hafter⟩ := exists_blanks after
    split at hv
    · next more hskip =>
      cases hv
      rw [hskip] at hafter
      exact ⟨'[' :: (blanks ++ [']']), by simp [hafter], .emptyList hblanks⟩
    · obtain ⟨⟨items, rest⟩, hitems, heq⟩ := Option.map_eq_some_iff.mp hv
      cases heq
      obtain ⟨used, rfl, helements⟩ := h.elements _ _ _ hitems
      exact ⟨'[' :: (used ++ [']']), by simp, .list helements⟩
  · next after =>
    obtain ⟨blanks, hblanks, hafter⟩ := exists_blanks after
    split at hv
    · next more hskip =>
      cases hv
      rw [hskip] at hafter
      exact ⟨'\x7b' :: (blanks ++ ['\x7d']), by simp [hafter], .emptyRecord hblanks⟩
    · obtain ⟨⟨entries, rest⟩, hentries, heq⟩ := Option.map_eq_some_iff.mp hv
      cases heq
      obtain ⟨used, rfl, hmembers⟩ := h.members _ _ _ hentries
      exact ⟨'\x7b' :: (used ++ ['\x7d']), by simp, .record hmembers⟩
  · cases hv
    exact ⟨_, rfl, .null⟩
  · cases hv
    exact ⟨_, rfl, .true⟩
  · cases hv
    exact ⟨_, rfl, .false⟩
  · obtain ⟨⟨m, rest⟩, hm, heq⟩ := Option.map_eq_some_iff.mp hv
    cases heq
    obtain ⟨hused, hwf⟩ := numeral_of_numeral? hm
    exact ⟨m.text, hused, .number hwf⟩

theorem Sound.elements_succ (h : Sound n) {text rest : List Char} {items : List Value}
    (hitems : elements? (n + 1) text = some (items, rest)) :
    ∃ used, text = used ++ ']' :: rest ∧ Elements used items := by
  obtain ⟨before, hbefore, htext⟩ := exists_blanks text
  unfold elements? at hitems
  split at hitems
  · cases hitems
  next v after hv =>
  obtain ⟨used, hused, hdenotes⟩ := h.value _ _ _ hv
  obtain ⟨behind, hbehind, hafter⟩ := exists_blanks after
  split at hitems
  · next more hskip =>
    cases hitems
    refine ⟨before ++ used ++ behind, ?_, .one hbefore hdenotes hbehind⟩
    rw [htext, hused, hafter, hskip]
    simp
  · next more hskip =>
    obtain ⟨⟨items, rest⟩, hrest, heq⟩ := Option.map_eq_some_iff.mp hitems
    cases heq
    obtain ⟨used', rfl, helements⟩ := h.elements _ _ _ hrest
    refine ⟨before ++ used ++ behind ++ ',' :: used', ?_, .more hbefore hdenotes hbehind helements⟩
    rw [htext, hused, hafter, hskip]
    simp
  · cases hitems

theorem Sound.members_succ (h : Sound n) {text rest : List Char} {entries : List (String × Value)}
    (hentries : members? (n + 1) text = some (entries, rest)) :
    ∃ used, text = used ++ '\x7d' :: rest ∧ Members used entries := by
  obtain ⟨before, hbefore, htext⟩ := exists_blanks text
  unfold members? at hentries
  split at hentries
  swap
  · cases hentries
  next name hname =>
  split at hentries
  · cases hentries
  next key after hkey =>
  obtain ⟨used, hused, hquoted⟩ := quoted_of_quoted? hkey
  obtain ⟨middle, hmiddle, hafter⟩ := exists_blanks after
  split at hentries
  swap
  · cases hentries
  next after' hcolon =>
  obtain ⟨middle', hmiddle', hafter'⟩ := exists_blanks after'
  split at hentries
  · cases hentries
  next v after'' hv =>
  obtain ⟨used', hused', hdenotes⟩ := h.value _ _ _ hv
  obtain ⟨behind, hbehind, hafter''⟩ := exists_blanks after''
  have hmember := Member.mk hbefore hquoted hmiddle hmiddle' hdenotes hbehind
  generalize skip after'' = following at hafter'' hentries
  have hwhole : text = before ++ used ++ middle ++ ':' :: (middle' ++ used' ++ behind) ++
      following := by
    rw [htext, hname, hused, hafter, hcolon, hafter', hused', hafter'']
    simp
  split at hentries
  · cases hentries
    exact ⟨_, hwhole, .one hmember⟩
  · obtain ⟨⟨entries, rest⟩, hrest, heq⟩ := Option.map_eq_some_iff.mp hentries
    cases heq
    obtain ⟨used'', rfl, hmembers⟩ := h.members _ _ _ hrest
    refine ⟨_, ?_, .more hmember hmembers⟩
    rw [hwhole]
    simp
  · cases hentries

theorem sound (n : Nat) : Sound n := by
  induction n with
  | zero =>
      refine ⟨?_, ?_, ?_⟩
      · rintro text v rest ⟨⟩
      · rintro text items rest ⟨⟩
      · rintro text entries rest ⟨⟩
  | succ n ih =>
      exact ⟨fun _ _ _ => ih.value_succ, fun _ _ _ => ih.elements_succ,
        fun _ _ _ => ih.members_succ⟩

/-- What is read is a well-formed text, and denotes what it is read as. -/
theorem isText_of_read {text : List Char} {v : Value} (h : read text = some v) : IsText text v := by
  obtain ⟨before, hbefore, htext⟩ := exists_blanks text
  unfold read at h
  split at h
  · cases h
  next w rest hw =>
  obtain ⟨used, hused, hdenotes⟩ := (sound _).value _ _ _ hw
  obtain ⟨after, hafter, hrest⟩ := exists_blanks rest
  split at h
  · next hskip =>
    cases h
    rw [htext, hused, hrest, hskip, List.append_nil, ← List.append_assoc]
    exact .mk hbefore hdenotes hafter
  · cases h

end ClassDiagram.Json
