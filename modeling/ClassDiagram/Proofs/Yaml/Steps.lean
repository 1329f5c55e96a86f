import ClassDiagram.Proofs.Yaml.Scalars

/-!
# What the reader does with what comes next

A value ends where the next line does not reach beyond the column of what it stands in.  What comes
next tells whether it is a scalar, a list or a record, and where lists and records go on.
-/

namespace ClassDiagram.Yaml

/-! ## Where a value ends -/

/-- What comes behind a value: the end of the text, or a line that begins in a column and with a
character that end it. -/
inductive Behind (ends : Nat → Char → Prop) : List Char → Prop
  | last : Behind ends ['\n']
  | line {column : Nat} {c : Char} {rest : List Char} (hends : ends column c) (hspace : c ≠ ' ')
      (hline : c ≠ '\n') (hcomment : c ≠ '#') : Behind ends (newline column ++ c :: rest)

/-- The lines that end a value with the given parent. -/
def Parent.Ends : Parent → Nat → Char → Prop
  | document, _, _ => False
  | entry column, k, c => k < column ∨ (k = column ∧ c ≠ '-')
  | item column, k, _ => k ≤ column

theorem Parent.Ends.lt_least {parent : Parent} {k : Nat} {c : Char} (h : parent.Ends k c) :
    k < parent.least := by
  cases parent with
  | document => cases h
  | entry column =>
      rcases h with h | h
      · exact Nat.lt_succ_of_lt h
      · exact Nat.lt_succ_of_le (Nat.le_of_eq h.1)
  | item column => exact Nat.lt_succ_of_le h

namespace Behind

variable {ends ends' : Nat → Char → Prop} {rest : List Char}

theorem mono (h : Behind ends rest) (hends : ∀ k c, ends k c → ends' k c) : Behind ends' rest := by
  cases h with
  | last => exact .last
  | line h hspace hline hcomment => exact .line (hends _ _ h) hspace hline hcomment

theorem exists_cons (h : Behind ends rest) : ∃ more, rest = '\n' :: more := by
  cases h with
  | last => exact ⟨[], rfl⟩
  | line => exact ⟨_, rfl⟩

theorem exists_ends (h : Behind ends rest) (hne : (next false false 0 rest).rest ≠ []) :
    ∃ c more, ends (next false false 0 rest).column c ∧
      (next false false 0 rest).rest = c :: more := by
  cases h with
  | last => exact absurd rfl hne
  | @line column c rest hends hspace hline hcomment =>
      rw [next_newline, next_word hspace hline hcomment]
      exact ⟨c, rest, hends, rfl⟩

theorem plain?_eq {parent : Parent} (h : Behind parent.Ends rest) (column : Nat) :
    plain? parent.least rest column (.blanks 0) rest = ([], rest) := by
  cases h with
  | last => rfl
  | @line k c more hends hspace hline hcomment =>
      rw [newline, List.cons_append, plain?_cons, if_neg (by decide), if_pos rfl]
      -- A line that looks like the marker of a document ends the scalar as well.
      split
      · rfl
      · rw [Gap.feed, plain?_indent, plain?_cons, if_neg hspace, if_neg hline, if_pos]
        refine .inr ⟨by simp, .inr ?_⟩
        rw [Nat.zero_add]
        exact hends.lt_least

end Behind

/-! ## Values, items and entries -/

section Steps

variable {construct : Tag → String → Option Value} {n least : Nat} {parent : Parent} {ahead : Ahead}
  {chars rest : List Char}

theorem not_mem_of_startsPlain {c : Char} {more : List Char} (h : startsPlain (c :: more) = true) :
    c ∉ [' ', '\n', '#', '[', '\x7b'] ∧ ¬ (c = '-' ∧ more.head?.all isSpacing = true) := by
  rw [startsPlain, Bool.and_eq_true, Bool.and_eq_true] at h
  obtain ⟨⟨hspacing, hindicator⟩, hfollowed⟩ := h
  constructor
  · intro hmem
    simp only [List.mem_cons, List.not_mem_nil, or_false] at hmem
    rcases hmem with rfl | rfl | rfl | rfl | rfl
    · cases hspacing
    · cases hspacing
    all_goals exact absurd hindicator (by decide)
  · rintro ⟨rfl, hblank⟩
    rw [hblank] at hfollowed
    exact absurd hfollowed (by decide)

/-- What a scalar begins with is neither a blank nor the start of something else. -/
theorem exists_of_scalar? {r : Option Tag × List Char × List Char}
    (h : scalar? least ahead = some r) :
    ∃ c more, ahead.rest = c :: more ∧ c ∉ [' ', '\n', '#', '[', '\x7b'] ∧
      ahead.isItem = false := by
  obtain ⟨fresh, column, text⟩ := ahead
  cases text with
  | nil => cases h
  | cons c more =>
      refine ⟨c, more, rfl, ?_⟩
      rw [scalar?] at h
      simp only at h
      split at h
      · next hc =>
        subst hc
        exact ⟨by decide, rfl⟩
      split at h
      · next hc =>
        subst hc
        exact ⟨by decide, rfl⟩
      split at h
      · next hstart =>
        obtain ⟨hmem, hdash⟩ := not_mem_of_startsPlain hstart.1
        refine ⟨hmem, ?_⟩
        rw [Ahead.isItem]
        split
        · next heq =>
          cases heq
          simpa using hdash
        · rfl
      · cases h

theorem next_of_scalar? {fresh : Bool} {column : Nat} {text : List Char}
    {r : Option Tag × List Char × List Char} (h : scalar? least ⟨fresh, column, text⟩ = some r) :
    next false fresh column text = ⟨fresh, column, text⟩ := by
  obtain ⟨c, more, htext, hc, -⟩ := exists_of_scalar? h
  simp only [List.mem_cons, not_or] at hc
  obtain rfl : text = c :: more := htext
  exact next_word hc.1 hc.2.1 hc.2.2.1 more

theorem exists_scalar_of_key? {key : Key} (h : key? least ahead = some key) :
    ∃ r, scalar? least ahead = some r := by
  rw [key?] at h
  split at h
  · next heq => exact ⟨_, heq⟩
  · cases h

theorem node?_eq {c : Char} {more : List Char} (htext : ahead.rest = c :: more)
    (hc : c ∉ [' ', '\n', '#', '[', '\x7b']) (hitem : ahead.isItem = false)
    (hhas : parent.has ahead = true) :
    node? construct (n + 1) parent ahead =
      match key? parent.least ahead with
      | some key =>
        if ahead.fresh then (entries? construct n ahead.column key).map fun r => (.gather r.1, r.2)
        else none
      | none =>
        match scalar? parent.least ahead with
        | some (tag, chars, rest) =>
          (typed construct tag chars).map fun v => (v, next false false 0 rest)
        | none => none := by
  simp only [List.mem_cons, not_or] at hc
  rw [node?, if_neg (by simp [htext, hhas]), if_neg (by simp [hitem])]
  split
  · next heq =>
    rw [htext] at heq
    exact absurd (List.cons.inj heq).1 hc.2.2.2.1
  · next heq =>
    rw [htext] at heq
    exact absurd (List.cons.inj heq).1 hc.2.2.2.2.1
  · rfl

theorem node?_scalar (h : scalar? parent.least ahead = some (none, chars, rest))
    (hrest : rest.head? = some '\n') (hhas : parent.has ahead = true) :
    node? construct (n + 1) parent ahead =
      some (.text (.ofList chars), next false false 0 rest) := by
  obtain ⟨c, more, htext, hc, hitem⟩ := exists_of_scalar? h
  obtain ⟨behind, rfl⟩ : ∃ behind, rest = '\n' :: behind := List.head?_eq_some_iff.mp hrest
  have hkey : key? parent.least ahead = none := by
    rw [key?, h]
    rfl
  rw [node?_eq htext hc hitem hhas, hkey, h]
  rfl

theorem node?_emptyList {fresh : Bool} {column : Nat}
    (hhas : parent.has ⟨fresh, column, '[' :: ']' :: rest⟩ = true) :
    node? construct (n + 1) parent ⟨fresh, column, '[' :: ']' :: rest⟩ =
      some (.list [], next false false 0 rest) := by
  refine (if_neg ?_).trans rfl
  simp [hhas]

theorem node?_emptyRecord {fresh : Bool} {column : Nat}
    (hhas : parent.has ⟨fresh, column, '\x7b' :: '\x7d' :: rest⟩ = true) :
    node? construct (n + 1) parent ⟨fresh, column, '\x7b' :: '\x7d' :: rest⟩ =
      some (.record [], next false false 0 rest) := by
  refine (if_neg ?_).trans rfl
  simp [hhas]

theorem node?_items {column : Nat} {text : List Char} (htext : text.head?.all isSpacing = true)
    (hhas : parent.has ⟨true, column, '-' :: text⟩ = true) :
    node? construct (n + 1) parent ⟨true, column, '-' :: text⟩ =
      (items? construct n column text).map fun r => (.list r.1, r.2) := by
  have hitem : Ahead.isItem ⟨true, column, '-' :: text⟩ = true := htext
  refine (if_neg ?_).trans (if_pos hitem)
  simp [hhas]

theorem node?_entries {key : Key} (h : key? parent.least ahead = some key)
    (hfresh : ahead.fresh = true) (hhas : parent.has ahead = true) :
    node? construct (n + 1) parent ahead =
      (entries? construct n ahead.column key).map fun r => (.gather r.1, r.2) := by
  obtain ⟨r, hscalar⟩ := exists_scalar_of_key? h
  obtain ⟨c, more, htext, hc, hitem⟩ := exists_of_scalar? hscalar
  rw [node?_eq htext hc hitem hhas, h, hfresh]
  rfl

theorem items?_succ (column : Nat) (text : List Char) : items? construct (n + 1) column text =
    match node? construct n (.item column) (next false true (column + 1) text) with
    | none => none
    | some (v, after) =>
      if after.fresh ∧ after.column = column ∧ after.isItem then
        (items? construct n column after.rest.tail).map fun r => (v :: r.1, r.2)
      else some ([v], after) :=
  rfl

theorem entries?_succ (column : Nat) (key : Key) : entries? construct (n + 1) column key =
    match node? construct n (.entry column) (next false false key.column key.rest) with
    | none => none
    | some (v, after) =>
      if after.fresh ∧ after.column = column ∧ after.rest ≠ [] then
        match key? (column + 1) after with
        | some key' => (entries? construct n column key').map fun r => ((key.text, v) :: r.1, r.2)
        | none => none
      else some ([(key.text, v)], after) :=
  rfl

theorem items?_last {column : Nat} {text : List Char} {v : Value} {after : Ahead}
    (h : node? construct n (.item column) (next false true (column + 1) text) = some (v, after))
    (hlast : after.column = column → after.isItem = false) :
    items? construct (n + 1) column text = some ([v], after) := by
  rw [items?_succ, h]
  simp only
  rw [if_neg]
  rintro ⟨-, hsame, hitem⟩
  rw [hlast hsame] at hitem
  cases hitem

theorem items?_more {column : Nat} {text more : List Char} {v : Value}
    (h : node? construct n (.item column) (next false true (column + 1) text) =
      some (v, ⟨true, column, '-' :: more⟩)) (hmore : more.head?.all isSpacing = true) :
    items? construct (n + 1) column text =
      (items? construct n column more).map fun r => (v :: r.1, r.2) := by
  rw [items?_succ, h]
  simp only
  rw [if_pos ⟨trivial, trivial, hmore⟩, List.tail_cons]

theorem entries?_last {column : Nat} {key : Key} {v : Value} {after : Ahead}
    (h : node? construct n (.entry column) (next false false key.column key.rest) = some (v, after))
    (hlast : after.column = column → after.rest = []) :
    entries? construct (n + 1) column key = some ([(key.text, v)], after) := by
  rw [entries?_succ, h]
  simp only
  rw [if_neg]
  rintro ⟨-, hsame, hne⟩
  exact hne (hlast hsame)

theorem entries?_more {key key' : Key} {v : Value}
    (h : node? construct n (.entry ahead.column) (next false false key.column key.rest) =
      some (v, ahead)) (hfresh : ahead.fresh = true)
    (hkey : key? (ahead.column + 1) ahead = some key') :
    entries? construct (n + 1) ahead.column key =
      (entries? construct n ahead.column key').map fun r => ((key.text, v) :: r.1, r.2) := by
  have hne : ahead.rest ≠ [] := by
    obtain ⟨r, hscalar⟩ := exists_scalar_of_key? hkey
    obtain ⟨c, more, htext, -⟩ := exists_of_scalar? hscalar
    simp [htext]
  rw [entries?_succ, h]
  simp only
  rw [if_pos ⟨hfresh, trivial, hne⟩, hkey]

end Steps

/-! ## Keys -/

/-- Keys that are written plain and on one line, and that cannot be taken for the marker of a
document. -/
structure IsWord (key : String) : Prop where
  fits : fitsPlain key.toList = true
  short : key.toList.length ≤ 122
  space : ' ' ∉ key.toList
  dash : key.toList.head? ≠ some '-'
  dot : key.toList.head? ≠ some '.'

theorem isWord_of_mem_attributes {key : String} (h : key ∈ Value.attributes) : IsWord key := by
  have hall : ∀ key ∈ Value.attributes, fitsPlain key.toList = true ∧ key.toList.length ≤ 122 ∧
      ' ' ∉ key.toList ∧ key.toList.head? ≠ some '-' ∧ key.toList.head? ≠ some '.' := by decide
  obtain ⟨hfits, hshort, hspace, hdash, hdot⟩ := hall key h
  exact ⟨hfits, hshort, hspace, hdash, hdot⟩

theorem plain_eq_self {text : List Char} (h : ' ' ∉ text) (indent column : Nat) (spaced : Bool) :
    plain indent column spaced text = text := by
  induction text generalizing column spaced with
  | nil => rfl
  | cons c text ih =>
      rw [List.mem_cons, not_or] at h
      rw [plain, if_neg (fun hc => h.1 hc.1.symm), ih h.2]

namespace IsWord

variable {key : String}

theorem length_pos (h : IsWord key) : 0 < key.toList.length := by
  obtain ⟨c, tail, hkey, -⟩ := exists_fits h.fits
  rw [hkey]
  exact Nat.succ_pos _

theorem isSimpleKey_eq (h : IsWord key) : isSimpleKey key.toList = true := by
  obtain ⟨c, tail, hkey, hfits⟩ := exists_fits h.fits
  have hordinary := List.all_eq_true.mp (all_of_fitsSingle (fitsSingle_of_fitsPlain h.fits))
  have hbreaks : (key.toList.all fun c =>
      c != '\n' && c != '\x85' && c != '\u2028' && c != '\u2029') = true := by
    rw [List.all_eq_true]
    intro d hd
    have hd' : isOrdinary d = true := hordinary d hd
    simp only [Bool.and_eq_true, bne_iff_ne]
    refine ⟨⟨⟨?_, ?_⟩, ?_⟩, ?_⟩
    · rintro rfl
      exact hfits.line (hkey ▸ hd)
    all_goals
      rintro rfl
      exact absurd hd' (by decide)
  rw [isSimpleKey, hbreaks, decide_eq_true h.short, hkey]
  rfl

theorem lead_eq (h : IsWord key) (indent : Nat) :
    lead indent key = ⟨key.toList ++ [':'], .key, indent + key.toList.length + 2⟩ := by
  rw [lead, if_pos h.isSimpleKey_eq, simpleKey, styleOf, if_pos h.fits]

theorem key?_eq (h : IsWord key) (fresh : Bool) {least column : Nat} (hleast : least ≤ column + 1)
    {more : List Char} (hmore : more.head?.all isSpacing = true) :
    key? least ⟨fresh, column, key.toList ++ ':' :: more⟩ =
      some ⟨key, column + key.toList.length + 1, more⟩ := by
  obtain ⟨c, tail, hkey, hfits⟩ := exists_fits h.fits
  have htail : ' ' ∉ tail := fun hmem => h.space (hkey ▸ List.mem_cons_of_mem c hmem)
  have hdash := h.dash
  have hdot := h.dot
  rw [hkey, List.head?_cons, ne_eq, Option.some.injEq] at hdash hdot
  have hstop : ∀ place, plain? least (':' :: more) place (.blanks 0) (':' :: more) =
      ([], ':' :: more) := by
    intro place
    rw [plain?_cons, if_neg (by decide), if_neg (by decide), if_pos (.inl ⟨rfl, hmore⟩)]
  have hscalar : scalar? least ⟨fresh, column, key.toList ++ ':' :: more⟩ =
      some (none, key.toList, ':' :: more) := by
    have hread : scalar? least ⟨fresh, column, c :: (plain (least + 1) 0 (c == ' ') tail ++
        ':' :: more)⟩ = some (none, c :: tail, ':' :: more) :=
      hfits.scalar?_eq (Nat.le_succ least) (Nat.succ_pos least) hleast hstop
        fun _ => startsMarker_of_ne hdash hdot
    rwa [plain_eq_self htail, ← List.cons_append, ← hkey] at hread
  have hwritten : (key.toList ++ ':' :: more).take
      ((key.toList ++ ':' :: more).length - (more.length + 1)) = key.toList := by
    rw [List.length_append, List.length_cons, Nat.add_sub_cancel, List.take_left]
  have hline : '\n' ∉ key.toList := hkey ▸ hfits.line
  have hcolon : (':' :: more).dropWhile (· == ' ') = ':' :: more := rfl
  rw [key?, hscalar]
  simp only [hcolon]
  rw [hwritten, if_pos ⟨hmore, hline, Nat.le_trans h.short (by decide)⟩, String.ofList_toList]

theorem behind (h : IsWord key) {ends : Nat → Char → Prop} {column : Nat}
    (hends : ∀ c, c ≠ '-' → ends column c) (rest : List Char) :
    Behind ends (newline column ++ (key.toList ++ rest)) := by
  obtain ⟨c, tail, hkey, hfits⟩ := exists_fits h.fits
  have hdash := h.dash
  rw [hkey, List.head?_cons, ne_eq, Option.some.injEq] at hdash
  rw [hkey]
  refine .line (hends c hdash) hfits.space ?_ hfits.not_indicator.2.2
  rintro rfl
  exact hfits.line List.mem_cons_self

end IsWord

end ClassDiagram.Yaml
