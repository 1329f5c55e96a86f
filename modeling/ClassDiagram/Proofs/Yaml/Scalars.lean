import ClassDiagram.Proofs.Yaml.Reader

/-!
# Scalars are read as they were

Whatever style a text is written in, its characters are read one after the other, and between two of
them the reader holds back what the writer has put there: spaces, or a line break with the
indentation behind it.
-/

namespace ClassDiagram.Yaml

variable {indent : Nat} {rest : List Char}

/-! ## Line breaks -/

theorem startsMarker_of_ne {c : Char} (hdash : c ≠ '-') (hdot : c ≠ '.') :
    startsMarker (c :: rest) = false := by
  simp [startsMarker, List.isPrefixOf, Ne.symm hdash, Ne.symm hdot]

theorem startsMarker_indent (hpos : 0 < indent) :
    startsMarker (List.replicate indent ' ' ++ rest) = false := by
  obtain ⟨indent, rfl⟩ : ∃ k, indent = k + 1 := ⟨indent - 1, by omega⟩
  rw [List.replicate_succ, List.cons_append]
  exact startsMarker_of_ne (by decide) (by decide)

theorem plain?_indent {least column : Nat} {mark : List Char} :
    plain? least mark column (.lines 0) (List.replicate indent ' ' ++ rest) =
      plain? least mark (column + indent) (.lines 0) rest := by
  induction indent generalizing column with
  | zero => rfl
  | succ indent ih =>
      rw [List.replicate_succ, List.cons_append, plain?_space, Nat.add_comm indent 1,
        ← Nat.add_assoc]
      exact ih

theorem single?_indent (n : Nat) :
    single? (.lines n) (List.replicate indent ' ' ++ rest) = single? (.lines n) rest := by
  induction indent with
  | zero => rfl
  | succ indent ih =>
      rw [List.replicate_succ, List.cons_append, single?_space]
      exact ih

theorem double?_indent (n : Nat) :
    double? (.joined n) (List.replicate indent ' ' ++ rest) = double? (.joined n) rest := by
  induction indent with
  | zero => rfl
  | succ indent ih =>
      rw [List.replicate_succ, List.cons_append, double?_space]
      exact ih

/-- What a reader holds back between the character `previous` and a text: nothing after a character
that has been kept; the spaces that came last, or the line break that one space has become; and the
line feeds that came last. -/
inductive Held : (previous : Option Char) → Gap → (text : List Char) → Prop
  | nothing {previous : Option Char} {text : List Char} (hspace : previous ≠ some ' ')
      (hline : previous ≠ some '\n') : Held previous (.blanks 0) text
  | spaces (n : Nat) {text : List Char} : Held (some ' ') (.blanks (n + 1)) text
  | folded {text : List Char} (h : text.head? ≠ some ' ') : Held (some ' ') (.lines 0) text
  | lines (n : Nat) {text : List Char} : Held (some '\n') (.lines (n + 1)) text

namespace Held

variable {previous : Option Char} {gap : Gap} {c : Char} {text : List Char}

theorem kept (hspace : c ≠ ' ') (hline : c ≠ '\n') : Held (some c) (.blanks 0) text :=
  .nothing (fun h => hspace (Option.some.inj h)) fun h => hline (Option.some.inj h)

/-- Spaces are held back after spaces or after nothing. -/
theorem exists_blanks (h : Held previous gap (' ' :: text)) (hline : previous ≠ some '\n') :
    ∃ n, gap = .blanks n := by
  cases h with
  | nothing => exact ⟨0, rfl⟩
  | spaces n => exact ⟨n + 1, rfl⟩
  | folded h => exact absurd rfl h
  | lines => exact absurd rfl hline

theorem eq_nothing (h : Held previous gap text) (hspace : previous ≠ some ' ')
    (hline : previous ≠ some '\n') : gap = .blanks 0 := by
  cases h with
  | nothing => rfl
  | spaces => exact absurd rfl hspace
  | folded => exact absurd rfl hspace
  | lines => exact absurd rfl hline

theorem eq_space (h : Held previous gap text) (hgap : gap ≠ .blanks 0)
    (hline : previous ≠ some '\n') : previous = some ' ' := by
  by_contra hspace
  exact hgap (h.eq_nothing hspace hline)

end Held

theorem Gap.text_space (n : Nat) (text : List Char) :
    (Gap.blanks (n + 1)).text ++ text = (Gap.blanks n).text ++ ' ' :: text := by
  simp [Gap.text, List.replicate_succ']

/-! ## Plain scalars -/

section Plain

variable {least : Nat}

theorem head_plain (column : Nat) (spaced : Bool) (c : Char) (text : List Char) :
    (plain indent column spaced (c :: text) ++ rest).head?.all isSpacing = isSpacing c := by
  rw [plain]
  split
  · next h =>
    rw [h.1]
    rfl
  · rfl

/-- A plain text is read up to where it ends, if the reader stops there. -/
theorem plain?_plain (hleast : least ≤ indent) (hpos : 0 < indent)
    (hstop : ∀ column, plain? least rest column (.blanks 0) rest = ([], rest))
    {text : List Char} (mark : List Char) {previous : Char} {gap : Gap} (column place : Nat)
    (hline : '\n' ∉ previous :: text) (hindicator : hasIndicator previous text = false)
    (hlast : (previous :: text).getLast? ≠ some ' ')
    (hmark : gap = .blanks 0 → mark = plain indent column (previous == ' ') text ++ rest)
    (hheld : Held (some previous) gap text) (hplace : least ≤ place) :
    plain? least mark place gap (plain indent column (previous == ' ') text ++ rest) =
      (gap.text ++ text, rest) := by
  induction text generalizing mark previous gap column place with
  | nil =>
      have hspace : some previous ≠ some ' ' := hlast
      have hfeed : some previous ≠ some '\n' := by
        rintro ⟨⟩
        exact hline List.mem_cons_self
      obtain rfl := hheld.eq_nothing hspace hfeed
      rw [plain, List.nil_append] at hmark ⊢
      rw [hmark rfl, hstop]
      rfl
  | cons c text ih =>
      rw [hasIndicator, Bool.or_eq_false_iff, Bool.or_eq_false_iff] at hindicator
      obtain ⟨⟨hcolon, hnumber⟩, hindicator⟩ := hindicator
      rw [List.getLast?_cons_cons] at hlast
      have hfeed : some previous ≠ some '\n' := by
        rintro ⟨⟩
        exact hline List.mem_cons_self
      have hline' : '\n' ∉ c :: text := fun h => hline (List.mem_cons_of_mem _ h)
      by_cases hc : c = ' '
      · subst hc
        rw [plain]
        split
        · next hfold =>
          -- A space that becomes a line break stands alone, so that nothing is held back before it.
          have hprevious : some previous ≠ some ' ' := by simpa using hfold.2.1
          obtain rfl := hheld.eq_nothing hprevious hfeed
          rw [newline, List.cons_append, List.cons_append, List.append_assoc,
            plain?_feed (startsMarker_indent hpos), Gap.feed, plain?_indent, Nat.zero_add]
          exact ih _ _ _ hline' hindicator hlast (by simp) (.folded hfold.2.2.1) hleast
        · obtain ⟨n, rfl⟩ := hheld.exists_blanks hfeed
          rw [List.cons_append, plain?_space, Gap.space]
          rw [← Gap.text_space]
          exact ih _ _ _ hline' hindicator hlast (by simp) (.spaces n) (by omega)
      · have hfeed' : c ≠ '\n' := by
          rintro rfl
          exact hline' List.mem_cons_self
        rw [plain, if_neg (fun h => hc h.1), List.cons_append, plain?_kept hc hfeed']
        · rw [ih _ _ _ hline' hindicator hlast (fun _ => rfl) (.kept hc hfeed') (by omega)]
          simp [prepend, Gap.text]
        · rintro ⟨rfl, hblank⟩
          cases text with
          | nil => simp at hcolon
          | cons d text =>
              rw [head_plain] at hblank
              simp [hblank] at hcolon
        · intro hgap
          obtain rfl : previous = ' ' := Option.some.inj (hheld.eq_space hgap hfeed)
          refine ⟨?_, hplace⟩
          rintro rfl
          cases hnumber

end Plain

/-! ## Text between single quotes -/

/-- The last line feed before a text that goes on with another one, or with an indentation that is
passed over. -/
theorem single?_lastFeed (hpos : 0 < indent) {gap : Gap} {n : Nat} (hgap : gap.feed = .lines n)
    (text : List Char) :
    single? gap ('\n' :: ((if text.head? = some '\n' then [] else List.replicate indent ' ') ++
      (single indent indent (some '\n') text ++ '\x27' :: rest))) =
      single? (.lines n) (single indent indent (some '\n') text ++ '\x27' :: rest) := by
  split
  · next hnext =>
    obtain ⟨more, rfl⟩ : ∃ more, text = '\n' :: more := by
      cases text with
      | nil => cases hnext
      | cons c more =>
          cases hnext
          exact ⟨more, rfl⟩
    rw [List.nil_append, single?_feed, hgap]
    rw [single, if_pos rfl]
    exact startsMarker_of_ne (by decide) (by decide)
  · rw [single?_feed (startsMarker_indent hpos), hgap, single?_indent]

/-- A text between single quotes is read up to the closing quote, if no other quote follows. -/
theorem single?_single (hpos : 0 < indent) (hrest : rest.head? ≠ some '\x27')
    {text : List Char} (previous : Option Char) {gap : Gap} (column : Nat)
    (hspaces : hasPair '\n' ' ' (previous.toList ++ text) = false)
    (hfeeds : hasPair ' ' '\n' (previous.toList ++ text) = false) (hheld : Held previous gap text) :
    single? gap (single indent column previous text ++ '\x27' :: rest) =
      some (gap.text ++ text, rest) := by
  induction text generalizing previous gap column with
  | nil =>
      rw [single, List.nil_append, single?_close hrest, List.append_nil]
  | cons c text ih =>
      have hspaces' : hasPair '\n' ' ' (c :: text) = false := by
        cases previous with
        | none => exact hspaces
        | some p => exact (Bool.or_eq_false_iff.mp hspaces).2
      have hfeeds' : hasPair ' ' '\n' (c :: text) = false := by
        cases previous with
        | none => exact hfeeds
        | some p => exact (Bool.or_eq_false_iff.mp hfeeds).2
      rw [single]
      split
      · next hc =>
        subst hc
        have hread : ∀ n, single? (.lines (n + 1)) (single indent indent (some '\n') text ++
            '\x27' :: rest) = some ((Gap.lines (n + 1)).text ++ text, rest) :=
          fun n => ih _ _ hspaces' hfeeds' (.lines n)
        rw [List.append_assoc, List.append_assoc]
        -- A run of line feeds begins with one more, which is the one that a reader takes for a
        -- space.
        cases hheld with
        | nothing hspace hline =>
            rw [if_neg hline, List.cons_append, List.singleton_append,
              single?_feed (startsMarker_of_ne (by decide) (by decide)),
              single?_lastFeed hpos rfl, hread 0]
            rfl
        | spaces => simp [hasPair] at hfeeds
        | folded => simp [hasPair] at hfeeds
        | lines n =>
            rw [if_pos rfl, List.singleton_append, single?_lastFeed hpos rfl, hread (n + 1)]
            simp [Gap.text, List.replicate_succ']
      split
      · next hline hc =>
        subst hc
        rw [List.cons_append, List.cons_append, single?_quote,
          ih (some '\x27') _ hspaces' hfeeds' (.kept (by decide) hline)]
        simp [prepend, Gap.text]
      split
      · next hline hquote hfold =>
        obtain ⟨rfl, -, hprevious, -, hnext, -⟩ := hfold
        have hprevious' : previous ≠ some '\n' := by
          rintro rfl
          simp [hasPair] at hspaces
        obtain rfl := hheld.eq_nothing hprevious hprevious'
        rw [newline, List.cons_append, List.cons_append, List.append_assoc,
          single?_feed (startsMarker_indent hpos), Gap.feed, single?_indent,
          ih (some ' ') _ hspaces' hfeeds' (.folded hnext)]
        rfl
      · next hline hquote hfold =>
        by_cases hc : c = ' '
        · subst hc
          have hprevious : previous ≠ some '\n' := by
            rintro rfl
            simp [hasPair] at hspaces
          obtain ⟨n, rfl⟩ := hheld.exists_blanks hprevious
          rw [List.cons_append, single?_space, Gap.space, ← Gap.text_space]
          exact ih (some ' ') _ hspaces' hfeeds' (.spaces n)
        · rw [List.cons_append, single?_kept hc hline hquote,
            ih (some c) _ hspaces' hfeeds' (.kept hc hline)]
          simp [prepend, Gap.text]

/-! ## Text between double quotes -/

theorem unescape?_of_escapeLetter? {c letter : Char} (h : escapeLetter? c = some letter) :
    unescape? letter = some c := by
  obtain ⟨before, after, htable, -⟩ := List.lookup_eq_some_iff.mp h
  have hall : ∀ p ∈ before ++ (c, letter) :: after, unescape? p.2 = some p.1 := by
    rw [← htable]
    decide
  exact hall (c, letter) (by simp)

theorem coded?_hexUpper {c : Char} {width : Nat} (h : c.toNat < 16 ^ width) :
    coded? (Text.hexUpper width c.toNat) = some c := by
  have hvalid : c.toNat.isValidChar := c.valid
  rw [coded?, Text.hexNumber?_hexUpper h, Option.bind_some, if_pos hvalid, Char.ofNat_toNat]

theorem double?_escape {c : Char} {text : List Char} (h : escape? c = some text) (gap : Gap)
    (rest : List Char) : double? gap (text ++ rest) =
      (double? (.blanks 0) rest).map (prepend (gap.text ++ [c])) := by
  unfold escape? at h
  split at h
  · next letter hletter =>
    cases h
    exact double?_letter (unescape?_of_escapeLetter? hletter)
  have hcode : ∀ mark width, (mark, width) ∈ [('x', 2), ('u', 4), ('U', 8)] →
      c.toNat < 16 ^ width →
      double? gap ('\\' :: mark :: (Text.hexUpper width c.toNat ++ rest)) =
        (double? (.blanks 0) rest).map (prepend (gap.text ++ [c])) := by
    intro mark width hmark hlt
    exact double?_code hmark (Text.length_hexUpper ..) (coded?_hexUpper hlt)
  split at h
  · cases h
  split at h
  · next hle =>
    cases h
    exact hcode 'x' 2 (by decide) (Nat.lt_succ_of_le hle)
  split at h
  · next hle =>
    cases h
    exact hcode 'u' 4 (by decide) (Nat.lt_succ_of_le hle)
  · cases h
    exact hcode 'U' 8 (by decide) c.val.toNat_lt

theorem plain_of_escape?_eq_none {c : Char} (h : escape? c = none) :
    (0x20 ≤ c.toNat ∧ c.toNat ≤ 0x7E) ∧ c ≠ '\n' ∧ c ≠ '"' ∧ c ≠ '\\' := by
  refine ⟨?_, ?_, ?_, ?_⟩
  · unfold escape? at h
    split at h
    · cases h
    split at h
    · assumption
    split at h
    · cases h
    split at h
    · cases h
    · cases h
  · rintro rfl
    exact absurd h (by decide)
  · rintro rfl
    exact absurd h (by decide)
  · rintro rfl
    exact absurd h (by decide)

/-- An escaped line break is passed over with the indentation behind it. -/
theorem double?_fold (hpos : 0 < indent) (gap : Gap) (next : Option Char) (more : List Char) :
    double? gap (fold indent next ++ more) =
      (double? (.joined 0) ((if next = some ' ' then ['\\'] else []) ++ more)).map
        (prepend gap.text) := by
  rw [fold, newline, List.cons_append, List.cons_append, List.cons_append, List.append_assoc,
    double?_join (startsMarker_indent hpos), double?_indent]

/-- What a reader of text between double quotes holds back before a text: spaces, or nothing after
an escaped line break. -/
inductive Kept : Gap → (text : List Char) → Prop
  | blanks (n : Nat) {text : List Char} : Kept (.blanks n) text
  | joined {text : List Char} (h : text.head? ≠ some ' ') : Kept (.joined 0) text

/-- A text between double quotes is read up to the closing quote, from a place between two of its
characters, and from the backslash that keeps a space at the start of a line. -/
theorem double?_double (hpos : 0 < indent) (hwidth : indent < width) (text : List Char) :
    (∀ gap column spot, Kept gap text →
      double? gap (double indent column spot text ++ '"' :: rest) = some (gap.text ++ text, rest)) ∧
    (text.head? = some ' ' →
      double? (.joined 0) ('\\' :: (double indent (indent + 1) .escaped text ++ '"' :: rest)) =
        some (text, rest)) := by
  induction text with
  | nil =>
      refine ⟨?_, by simp⟩
      intro gap column spot _
      rw [double, List.nil_append, double?_close, List.append_nil]
  | cons c text ih =>
      obtain ⟨hread, hspace⟩ := ih
      have hnext : ∀ column spot,
          double? (.blanks 0) (double indent column spot text ++ '"' :: rest) =
            some (text, rest) :=
        fun column spot => hread _ column spot (.blanks 0)
      refine ⟨?_, ?_⟩
      · intro gap column spot hkept
        rw [double]
        split
        · next escaped hescape =>
          split
          · rw [List.append_assoc, List.append_assoc, double?_escape hescape, double?_fold hpos]
            by_cases hhead : text.head? = some ' '
            · rw [if_pos hhead, List.singleton_append, foldColumn, if_pos hhead, hspace hhead]
              simp [prepend, Gap.text]
            · rw [if_neg hhead, List.nil_append, hread _ _ _ (.joined hhead)]
              simp [prepend, Gap.text]
          · rw [List.append_assoc, double?_escape hescape, hnext]
            simp [prepend]
        · next hescape =>
          obtain ⟨-, hline, hquote, hbackslash⟩ := plain_of_escape?_eq_none hescape
          split
          · rw [List.append_assoc, double?_fold hpos]
            by_cases hc : c = ' '
            · subst hc
              rw [if_pos rfl, List.singleton_append, List.cons_append, double?_letter rfl, hnext]
              simp [prepend, Gap.text]
            · rw [if_neg (by simpa using hc), List.nil_append, List.cons_append,
                double?_kept hc hline hquote hbackslash, hnext]
              simp [prepend, Gap.text]
          · rw [List.cons_append]
            by_cases hc : c = ' '
            · subst hc
              cases hkept with
              | blanks n =>
                  rw [double?_space, Gap.space, ← Gap.text_space]
                  exact hread _ _ _ (.blanks (n + 1))
              | joined h => exact absurd rfl h
            · rw [double?_kept hc hline hquote hbackslash, hnext]
              simp [prepend]
      · -- The line is not broken again before the space that its backslash keeps.
        intro hhead
        obtain rfl : c = ' ' := Option.some.inj hhead
        have hescape : escape? ' ' = none := by decide
        rw [double]
        simp only [hescape]
        rw [if_neg (fun h => Nat.not_lt.mpr hwidth h.2.2), List.cons_append, double?_letter rfl,
          hnext]
        rfl

/-! ## Any text -/

theorem styleOf_cases (text : List Char) :
    (styleOf text = .plain ∧ fitsPlain text = true) ∨
      (styleOf text = .single ∧ fitsSingle text = true) ∨ styleOf text = .double := by
  unfold styleOf
  split
  · exact .inl ⟨rfl, ‹_›⟩
  split
  · exact .inr (.inl ⟨rfl, ‹_›⟩)
  · exact .inr (.inr rfl)

theorem all_of_fitsSingle {text : List Char} (h : fitsSingle text = true) :
    text.all isOrdinary = true := by
  rw [fitsSingle, Bool.and_eq_true, Bool.and_eq_true] at h
  exact h.1.1

theorem fitsSingle_of_fitsPlain {text : List Char} (h : fitsPlain text = true) :
    fitsSingle text = true := by
  simp only [fitsPlain, Bool.and_eq_true] at h
  exact h.1.1.1.1.1

theorem not_isSpacing {c : Char} (hordinary : isOrdinary c = true) (hspace : c ≠ ' ')
    (hline : c ≠ '\n') : isSpacing c = false := by
  simp only [isSpacing, Bool.or_eq_false_iff, beq_eq_false_iff_ne]
  refine ⟨⟨⟨⟨⟨⟨⟨?_, hspace⟩, ?_⟩, ?_⟩, hline⟩, ?_⟩, ?_⟩, ?_⟩
  all_goals
    rintro rfl
    exact absurd hordinary (by decide)

/-- What is known of a text that is written plain, by its first character. -/
structure Fits (c : Char) (text : List Char) : Prop where
  space : c ≠ ' '
  line : '\n' ∉ c :: text
  spacing : isSpacing c = false
  start : startsWithIndicator (c :: text) = false
  indicator : hasIndicator c text = false
  last : (c :: text).getLast? ≠ some ' '
  untyped : isTyped (c :: text) = false

theorem exists_fits {text : List Char} (h : fitsPlain text = true) :
    ∃ c more, text = c :: more ∧ Fits c more := by
  have hall := all_of_fitsSingle (fitsSingle_of_fitsPlain h)
  simp only [fitsPlain, Bool.and_eq_true, Bool.not_eq_true'] at h
  obtain ⟨⟨⟨⟨⟨-, hline⟩, hedge⟩, hstart⟩, hindicator⟩, htyped⟩ := h
  cases text with
  | nil => exact absurd htyped (by decide)
  | cons c more =>
      rw [hasEdge, Bool.or_eq_false_iff] at hedge
      rw [List.all_cons, Bool.and_eq_true] at hall
      have hfirst : c ≠ ' ' ∧ c ≠ '\n' := by simpa using hedge.1
      refine ⟨c, more, rfl, hfirst.1, ?_, not_isSpacing hall.1 hfirst.1 hfirst.2, hstart,
        hindicator, ?_, htyped⟩
      · simpa using hline
      · intro hlast
        rw [hlast] at hedge
        simp at hedge

namespace Fits

variable {c : Char} {text : List Char}

theorem not_indicator (h : Fits c text) : c ≠ '\x27' ∧ c ≠ '"' ∧ c ≠ '#' := by
  have hstart := h.start
  refine ⟨?_, ?_, ?_⟩
  all_goals
    rintro rfl
    simp [startsWithIndicator] at hstart

theorem startsPlain (h : Fits c text) (column : Nat) (spaced : Bool) (rest : List Char) :
    Yaml.startsPlain (c :: (plain indent column spaced text ++ rest)) = true := by
  have hstart := h.start
  rw [startsWithIndicator, Bool.or_eq_false_iff, Bool.or_eq_false_iff] at hstart
  obtain ⟨⟨-, hmark⟩, hfollowed⟩ := hstart
  rw [Yaml.startsPlain, h.spacing, hmark, Bool.not_false, Bool.true_and, Bool.true_and,
    ← Bool.not_and, Bool.not_eq_true']
  cases text with
  | nil =>
      have hnot : ['?', ':', '-'].contains c = false := by
        rcases Bool.and_eq_false_iff.mp hfollowed with hnot | hnot
        · exact hnot
        · cases hnot
      rw [hnot, Bool.false_and]
  | cons d text =>
      rw [head_plain]
      exact hfollowed

/-- A text that is written plain is read as text. -/
theorem scalar?_eq {least place column : Nat} {fresh : Bool} (h : Fits c text)
    (hleast : least ≤ indent) (hpos : 0 < indent) (hplace : least ≤ place + 1)
    (hstop : ∀ column, plain? least rest column (.blanks 0) rest = ([], rest))
    (hmarker : place = 0 →
      startsMarker (c :: (plain indent column (c == ' ') text ++ rest)) = false) :
    scalar? least ⟨fresh, place, c :: (plain indent column (c == ' ') text ++ rest)⟩ =
      some (none, c :: text, rest) := by
  have hline : c ≠ '\n' := by
    rintro rfl
    exact h.line List.mem_cons_self
  have hcolon :
      ¬ (c = ':' ∧ (plain indent column (c == ' ') text ++ rest).head?.all isSpacing) := by
    rintro ⟨rfl, hblank⟩
    have hstart :
        Yaml.startsPlain (':' :: (plain indent column (':' == ' ') text ++ rest)) = true :=
      h.startsPlain column _ rest
    rw [Yaml.startsPlain, hblank] at hstart
    simp at hstart
  have hread := plain?_plain hleast hpos hstop (plain indent column (c == ' ') text ++ rest) column
    (place + 1) h.line h.indicator h.last (fun _ => rfl) (.kept h.space hline) hplace
  have hstart : Yaml.startsPlain (c :: (plain indent column (c == ' ') text ++ rest)) = true ∧
      ¬ (place = 0 ∧
        startsMarker (c :: (plain indent column (c == ' ') text ++ rest)) = true) := by
    refine ⟨h.startsPlain column _ rest, ?_⟩
    rintro ⟨hzero, hmark⟩
    rw [hmarker hzero] at hmark
    cases hmark
  rw [scalar?]
  simp only
  rw [if_neg h.not_indicator.1, if_neg h.not_indicator.2.1, if_pos hstart,
    plain?_kept h.space hline hcolon (fun hgap => absurd rfl hgap), hread]
  simp [prepend, Gap.text, Tag.ofPlain?_eq_none h.untyped]

end Fits

/-- Whatever style a text is written in, it is read as this text. -/
theorem scalar?_write {least place column : Nat} {fresh : Bool} (text : List Char)
    (hleast : least ≤ indent) (hpos : 0 < indent) (hwidth : indent < width) (hplace : least ≤ place)
    (hzero : 0 < place) (hrest : rest.head? ≠ some '\x27')
    (hstop : ∀ column, plain? least rest column (.blanks 0) rest = ([], rest)) :
    scalar? least ⟨fresh, place, write indent column text (styleOf text) ++ rest⟩ =
      some (none, text, rest) := by
  rcases styleOf_cases text with ⟨hstyle, hfits⟩ | ⟨hstyle, hfits⟩ | hstyle
  · obtain ⟨c, more, rfl, h⟩ := exists_fits hfits
    rw [hstyle, write, plain, if_neg (fun hc => h.space hc.1), List.cons_append]
    exact h.scalar?_eq hleast hpos (by omega) hstop (by omega)
  · rw [fitsSingle, Bool.and_eq_true, Bool.and_eq_true, Bool.not_eq_true',
      Bool.not_eq_true'] at hfits
    have hread := single?_single hpos hrest none (column + 1) hfits.1.2 hfits.2
      (.nothing (by decide) (by decide))
    rw [hstyle, write, List.cons_append, List.append_assoc, List.singleton_append, scalar?_single,
      hread]
    rfl
  · have hread : double? (.blanks 0) (double indent (column + 1) .first text ++ '"' :: rest) =
        some (text, rest) :=
      (double?_double hpos hwidth text).1 (.blanks 0) (column + 1) .first (.blanks 0)
    rw [hstyle, write, List.cons_append, List.append_assoc, List.singleton_append, scalar?_double,
      hread]
    rfl

end ClassDiagram.Yaml
