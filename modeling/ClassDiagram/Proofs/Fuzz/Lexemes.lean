import ClassDiagram.Proofs.Fuzz.Edits
import ClassDiagram.Proofs.Lexing.Returns
import ClassDiagram.Proofs.Positions

/-!
# Pieces and lexemes

Pieces are cut from any text, and lexemes from a text that is made of tokens.  On such a text both
are cut at the same points, but for blanks, which a piece takes all at once, as long as no label
holds a backslash: pieces know of no escapes.  So the pieces that are not layout are the lexemes.
-/

namespace ClassDiagram

namespace Text

/-- White space by code point. -/
def blankRanges : List CodeRange :=
  [(0x09, 0x0D), (0x1C, 0x20), (0x85, 0x85), (0xA0, 0xA0), (0x1680, 0x1680), (0x2000, 0x200A),
   (0x2028, 0x2029), (0x202F, 0x202F), (0x205F, 0x205F), (0x3000, 0x3000)]

theorem exists_blankRange {c : Char} (h : isBlank c = true) :
    ∃ b ∈ blankRanges, b.1 ≤ c.toNat ∧ c.toNat ≤ b.2 := by
  simp only [isBlank, Bool.or_eq_true, Bool.and_eq_true, decide_eq_true_eq, beq_iff_eq] at h
  simp only [blankRanges, List.mem_cons, List.not_mem_nil, or_false, exists_eq_or_imp,
    exists_eq_left]
  omega

theorem isBlank_of_isSpace {c : Char} (h : Layout.isSpace c = true) : isBlank c = true := by
  simp only [Layout.isSpace, Bool.or_eq_true, beq_iff_eq] at h
  rcases h with ((rfl | rfl) | rfl) | rfl <;> decide

theorem le_toNat_of_isAlphanum {c : Char} (h : c.isAlphanum = true) : 0x30 ≤ c.toNat := by
  change ((decide (0x41 ≤ c.val ∧ c.val ≤ 0x5A) || (decide (0x61 ≤ c.val) && decide (c.val ≤ 0x7A)))
    || (decide (0x30 ≤ c.val) && decide (c.val ≤ 0x39))) = true at h
  simp only [Bool.or_eq_true, Bool.and_eq_true, decide_eq_true_eq, UInt32.le_iff_toNat_le] at h
  change ((0x41 ≤ c.toNat ∧ c.toNat ≤ 0x5A) ∨ (0x61 ≤ c.toNat ∧ c.toNat ≤ 0x7A)) ∨
    (0x30 ≤ c.toNat ∧ c.toNat ≤ 0x39) at h
  omega

/-- No word holds white space. -/
theorem isWordChar_of_isBlank {c : Char} (h : isBlank c = true) : isWordChar c = false := by
  obtain ⟨b, hb, hlow, hhigh⟩ := exists_blankRange h
  have hunderscore : ∀ b ∈ blankRanges, '_'.toNat < b.1 ∨ b.2 < '_'.toNat := by decide
  have halphanumeric : isAlphanumeric c = false := by
    unfold isAlphanumeric
    split
    · next hascii =>
      have hbelow : ∀ b ∈ blankRanges, b.2 < 0x30 ∨ 0x80 ≤ b.1 := by decide
      refine Bool.eq_false_iff.mpr fun halphanum => ?_
      have hfirst := le_toNat_of_isAlphanum halphanum
      have := hbelow b hb
      omega
    · have hapart : ∀ b ∈ blankRanges, ∀ r ∈ alphanumericRanges, r.2 < b.1 ∨ b.2 < r.1 := by
        decide +kernel
      rw [Bool.eq_false_iff, Ne, CodeRange.covers_eq_true_iff]
      rintro ⟨r, hr, hfirst, hlast⟩
      have := hapart b hb r hr
      omega
  rw [isWordChar, halphanumeric, Bool.false_or, beq_eq_false_iff_ne]
  rintro rfl
  have := hunderscore b hb
  omega

end Text

namespace Token

variable {before run rest text lexeme lexeme' : List Char} {tokens : List Token} {t : Token}

/-- What stands in a text at the place of a token: the longest spelling there, which says what the
token says. -/
def StandsIn (t : Token) (text lexeme : List Char) : Prop :=
  ∃ before after, text = before ++ (lexeme ++ after) ∧ t.place = .behind before ∧
    Munch lexeme after t.kind t.value.toList

/-- No label among the tokens stands in the text with a backslash. -/
def NoEscapes (text : List Char) (tokens : List Token) : Prop :=
  ∀ t ∈ tokens, t.kind = .quotation → ∀ lexeme, t.StandsIn text lexeme → '\\' ∉ lexeme

theorem noEscapes_of_not_mem (h : '\\' ∉ text) (tokens : List Token) : NoEscapes text tokens := by
  rintro t - - lexeme ⟨before, after, rfl, -⟩ hmem
  exact h (List.mem_append_right _ (List.mem_append_left _ hmem))

theorem StandsIn.unique (h : t.StandsIn text lexeme) (h' : t.StandsIn text lexeme') :
    lexeme = lexeme' := by
  obtain ⟨before, after, htext, hplace, hmunch⟩ := h
  obtain ⟨before', after', htext', hplace', hmunch'⟩ := h'
  have hbefore : before = before' := by
    apply Place.eq_of_behind_eq ⟨_, htext.symm⟩ ⟨_, htext'.symm⟩
    rw [← hplace, hplace']
  subst hbefore
  have heq := List.append_cancel_left (htext.symm.trans htext')
  exact (hmunch.unique hmunch' heq).1

theorem Cuts.exists_standsIn (h : Cuts before run tokens rest) :
    ∀ t ∈ tokens, ∃ lexeme, t.StandsIn (before ++ (run ++ rest)) lexeme := by
  induction h with
  | nil => simp
  | layout _ _ ih => simpa using ih
  | @token before text run rest value kind tokens hmunch _ ih =>
      refine List.forall_mem_cons.mpr ⟨?_, by simpa using ih⟩
      refine ⟨text, before, run ++ rest, by simp, rfl, ?_⟩
      rwa [String.toList_ofList]

/-- No spelling begins with white space of any kind. -/
theorem Spelling.exists_head_not_blank {value : List Char} {kind : Kind}
    (h : Spelling text kind value) : ∃ c more, text = c :: more ∧ Text.isBlank c = false := by
  cases h with
  | @operator o ho =>
      have hall : ∀ o ∈ Operator.table, o.spelling.head?.any (fun c => !Text.isBlank c) = true := by
        decide
      obtain ⟨c, more, hspelling⟩ := List.exists_cons_of_ne_nil (Operator.spelling_ne_nil ho)
      have hc := hall o ho
      exact ⟨c, more, hspelling, by simpa [hspelling] using hc⟩
  | word hne hword =>
      obtain ⟨c, more, rfl⟩ := List.exists_cons_of_ne_nil hne
      refine ⟨c, more, rfl, Bool.eq_false_iff.mpr fun hblank => ?_⟩
      have hc := hword c List.mem_cons_self
      rw [Text.isWordChar_of_isBlank hblank] at hc
      cases hc
  | mark hmark =>
      refine ⟨_, _, rfl, ?_⟩
      unfold Kind.ofMark? at hmark
      split at hmark <;> cases hmark <;> decide
  | label => exact ⟨_, _, rfl, by decide⟩

theorem Spelling.quote_not_mem {value : List Char} {kind : Kind} (h : Spelling text kind value)
    (hkind : kind ≠ .quotation) : '"' ∉ text := by
  rcases h.label_or_plain with ⟨raw, rfl, hraw⟩ | ⟨hquote, -⟩
  · exact absurd (h.unique (.label hraw)).1 hkind
  · exact hquote

theorem Munch.exists_at? {value : List Char} {kind : Kind} (h : Munch text rest kind value) :
    ∃ s, Grammar.Symbol.at? (text ++ rest) = some s ∧ s.text = text := by
  obtain ⟨s, hat, hle⟩ :=
    Grammar.Symbol.exists_at?_of_spelling h.spelling (List.prefix_append text rest)
  obtain ⟨hspelling, hbegins⟩ := Grammar.Symbol.spelling_of_at? hat
  have hge := h.longest _ _ _ hspelling hbegins
  refine ⟨s, hat, ?_⟩
  have hwithin := List.prefix_of_prefix_length_le hbegins (List.prefix_append text rest) hge
  exact hwithin.eq_of_length (Nat.le_antisymm hge hle)

/-- Where a text is cut into tokens, white space of any kind is a blank. -/
theorem Cuts.isSpace_of_isBlank {c : Char} (h : Cuts before (c :: run) tokens rest)
    (hc : Text.isBlank c = true) : Layout.isSpace c = true := by
  rcases h.exists_next with ⟨hnil, -⟩ | ⟨piece, more, _, _, hrun, -, hnext, -⟩
  · cases hnil
  cases hnext with
  | layout hpiece =>
      cases hpiece with
      | blank hspace =>
          rw [(List.cons.inj hrun).1]
          exact hspace
      | comment =>
          rw [(List.cons.inj hrun).1] at hc
          cases hc
  | token hmunch =>
      obtain ⟨d, tail, rfl, hd⟩ := hmunch.spelling.exists_head_not_blank
      rw [(List.cons.inj hrun).1, hd] at hc
      cases hc

theorem Cuts.of_blanks {blanks : List Char} (h : Cuts before (blanks ++ run) tokens rest)
    (hblanks : ∀ c ∈ blanks, Text.isBlank c = true) :
    Cuts (before ++ blanks) run tokens rest := by
  induction blanks generalizing before with
  | nil => simpa using h
  | cons c blanks ih =>
      obtain ⟨hc, hmore⟩ := List.forall_mem_cons.mp hblanks
      have hrest := ih (h.of_blank (h.isSpace_of_isBlank hc)) hmore
      simpa using hrest

end Token

namespace Fuzz.Pieces

open Grammar

variable {c : Char} {rest : List Char}

/-! ## How far the first piece goes -/

theorem labelLength_of_spelling {raw value : List Char} (h : Label.Spelling raw value)
    (hraw : '\\' ∉ raw) (rest : List Char) :
    labelLength (raw ++ '"' :: rest) = raw.length + 1 := by
  induction h with
  | nil => simp [labelLength]
  | @plain d raw value hquote hslash hfeed _ ih =>
      have hlength := ih (List.not_mem_of_not_mem_cons hraw)
      rw [List.cons_append, labelLength, hlength, List.length_cons]
      · exact hquote
      · exact hfeed
  | escaped => exact absurd List.mem_cons_self hraw

theorem pieceLength_comment {words : List Char} (hwords : '\n' ∉ words)
    (hend : rest = [] ∨ ∃ more, rest = '\n' :: more) :
    pieceLength '/' ('/' :: (words ++ rest)) = words.length + 2 := by
  simp [pieceLength, Layout.takeWhile_line hwords hend]

theorem pieceLength_blank (h : Text.isBlank c = true) (rest : List Char) :
    pieceLength c rest = ((c :: rest).takeWhile Text.isBlank).length := by
  have hquote : c ≠ '"' := by
    rintro rfl
    cases h
  have hslash : c ≠ '/' := by
    rintro rfl
    cases h
  have hoperator : Operator.at? (c :: rest) = none := by
    cases hat : Operator.at? (c :: rest) with
    | none => rfl
    | some o =>
        obtain ⟨more, hmore⟩ := Operator.spelling_append_of_at? hat
        have hspelling := Token.Spelling.operator (Operator.mem_table_of_at? hat)
        obtain ⟨d, tail, hd, hblank⟩ := hspelling.exists_head_not_blank
        rw [hd] at hmore
        rw [(List.cons.inj hmore).1, hblank] at h
        cases h
  simp [pieceLength, hquote, hslash, hoperator, Text.isWordChar_of_isBlank h, h]

/-- But for labels, the first piece is what comes next as a symbol. -/
theorem pieceLength_of_at? {s : Symbol} (h : Symbol.at? (c :: rest) = some s) (hquote : c ≠ '"') :
    pieceLength c rest = s.text.length := by
  obtain ⟨hspelling, hbegins⟩ := Symbol.spelling_of_at? h
  have hslash : c ≠ '/' := by
    obtain ⟨d, more, htext, -, hd⟩ := hspelling.exists_head
    rw [htext] at hbegins
    rwa [(List.cons_prefix_cons.mp hbegins).1] at hd
  cases hoperator : Operator.at? (c :: rest) with
  | some o =>
      rw [Symbol.at?_of_operator hoperator] at h
      cases h
      simp [pieceLength, hquote, hslash, hoperator, Symbol.text, Terminal.spell]
  | none =>
      by_cases hword : Text.isWordChar c = true
      · have hcons : [c] ++ rest = c :: rest := rfl
        rw [← hcons, Symbol.at?_of_word (List.cons_ne_nil c []) (by simpa using hword)
          (by simpa using hoperator)] at h
        cases h
        simp [pieceLength, hquote, hslash, hoperator, hword, Symbol.text_ofWord]
      · -- Neither an operator nor a word nor a label: a mark, which is one character.
        have hnone : Symbol.operator? (c :: rest) = none := Option.map_eq_none_iff.mpr hoperator
        have hmark : Symbol.mark? (c :: rest) = some s := by
          simpa [Symbol.at?, hnone, Symbol.word?, hword, Symbol.string?, hquote] using h
        obtain ⟨hkind, htext, -⟩ := Symbol.ofMark?_of_mark? hmark
        obtain ⟨d, more, hd, hblank⟩ := (Token.Spelling.mark hkind).exists_head_not_blank
        rw [← (List.cons.inj hd).1] at hblank
        simp [pieceLength, hquote, hslash, hoperator, hword, hblank, htext]

/-! ## The first piece and what is left -/

/-- White space, or a comment. -/
def isLayout (piece : List Char) : Bool := piece.all Text.isBlank || ['/', '/'].isPrefixOf piece

theorem split_of_pieceLength {piece more : List Char} (htext : c :: rest = piece ++ more)
    (h : pieceLength c rest = piece.length) : split (c :: rest) = piece :: split more := by
  rw [split, h, htext, List.take_left, List.drop_left]

theorem split_of_isBlank (h : Text.isBlank c = true) (rest : List Char) :
    ∃ blanks more, c :: rest = blanks ++ more ∧ split (c :: rest) = blanks :: split more ∧
      ∀ d ∈ blanks, Text.isBlank d = true := by
  have htext : (c :: rest).takeWhile Text.isBlank ++ (c :: rest).dropWhile Text.isBlank =
      c :: rest := List.takeWhile_append_dropWhile
  exact ⟨_, _, htext.symm, split_of_pieceLength htext.symm (pieceLength_blank h rest),
    fun d hd => List.mem_takeWhile_imp hd⟩

theorem split_of_comment {words more : List Char} (hwords : '\n' ∉ words)
    (hend : more = [] ∨ ∃ rest, more = '\n' :: rest) :
    split ('/' :: '/' :: words ++ more) = ('/' :: '/' :: words) :: split more :=
  split_of_pieceLength rfl (pieceLength_comment hwords hend)

/-- A token is a piece, but for a label with a backslash in it. -/
theorem split_of_munch {lexeme more value : List Char} {kind : Token.Kind}
    (h : Token.Munch lexeme more kind value) (hlabel : kind = .quotation → '\\' ∉ lexeme) :
    split (lexeme ++ more) = lexeme :: split more := by
  rcases h.spelling.label_or_verbatim with ⟨hkind, raw, rfl, hraw⟩ | ⟨hkind, rfl⟩
  · have hslash : '\\' ∉ raw := fun hmem => hlabel hkind (by simp [hmem])
    have hlength := labelLength_of_spelling hraw hslash more
    apply split_of_pieceLength rfl
    simp [pieceLength, hlength]
  · obtain ⟨c, rest, rfl⟩ := List.exists_cons_of_ne_nil h.spelling.ne_nil
    obtain ⟨s, hat, hs⟩ := h.exists_at?
    apply split_of_pieceLength rfl
    rw [← hs]
    apply pieceLength_of_at? hat
    rintro rfl
    exact h.spelling.quote_not_mem hkind List.mem_cons_self

theorem not_isLayout_of_spelling {lexeme value : List Char} {kind : Token.Kind}
    (h : Token.Spelling lexeme kind value) : isLayout lexeme = false := by
  obtain ⟨c, more, rfl, hblank⟩ := h.exists_head_not_blank
  obtain ⟨d, more', heq, -, hslash⟩ := h.exists_head
  rw [← (List.cons.inj heq).1] at hslash
  have hcomment : ['/', '/'].isPrefixOf (c :: more) = false :=
    Bool.eq_false_iff.mpr fun hbegins =>
      hslash (List.cons_prefix_cons.mp (List.isPrefixOf_iff_prefix.mp hbegins)).1.symm
  simp [isLayout, hblank, hcomment]

section Cuts

open Token

variable {before run : List Char} {tokens : List Token}

/-- The first piece of a text that can be cut is layout or the first token. -/
theorem exists_first (h : Cuts before (c :: rest) tokens [])
    (hescapes : NoEscapes (before ++ (c :: rest)) tokens) :
    ∃ piece more, c :: rest = piece ++ more ∧ split (c :: rest) = piece :: split more ∧
      (isLayout piece = true ∧ Cuts (before ++ piece) more tokens [] ∨
        isLayout piece = false ∧ ∃ t tokens', tokens = t :: tokens' ∧
          t.StandsIn (before ++ (c :: rest)) piece ∧ Cuts (before ++ piece) more tokens' []) := by
  by_cases hblank : Text.isBlank c = true
  · obtain ⟨blanks, more, htext, hsplit, hblanks⟩ := split_of_isBlank hblank rest
    have hmore : Cuts (before ++ blanks) more tokens [] := (htext ▸ h).of_blanks hblanks
    have hlayout : isLayout blanks = true := by
      rw [isLayout, List.all_eq_true.mpr hblanks, Bool.true_or]
    exact ⟨blanks, more, htext, hsplit, .inl ⟨hlayout, hmore⟩⟩
  rcases h.exists_next with ⟨hnil, -⟩ | ⟨piece, more, lexemes, tokens', htext, rfl, hnext, hmore⟩
  · cases hnil
  rw [List.append_nil] at hnext
  rw [htext] at hescapes ⊢
  cases hnext with
  | layout hpiece =>
      cases hpiece with
      | blank hspace =>
          rw [(List.cons.inj htext).1] at hblank
          exact absurd (Text.isBlank_of_isSpace hspace) hblank
      | @comment words _ hwords hend =>
          exact ⟨_, more, rfl, split_of_comment hwords hend, .inl ⟨by simp [isLayout], hmore⟩⟩
  | @token kind value hmunch =>
      have hstands : Token.StandsIn ⟨kind, String.ofList value, .behind before⟩
          (before ++ (piece ++ more)) piece :=
        ⟨before, more, rfl, rfl, by rwa [String.toList_ofList]⟩
      have hsplit := split_of_munch hmunch fun hkind =>
        hescapes _ List.mem_cons_self hkind piece hstands
      exact ⟨piece, more, rfl, hsplit, .inr ⟨not_isLayout_of_spelling hmunch.spelling, _, _, rfl,
        hstands, hmore⟩⟩

/-- Cut into tokens and into pieces, a text falls apart at the same points, but for layout. -/
theorem forall₂_split (h : Cuts before run tokens [])
    (hescapes : NoEscapes (before ++ run) tokens) :
    List.Forall₂ (fun t lexeme => t.StandsIn (before ++ run) lexeme) tokens
      ((split run).filter (!isLayout ·)) := by
  induction hn : run.length using Nat.strong_induction_on generalizing before run tokens with
  | _ n ih =>
      subst hn
      rcases run with _ | ⟨c, rest⟩
      · rw [h.eq_nil, split_eq_nil_iff.mpr rfl]
        exact .nil
      obtain ⟨piece, more, htext, hsplit, hfirst⟩ := exists_first h hescapes
      have hne : piece ≠ [] := ne_nil_of_mem_split (hsplit ▸ List.mem_cons_self)
      have hshort : more.length < (c :: rest).length := by
        have := List.length_pos_iff.mpr hne
        rw [htext, List.length_append]
        omega
      have hwhole : before ++ (c :: rest) = before ++ piece ++ more := by
        rw [htext, List.append_assoc]
      rw [hsplit]
      rcases hfirst with ⟨hlayout, hmore⟩ | ⟨hlayout, t, tokens', rfl, hstands, hmore⟩
      · rw [List.filter_cons_of_neg (by simp [hlayout])]
        rw [hwhole] at hescapes ⊢
        exact ih _ hshort hmore hescapes rfl
      · rw [List.filter_cons_of_pos (by simp [hlayout])]
        refine .cons hstands ?_
        rw [hwhole] at hescapes ⊢
        exact ih _ hshort hmore (fun t ht => hescapes t (List.mem_cons_of_mem _ ht)) rfl

end Cuts

/-! ## Operators -/

theorem isOperator_of_spelling {lexeme value : List Char} {kind : Token.Kind}
    (h : Token.Spelling lexeme kind value) : Gen.isOperator lexeme = kind.isOperator := by
  rw [Bool.eq_iff_iff, Gen.isOperator, List.any_eq_true]
  constructor
  · rintro ⟨o, ho, heq⟩
    have hspelling := Token.Spelling.operator ho
    rw [eq_of_beq heq] at hspelling
    rw [(h.unique hspelling).1]
    rfl
  · intro hkind
    cases h with
    | operator ho => exact ⟨_, ho, beq_self_eq_true _⟩
    | word =>
        rcases Token.Kind.ofWord_cases lexeme with heq | heq | heq <;> rw [heq] at hkind <;>
          cases hkind
    | mark hmark =>
        unfold Token.Kind.ofMark? at hmark
        split at hmark <;> cases hmark <;> cases hkind
    | label => cases hkind

theorem not_isLayout_of_isOperator {piece : List Char} (h : Gen.isOperator piece = true) :
    isLayout piece = false := by
  obtain ⟨o, ho, heq⟩ := List.any_eq_true.mp h
  rw [← eq_of_beq heq]
  exact not_isLayout_of_spelling (.operator ho)

/-- Operators are never layout, so that none is lost with it. -/
theorem filter_isOperator (pieces : List (List Char)) :
    (pieces.filter (!isLayout ·)).filter Gen.isOperator = pieces.filter Gen.isOperator := by
  rw [List.filter_filter]
  refine List.filter_congr fun piece _ => ?_
  cases hoperator : Gen.isOperator piece with
  | false => rfl
  | true => simp [not_isLayout_of_isOperator hoperator]

/-- Pieces lose nothing of a text, and of a text that is made of tokens they are, layout left out,
what stands there for the tokens, one by one; pieces that are operators are those of the tokens that
are. -/
theorem split_finds_lexemes (text : String) :
    (∀ piece ∈ split text.toList, piece ≠ []) ∧ (split text.toList).flatten = text.toList ∧
    ∀ tokens, Token.ofString? text = .ok tokens →
      ∃ found, tokens = found ++ [⟨.endOfText, "", .behind text.toList⟩] ∧
        (∀ t ∈ found, ∃! lexeme, t.StandsIn text.toList lexeme) ∧
        (Token.NoEscapes text.toList found →
          List.Forall₂ (Token.StandsIn · text.toList ·) found
            ((split text.toList).filter (!isLayout ·)) ∧
          List.Forall₂ (Token.StandsIn · text.toList ·) (found.filter (·.kind.isOperator))
            ((split text.toList).filter Gen.isOperator)) := by
  refine ⟨fun piece => ne_nil_of_mem_split, flatten_split _, fun tokens htokens => ?_⟩
  obtain ⟨found, hcuts, rfl⟩ := Token.ofString?_eq_ok_iff.mp htokens
  refine ⟨found, rfl, fun t ht => ?_, fun hescapes => ?_⟩
  · obtain ⟨lexeme, hlexeme⟩ := hcuts.exists_standsIn t ht
    rw [List.nil_append, List.append_nil] at hlexeme
    exact ⟨lexeme, hlexeme, fun other hother => hother.unique hlexeme⟩
  · have hall := forall₂_split hcuts hescapes
    refine ⟨hall, ?_⟩
    rw [← filter_isOperator]
    refine List.rel_filter (fun t lexeme hstands => ?_) hall
    obtain ⟨before, after, -, -, hmunch⟩ := hstands
    exact (Bool.eq_iff_iff.mp (isOperator_of_spelling hmunch.spelling)).symm

/-- A label, two operators that touch it and each other, and a comment with operators in it. -/
def gluedOperators : String := "a \"q\"o--*--b//--o"

/-- The operators are found among the pieces, and those in the comment are not. -/
theorem split_finds_lexemes_gluedOperators :
    ∃ found, Token.ofString? gluedOperators =
        .ok (found ++ [⟨.endOfText, "", .behind gluedOperators.toList⟩]) ∧
      Token.NoEscapes gluedOperators.toList found ∧
      List.Forall₂ (Token.StandsIn · gluedOperators.toList ·) found
        [['a'], ['"', 'q', '"'], ['o', '-', '-'], ['*', '-', '-'], ['b']] ∧
      List.Forall₂ (Token.StandsIn · gluedOperators.toList ·) (found.filter (·.kind.isOperator))
        [['o', '-', '-'], ['*', '-', '-']] := by
  have hread : ∃ tokens, Token.ofString? gluedOperators = .ok tokens := by
    have hok : (Token.ofString? gluedOperators).isOk = true := by decide +kernel
    cases htokens : Token.ofString? gluedOperators with
    | ok tokens => exact ⟨tokens, rfl⟩
    | error e => rw [htokens] at hok; cases hok
  obtain ⟨tokens, htokens⟩ := hread
  obtain ⟨-, -, hfind⟩ := split_finds_lexemes gluedOperators
  obtain ⟨found, rfl, -, hall⟩ := hfind tokens htokens
  have hescapes : Token.NoEscapes gluedOperators.toList found :=
    Token.noEscapes_of_not_mem (by decide) found
  have hlexemes : (split gluedOperators.toList).filter (!isLayout ·) =
      [['a'], ['"', 'q', '"'], ['o', '-', '-'], ['*', '-', '-'], ['b']] := by
    decide +kernel
  have hoperators : (split gluedOperators.toList).filter Gen.isOperator =
      [['o', '-', '-'], ['*', '-', '-']] := by
    decide +kernel
  obtain ⟨hpieces, hfound⟩ := hall hescapes
  exact ⟨found, htokens, hescapes, hlexemes ▸ hpieces, hoperators ▸ hfound⟩

/-- A label that holds a quote falls apart: to pieces a backslash is a character like others. -/
example : split ['"', '\\', '"', '"'] = [['"', '\\', '"'], ['"']] := by cbv

end Fuzz.Pieces

end ClassDiagram
