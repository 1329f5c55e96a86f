import ClassDiagram.Proofs.Json.Reader

/-!
# JSON that is read back

What is written for a value made of text is read back as this value, whatever the indent: every
character comes back from its escape, and the blanks of the layout are passed over.
-/

namespace ClassDiagram.Json

/-! ## Text in quotes -/

/-- The codes that the escape of a character is read as. -/
def codesOf (c : Char) : List Nat :=
  if c.toNat < 0x10000 then [c.toNat]
  else [0xD800 + (c.toNat - 0x10000) / 0x400, 0xDC00 + (c.toNat - 0x10000) % 0x400]

theorem codes?_escapeUnit {unit : Nat} (h : unit < 0x10000) (rest : List Char) :
    codes? (escapeUnit unit ++ rest) = (codes? rest).map fun r => (unit :: r.1, r.2) := by
  have hnumber : Text.hexNumber? 0 (Text.hex 4 unit) = some unit := Text.hexNumber?_hex h
  obtain ⟨a, b, c, d, hhex⟩ : ∃ a b c d, Text.hex 4 unit = [a, b, c, d] := ⟨_, _, _, _, rfl⟩
  rw [hhex] at hnumber
  simp only [escapeUnit, hhex, List.cons_append, List.nil_append, codes?, hnumber]
  rfl

theorem codes?_letter {c : Char} {code : Nat} (hcode : letterCode? c = some code)
    (rest : List Char) :
    codes? ('\\' :: c :: rest) = (codes? rest).map fun r => (code :: r.1, r.2) := by
  rw [codes?]
  · simp only [hcode, if_true]
    rfl
  · rintro _ _ _ _ _ rfl
    cases hcode

theorem codes?_character {c : Char} (hcontrol : 0x20 ≤ c.toNat) (hquote : c ≠ '"')
    (hbackslash : c ≠ '\\') (rest : List Char) :
    codes? (c :: rest) = (codes? rest).map fun r => (c.toNat :: r.1, r.2) := by
  rw [codes?.eq_def]
  simp only [hquote, hbackslash, Nat.not_lt.mpr hcontrol, if_false]

theorem toNat_lt (c : Char) : c.toNat < 0x110000 := by
  have hvalid := c.valid
  simp only [UInt32.isValidChar, Nat.isValidChar] at hvalid
  change c.val.toNat < _
  omega

theorem not_half (c : Char) : c.toNat < 0xD800 ∨ 0xE000 ≤ c.toNat := by
  have hvalid := c.valid
  simp only [UInt32.isValidChar, Nat.isValidChar] at hvalid
  change c.val.toNat < _ ∨ _ ≤ c.val.toNat
  omega

theorem codes?_escape (c : Char) (rest : List Char) :
    codes? (escape c ++ rest) = (codes? rest).map fun r => (codesOf c ++ r.1, r.2) := by
  have hlt := toNat_lt c
  have hsmall : c.toNat < 0x10000 → codesOf c = [c.toNat] := fun h => if_pos h
  have hletter : ∀ letter, letterCode? letter = some c.toNat → c.toNat < 0x10000 →
      codes? ('\\' :: letter :: rest) = (codes? rest).map fun r => (codesOf c ++ r.1, r.2) := by
    intro letter hcode hc
    rw [codes?_letter hcode, hsmall hc]
    rfl
  unfold escape
  split
  · next h =>
    subst h
    exact hletter '"' rfl (by decide)
  split
  · next h =>
    subst h
    exact hletter '\\' rfl (by decide)
  split
  · next h =>
    subst h
    exact hletter 'n' rfl (by decide)
  split
  · next h =>
    subst h
    exact hletter 'r' rfl (by decide)
  split
  · next h =>
    subst h
    exact hletter 't' rfl (by decide)
  split
  · next h =>
    subst h
    exact hletter 'b' rfl (by decide)
  split
  · next h =>
    subst h
    exact hletter 'f' rfl (by decide)
  split
  · next h =>
    rw [hsmall (by omega)]
    exact codes?_character h.1 ‹_› ‹_› rest
  split
  · next h =>
    rw [hsmall h]
    exact codes?_escapeUnit h rest
  · next h =>
    rw [List.append_assoc, codes?_escapeUnit (by omega), codes?_escapeUnit (by omega), codesOf,
      if_neg h, Option.map_map]
    rfl

theorem characters?_codesOf (c : Char) (codes : List Nat) :
    characters? (codesOf c ++ codes) = (characters? codes).map (c :: ·) := by
  have hlt := toNat_lt c
  have hnot := not_half c
  unfold codesOf
  split
  · rw [List.singleton_append, characters?.eq_def]
    simp only
    rw [if_neg (by omega), if_neg (by omega), Char.ofNat_toNat]
  · next h =>
    have hcode : 0x10000 + (0xD800 + (c.toNat - 0x10000) / 0x400 - 0xD800) * 0x400 +
        (0xDC00 + (c.toNat - 0x10000) % 0x400 - 0xDC00) = c.toNat := by
      omega
    simp only [List.cons_append, List.nil_append]
    rw [characters?.eq_def]
    simp only
    rw [if_pos (by omega), if_pos (by omega), hcode, Char.ofNat_toNat]

theorem codes?_flatMap_escape (chars rest : List Char) :
    codes? (chars.flatMap escape ++ '"' :: rest) = some (chars.flatMap codesOf, rest) := by
  induction chars with
  | nil =>
      rw [List.flatMap_nil, List.nil_append, codes?.eq_def]
      rfl
  | cons c chars ih =>
      rw [List.flatMap_cons, List.append_assoc, codes?_escape, ih]
      rfl

theorem characters?_flatMap_codesOf (chars : List Char) :
    characters? (chars.flatMap codesOf) = some chars := by
  induction chars with
  | nil => rfl
  | cons c chars ih =>
      rw [List.flatMap_cons, characters?_codesOf, ih]
      rfl

theorem quoted?_string (s : String) (rest : List Char) :
    quoted? (s.toList.flatMap escape ++ '"' :: rest) = some (s, rest) := by
  simp only [quoted?, codes?_flatMap_escape, characters?_flatMap_codesOf, Option.map_some,
    String.ofList_toList]

/-! ## Layout -/

theorem skip_append {blanks text : List Char} (h : Blanks blanks) :
    skip (blanks ++ text) = skip text := by
  induction blanks with
  | nil => rfl
  | cons c blanks ih =>
      have hc : isBlank c = true := h c List.mem_cons_self
      have htail : Blanks blanks := fun d hd => h d (List.mem_cons_of_mem c hd)
      rw [List.cons_append, skip, List.dropWhile_cons_of_pos hc]
      exact ih htail

theorem skip_cons {c : Char} (hc : isBlank c = false) (rest : List Char) :
    skip (c :: rest) = c :: rest := by
  rw [skip, List.dropWhile_cons_of_neg (by simp [hc])]

theorem blanks_lead (indent : Option Nat) (depth : Nat) : Blanks (lead indent depth) := by
  intro c hc
  cases indent with
  | none => cases hc
  | some n =>
      rcases List.mem_cons.mp hc with rfl | hc
      · rfl
      · rw [List.eq_of_mem_replicate hc]
        rfl

/-- A separator is a comma with blanks behind it. -/
theorem exists_separator (indent : Option Nat) (depth : Nat) :
    ∃ blanks, Blanks blanks ∧ separator indent depth = ',' :: blanks := by
  cases indent with
  | none => exact ⟨[' '], by simp [Blanks, isBlank], rfl⟩
  | some n => exact ⟨_, blanks_lead (some n) depth, rfl⟩

/-! ## Values -/

variable {IsKey : String → Prop} {levels : Nat} {v : Value} {indent : Option Nat}

/-- What is written for a value made of text tells by its first character what it is. -/
theorem exists_head_write (h : v.Textual IsKey levels) (indent : Option Nat) (depth : Nat) :
    ∃ c rest, write indent depth v = c :: rest ∧ isBlank c = false ∧ c ≠ ']' := by
  cases h with
  | text s => exact ⟨'"', _, rfl, rfl, by decide⟩
  | @list n items h =>
      cases items with
      | nil => exact ⟨'[', _, rfl, rfl, by decide⟩
      | cons v items => exact ⟨'[', _, by rw [write], rfl, by decide⟩
  | @record n entries hnodup hkey h =>
      cases entries with
      | nil => exact ⟨'\x7b', _, rfl, rfl, by decide⟩
      | cons e entries => exact ⟨'\x7b', _, by rw [write], rfl, by decide⟩

/-- Wherever the value is written, it is read back, and what follows is left. -/
def ReadBack (indent : Option Nat) (v : Value) : Prop :=
  ∀ depth n rest, (write indent depth v).length < n →
    value? n (write indent depth v ++ rest) = some (v, rest)

/-- A value that is read back begins with a character that no blank is. -/
structure Written (indent : Option Nat) (v : Value) : Prop where
  head : ∀ depth, ∃ c rest, write indent depth v = c :: rest ∧ isBlank c = false ∧ c ≠ ']'
  back : ReadBack indent v

theorem Written.skip (h : Written indent v) {blanks : List Char} (hblanks : Blanks blanks)
    (depth : Nat) (rest : List Char) :
    Json.skip (blanks ++ (write indent depth v ++ rest)) = write indent depth v ++ rest := by
  obtain ⟨c, tail, hwrite, hc, -⟩ := h.head depth
  rw [skip_append hblanks, hwrite, List.cons_append, skip_cons hc]

theorem Written.length_pos (h : Written indent v) (depth : Nat) :
    0 < (write indent depth v).length := by
  obtain ⟨c, tail, hwrite, -⟩ := h.head depth
  simp [hwrite]

/-- The items of a list are read back one after the other, up to the closing bracket. -/
theorem elements?_write (depth : Nat) {items : List Value} {n : Nat} {before behind : List Char}
    (hv : Written indent v) (hitems : ∀ w ∈ items, Written indent w) (hbefore : Blanks before)
    (hbehind : Blanks behind) (rest : List Char)
    (hn : (write indent depth v).length + (writeItems indent depth items).length + 1 < n) :
    elements? n (before ++ (write indent depth v ++ (writeItems indent depth items ++
      (behind ++ ']' :: rest)))) = some (v :: items, rest) := by
  induction items generalizing v n before with
  | nil =>
      obtain ⟨n, rfl⟩ : ∃ k, n = k + 1 := ⟨n - 1, by omega⟩
      have hback := hv.back depth n (behind ++ ']' :: rest) (by omega)
      rw [elements?, hv.skip hbefore]
      simp only [writeItems, List.nil_append, hback, skip_append hbehind,
        skip_cons (show isBlank ']' = false from rfl)]
  | cons w items ih =>
      obtain ⟨n, rfl⟩ : ∃ k, n = k + 1 := ⟨n - 1, by omega⟩
      obtain ⟨gap, hgap, hseparator⟩ := exists_separator indent depth
      have hw : Written indent w := hitems w List.mem_cons_self
      have hpos := hv.length_pos depth
      have hlength : (writeItems indent depth (w :: items)).length =
          1 + gap.length + (write indent depth w).length +
            (writeItems indent depth items).length := by
        simp only [writeItems, hseparator, List.length_append, List.length_cons]
        omega
      have hrest := ih hw (fun x hx => hitems x (List.mem_cons_of_mem w hx)) hgap
        (n := n) (by omega)
      have hback := hv.back depth n (writeItems indent depth (w :: items) ++
        (behind ++ ']' :: rest)) (by omega)
      rw [elements?, hv.skip hbefore, hback]
      simp only [writeItems, hseparator, List.cons_append, List.append_assoc,
        skip_cons (show isBlank ',' = false from rfl), hrest, Option.map_some]

/-- The entries of a record are read back one after the other, up to the closing brace. -/
theorem members?_write (depth : Nat) (key : String) {entries : List (String × Value)} {n : Nat}
    {before behind : List Char} (hv : Written indent v)
    (hentries : ∀ e ∈ entries, Written indent e.2) (hbefore : Blanks before)
    (hbehind : Blanks behind) (rest : List Char)
    (hn : (write indent depth v).length + (writeEntries indent depth entries).length + 1 < n) :
    members? n (before ++ (string key ++ ':' :: ' ' :: (write indent depth v ++
      (writeEntries indent depth entries ++ (behind ++ '\x7d' :: rest))))) =
      some ((key, v) :: entries, rest) := by
  have hspace : Blanks [' '] := by simp [Blanks, isBlank]
  have hskip : ∀ text, skip (before ++ (string key ++ text)) =
      '"' :: (key.toList.flatMap escape ++ '"' :: text) := by
    intro text
    rw [skip_append hbefore, string, List.cons_append, skip_cons rfl, List.append_assoc]
    rfl
  induction entries generalizing key v n before with
  | nil =>
      obtain ⟨n, rfl⟩ : ∃ k, n = k + 1 := ⟨n - 1, by omega⟩
      have hback := hv.back depth n (behind ++ '\x7d' :: rest) (by omega)
      have hvalue := hv.skip hspace depth (behind ++ '\x7d' :: rest)
      rw [members?, hskip]
      simp only [writeEntries, List.nil_append, quoted?_string,
        skip_cons (show isBlank ':' = false from rfl)]
      rw [List.singleton_append] at hvalue
      simp only [hvalue, hback, skip_append hbehind,
        skip_cons (show isBlank '\x7d' = false from rfl)]
  | cons e entries ih =>
      obtain ⟨key', w⟩ := e
      obtain ⟨n, rfl⟩ : ∃ k, n = k + 1 := ⟨n - 1, by omega⟩
      obtain ⟨gap, hgap, hseparator⟩ := exists_separator indent depth
      have hw : Written indent w := hentries (key', w) List.mem_cons_self
      have hpos := hv.length_pos depth
      have hlength : (writeEntries indent depth ((key', w) :: entries)).length =
          1 + gap.length + (string key').length + 2 + (write indent depth w).length +
            (writeEntries indent depth entries).length := by
        simp only [writeEntries, hseparator, List.length_append, List.length_cons, List.length_nil]
        omega
      have hskip' : ∀ text, skip (gap ++ (string key' ++ text)) =
          '"' :: (key'.toList.flatMap escape ++ '"' :: text) := by
        intro text
        rw [skip_append hgap, string, List.cons_append, skip_cons rfl, List.append_assoc]
        rfl
      have hrest := ih key' hw (fun x hx => hentries x (List.mem_cons_of_mem _ hx)) hgap
        (n := n) (by omega) hskip'
      have hback := hv.back depth n (writeEntries indent depth ((key', w) :: entries) ++
        (behind ++ '\x7d' :: rest)) (by omega)
      have hvalue := hv.skip hspace depth (writeEntries indent depth ((key', w) :: entries) ++
        (behind ++ '\x7d' :: rest))
      rw [members?, hskip]
      simp only [quoted?_string, skip_cons (show isBlank ':' = false from rfl)]
      rw [List.singleton_append] at hvalue
      rw [hvalue, hback]
      simp only [writeEntries, hseparator, List.cons_append, List.append_assoc, List.nil_append,
        skip_cons (show isBlank ',' = false from rfl), hrest, Option.map_some]

theorem value?_quote (n : Nat) (text : List Char) :
    value? (n + 1) ('"' :: text) = (quoted? text).map fun r => (.text r.1, r.2) := rfl

theorem value?_bracket (n : Nat) (text : List Char) :
    value? (n + 1) ('[' :: text) =
      match skip text with
      | ']' :: rest => some (.list [], rest)
      | _ => (elements? n text).map fun r => (.list r.1, r.2) := rfl

theorem value?_brace (n : Nat) (text : List Char) :
    value? (n + 1) ('\x7b' :: text) =
      match skip text with
      | '\x7d' :: rest => some (.record [], rest)
      | _ => (members? n text).map fun r => (.gather r.1, r.2) := rfl

theorem value?_list {n : Nat} {c : Char} {text tail : List Char} (h : skip text = c :: tail)
    (hc : c ≠ ']') :
    value? (n + 1) ('[' :: text) = (elements? n text).map fun r => (.list r.1, r.2) := by
  rw [value?_bracket]
  split
  · next heq =>
    rw [h] at heq
    exact absurd (List.cons.inj heq).1 hc
  · rfl

theorem value?_record {n : Nat} {text tail : List Char} (h : skip text = '"' :: tail) :
    value? (n + 1) ('\x7b' :: text) = (members? n text).map fun r => (.gather r.1, r.2) := by
  rw [value?_brace]
  split
  · next heq =>
    rw [h] at heq
    cases heq
  · rfl

theorem readBack_list {items : List Value} (h : ∀ v ∈ items, Written indent v) :
    ReadBack indent (.list items) := by
  intro depth n rest hn
  obtain ⟨n, rfl⟩ : ∃ k, n = k + 1 := ⟨n - 1, by omega⟩
  cases items with
  | nil =>
      rw [write, List.cons_append, List.singleton_append, value?_bracket, skip_cons rfl]
      rfl
  | cons v items =>
      have hv : Written indent v := h v List.mem_cons_self
      have hitems : ∀ w ∈ items, Written indent w := fun w hw => h w (List.mem_cons_of_mem v hw)
      simp only [write, List.length_cons, List.length_append] at hn
      have helements := elements?_write (depth + 1) hv hitems (blanks_lead indent (depth + 1))
        (blanks_lead indent depth) rest (n := n) (by omega)
      obtain ⟨c, tail, hwrite, -, hc⟩ := hv.head (depth + 1)
      have hskip := hv.skip (blanks_lead indent (depth + 1)) (depth + 1)
        (writeItems indent (depth + 1) items ++ (lead indent depth ++ ']' :: rest))
      rw [hwrite, List.cons_append, ← List.cons_append, ← hwrite, hwrite] at hskip
      simp only [write, List.cons_append, List.append_assoc, List.nil_append]
      rw [value?_list (by rw [hwrite]; exact hskip) hc, helements]
      rfl

theorem readBack_record {entries : List (String × Value)} (hnodup : (entries.map Prod.fst).Nodup)
    (h : ∀ e ∈ entries, Written indent e.2) : ReadBack indent (.record entries) := by
  intro depth n rest hn
  obtain ⟨n, rfl⟩ : ∃ k, n = k + 1 := ⟨n - 1, by omega⟩
  cases entries with
  | nil =>
      rw [write, List.cons_append, List.singleton_append, value?_brace, skip_cons rfl]
      rfl
  | cons e entries =>
      obtain ⟨key, v⟩ := e
      have hv : Written indent v := h (key, v) List.mem_cons_self
      have hentries : ∀ e ∈ entries, Written indent e.2 :=
        fun e he => h e (List.mem_cons_of_mem _ he)
      simp only [write, List.length_cons, List.length_append] at hn
      have hmembers := members?_write (depth + 1) key hv hentries (blanks_lead indent (depth + 1))
        (blanks_lead indent depth) rest (n := n) (by omega)
      simp only [write, List.cons_append, List.append_assoc, List.nil_append]
      rw [value?_record, hmembers, Option.map_some, Value.gather_of_nodup hnodup]
      rw [skip_append (blanks_lead indent (depth + 1)), string, List.cons_append, skip_cons rfl]

theorem written_of_textual (h : v.Textual IsKey levels) (indent : Option Nat) :
    Written indent v := by
  induction h with
  | text s =>
      have htext : Value.Textual IsKey 0 (.text s) := .text s
      refine ⟨exists_head_write htext indent, ?_⟩
      intro depth n rest hn
      obtain ⟨n, rfl⟩ : ∃ k, n = k + 1 := ⟨n - 1, by omega⟩
      rw [write, string, List.cons_append, List.append_assoc, List.singleton_append,
        value?_quote, quoted?_string]
      rfl
  | list h ih => exact ⟨exists_head_write (.list h) indent, readBack_list ih⟩
  | record hnodup hkey h ih =>
      exact ⟨exists_head_write (.record hnodup hkey h) indent, readBack_record hnodup ih⟩

/-- What is written for a value made of text is read as this value. -/
theorem read_write (h : v.Textual IsKey levels) (indent : Option Nat) :
    read (write indent 0 v) = some v := by
  have hwritten := written_of_textual h indent
  have hback := hwritten.back 0 ((write indent 0 v).length + 1) [] (Nat.lt_succ_self _)
  have hnil : Blanks [] := by simp [Blanks]
  have hskip := hwritten.skip hnil 0 []
  rw [List.append_nil] at hback hskip
  rw [List.nil_append] at hskip
  rw [read, hskip, hback]
  rfl

end ClassDiagram.Json
