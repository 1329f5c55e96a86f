import ClassDiagram.Proofs.Json.RoundTrip

/-!
# The layout of JSON

The indent of a text moves its blanks and nothing else: without the blanks that stand outside of
quotes, the texts for any two indents are the same.  Line feeds only come from the layout, and all
other characters are printable ones of ASCII, since the rest is escaped.  So the JSON text of a
diagram is read back as the diagram's record, with every indent.
-/

namespace ClassDiagram.Json

/-! ## Blanks outside of quotes -/

/-- Where a character of a text stands: outside of quotes, inside, or behind a backslash inside. -/
inductive Standing where
  | outside
  | inside
  | escaped
  deriving DecidableEq, Repr

namespace Standing

/-- Where the next character stands. -/
def after (c : Char) : Standing → Standing
  | outside => if c = '"' then inside else outside
  | inside => if c = '"' then outside else if c = '\\' then escaped else inside
  | escaped => inside

end Standing

/-- A text without the blanks outside of quotes. -/
def condensed : Standing → List Char → List Char
  | _, [] => []
  | s, c :: rest =>
    if s = .outside ∧ isBlank c = true then condensed s rest else c :: condensed (s.after c) rest

theorem condensed_cons {s : Standing} {c : Char} (h : s ≠ .outside ∨ isBlank c = false)
    (rest : List Char) : condensed s (c :: rest) = c :: condensed (s.after c) rest := by
  rw [condensed, if_neg]
  rintro ⟨houtside, hblank⟩
  rcases h with h | h
  · exact h houtside
  · rw [hblank] at h
    cases h

theorem condensed_blanks {blanks : List Char} (h : Blanks blanks) (rest : List Char) :
    condensed .outside (blanks ++ rest) = condensed .outside rest := by
  induction blanks with
  | nil => rfl
  | cons c blanks ih =>
      have hc : isBlank c = true := h c List.mem_cons_self
      rw [List.cons_append, condensed, if_pos ⟨rfl, hc⟩]
      exact ih fun d hd => h d (List.mem_cons_of_mem c hd)

/-- A character that is neither blank nor quote stands as it is. -/
theorem condensed_mark {c : Char} (hblank : isBlank c = false) (hquote : c ≠ '"')
    (rest : List Char) : condensed .outside (c :: rest) = c :: condensed .outside rest := by
  rw [condensed_cons (.inr hblank), Standing.after, if_neg hquote]

theorem condensed_colon (rest : List Char) :
    condensed .outside (':' :: ' ' :: rest) = ':' :: condensed .outside rest := by
  rw [condensed_mark rfl (by decide), condensed, if_pos ⟨rfl, rfl⟩]

/-- Between quotes, characters that are neither quote nor backslash stand as they are. -/
theorem condensed_ordinary {chars : List Char} (h : ∀ c ∈ chars, c ≠ '"' ∧ c ≠ '\\')
    (rest : List Char) :
    condensed .inside (chars ++ rest) = chars ++ condensed .inside rest := by
  induction chars with
  | nil => rfl
  | cons c chars ih =>
      obtain ⟨hquote, hbackslash⟩ := h c List.mem_cons_self
      rw [List.cons_append, condensed_cons (.inl (by decide)), Standing.after, if_neg hquote,
        if_neg hbackslash, ih fun d hd => h d (List.mem_cons_of_mem c hd)]
      rfl

theorem condensed_letter (c : Char) (rest : List Char) :
    condensed .inside ('\\' :: c :: rest) = '\\' :: c :: condensed .inside rest := by
  rw [condensed_cons (.inl (by decide)), Standing.after, if_neg (by decide), if_pos rfl,
    condensed_cons (.inl (by decide))]
  rfl

/-! ## Escapes -/

theorem hex_ordinary (width n : Nat) :
    ∀ c ∈ Text.hex width n, (' ' ≤ c ∧ c ≤ '~') ∧ c ≠ '"' ∧ c ≠ '\\' := by
  have hall : ∀ m < 16, (' ' ≤ Text.hexDigit m ∧ Text.hexDigit m ≤ '~') ∧ Text.hexDigit m ≠ '"' ∧
      Text.hexDigit m ≠ '\\' := by decide
  intro c hc
  obtain ⟨d, hd, rfl⟩ := Text.exists_of_mem_hex hc
  exact hall d hd

theorem condensed_escapeUnit (unit : Nat) (rest : List Char) :
    condensed .inside (escapeUnit unit ++ rest) = escapeUnit unit ++ condensed .inside rest := by
  rw [escapeUnit, List.cons_append, List.cons_append, condensed_letter,
    condensed_ordinary fun c hc => (hex_ordinary 4 unit c hc).2]
  rfl

theorem condensed_escape (c : Char) (rest : List Char) :
    condensed .inside (escape c ++ rest) = escape c ++ condensed .inside rest := by
  have hletter : ∀ letter, condensed .inside (['\\', letter] ++ rest) =
      ['\\', letter] ++ condensed .inside rest := fun letter => condensed_letter letter rest
  unfold escape
  split_ifs with hquote hbackslash
  · exact hletter _
  · exact hletter _
  · exact hletter _
  · exact hletter _
  · exact hletter _
  · exact hletter _
  · exact hletter _
  · refine condensed_ordinary ?_ rest
    intro d hd
    obtain rfl := List.mem_singleton.mp hd
    exact ⟨hquote, hbackslash⟩
  · exact condensed_escapeUnit _ _
  · rw [List.append_assoc, condensed_escapeUnit, condensed_escapeUnit, List.append_assoc]

theorem condensed_string (s : String) (rest : List Char) :
    condensed .outside (string s ++ rest) = string s ++ condensed .outside rest := by
  have hchars : ∀ chars : List Char, condensed .inside (chars.flatMap escape ++ '"' :: rest) =
      chars.flatMap escape ++ '"' :: condensed .outside rest := by
    intro chars
    induction chars with
    | nil => exact condensed_cons (.inl (by decide)) rest
    | cons c chars ih =>
        rw [List.flatMap_cons, List.append_assoc, condensed_escape, ih, List.append_assoc]
  rw [string, List.cons_append, List.append_assoc, condensed_cons (.inr rfl), List.singleton_append]
  change '"' :: condensed .inside _ = _
  rw [hchars]
  simp

/-! ## Values -/

variable {IsKey : String → Prop} {levels : Nat} {v : Value}

/-- Without the blanks outside of quotes, a value is always written in one way. -/
def Steady (v : Value) : Prop :=
  ∃ core, ∀ indent depth rest,
    condensed .outside (write indent depth v ++ rest) = core ++ condensed .outside rest

theorem condensed_separator (indent : Option Nat) (depth : Nat) (rest : List Char) :
    condensed .outside (separator indent depth ++ rest) = ',' :: condensed .outside rest := by
  obtain ⟨blanks, hblanks, hseparator⟩ := exists_separator indent depth
  rw [hseparator, List.cons_append, condensed_mark rfl (by decide), condensed_blanks hblanks]

theorem steady_items {items : List Value} (h : ∀ v ∈ items, Steady v) :
    ∃ core, ∀ indent depth rest, condensed .outside (writeItems indent depth items ++ rest) =
      core ++ condensed .outside rest := by
  induction items with
  | nil => exact ⟨[], fun indent depth rest => rfl⟩
  | cons v items ih =>
      obtain ⟨core, hcore⟩ := h v List.mem_cons_self
      obtain ⟨more, hmore⟩ := ih fun w hw => h w (List.mem_cons_of_mem v hw)
      refine ⟨',' :: (core ++ more), ?_⟩
      intro indent depth rest
      rw [writeItems, List.append_assoc, List.append_assoc, condensed_separator, hcore, hmore]
      simp

theorem steady_entries {entries : List (String × Value)} (h : ∀ e ∈ entries, Steady e.2) :
    ∃ core, ∀ indent depth rest, condensed .outside (writeEntries indent depth entries ++ rest) =
      core ++ condensed .outside rest := by
  induction entries with
  | nil => exact ⟨[], fun indent depth rest => rfl⟩
  | cons e entries ih =>
      obtain ⟨core, hcore⟩ := h e List.mem_cons_self
      obtain ⟨more, hmore⟩ := ih fun w hw => h w (List.mem_cons_of_mem _ hw)
      refine ⟨',' :: (string e.1 ++ ':' :: (core ++ more)), ?_⟩
      intro indent depth rest
      simp only [writeEntries, List.append_assoc, List.cons_append, List.nil_append,
        condensed_separator, condensed_string, condensed_colon, hcore, hmore]

/-- A value between a first and a last character is steady if what stands between them is. -/
theorem Steady.enclosed {v : Value} (first last : Char) (core : List Char)
    (hfirst : isBlank first = false ∧ first ≠ '"') (hlast : isBlank last = false ∧ last ≠ '"')
    (h : ∀ indent depth, ∃ inner, write indent depth v =
      first :: (lead indent (depth + 1) ++ (inner ++ (lead indent depth ++ [last]))) ∧
      ∀ rest, condensed .outside (inner ++ rest) = core ++ condensed .outside rest) :
    Steady v := by
  refine ⟨first :: (core ++ [last]), ?_⟩
  intro indent depth rest
  obtain ⟨inner, hwrite, hinner⟩ := h indent depth
  simp only [hwrite, List.cons_append, List.append_assoc, List.nil_append]
  rw [condensed_mark hfirst.1 hfirst.2, condensed_blanks (blanks_lead _ _), hinner,
    condensed_blanks (blanks_lead _ _), condensed_mark hlast.1 hlast.2]

theorem steady_of_textual (h : v.Textual IsKey levels) : Steady v := by
  induction h with
  | text s => exact ⟨string s, fun indent depth rest => condensed_string s rest⟩
  | @list n items h ih =>
      cases items with
      | nil =>
          refine ⟨['[', ']'], ?_⟩
          intro indent depth rest
          rw [write, List.cons_append, condensed_mark rfl (by decide)]
          exact congrArg ('[' :: ·) (condensed_mark rfl (by decide) rest)
      | cons v items =>
          obtain ⟨core, hcore⟩ := ih v List.mem_cons_self
          obtain ⟨more, hmore⟩ := steady_items fun w hw => ih w (List.mem_cons_of_mem v hw)
          apply Steady.enclosed '[' ']' (core ++ more) ⟨rfl, by decide⟩ ⟨rfl, by decide⟩
          intro indent depth
          refine ⟨write indent (depth + 1) v ++ writeItems indent (depth + 1) items, ?_, ?_⟩
          · simp only [write, List.append_assoc]
          · intro rest
            rw [List.append_assoc, hcore, hmore, List.append_assoc]
  | @record n entries hnodup hkey h ih =>
      cases entries with
      | nil =>
          refine ⟨['\x7b', '\x7d'], ?_⟩
          intro indent depth rest
          rw [write, List.cons_append, condensed_mark rfl (by decide)]
          exact congrArg ('\x7b' :: ·) (condensed_mark rfl (by decide) rest)
      | cons e entries =>
          obtain ⟨core, hcore⟩ := ih e List.mem_cons_self
          obtain ⟨more, hmore⟩ := steady_entries fun w hw => ih w (List.mem_cons_of_mem _ hw)
          apply Steady.enclosed '\x7b' '\x7d' (string e.1 ++ ':' :: (core ++ more)) ⟨rfl, by decide⟩
            ⟨rfl, by decide⟩
          intro indent depth
          refine ⟨string e.1 ++ ':' :: ' ' :: (write indent (depth + 1) e.2 ++
            writeEntries indent (depth + 1) entries), ?_, ?_⟩
          · simp only [write, List.append_assoc, List.cons_append, List.nil_append]
          · intro rest
            simp only [List.append_assoc, List.cons_append, condensed_string, condensed_colon,
              hcore, hmore]

/-- The texts for two indents differ only in blanks outside of quotes. -/
theorem condensed_write (h : v.Textual IsKey levels) (indent other : Option Nat) :
    condensed .outside (write indent 0 v) = condensed .outside (write other 0 v) := by
  obtain ⟨core, hcore⟩ := steady_of_textual h
  have heq := (hcore indent 0 []).trans (hcore other 0 []).symm
  rwa [List.append_nil, List.append_nil] at heq

/-! ## Characters -/

/-- A line feed or a printable character of ASCII. -/
def Plain (c : Char) : Prop := c = '\n' ∨ ' ' ≤ c ∧ c ≤ '~'

theorem plain_escape (c : Char) : ∀ d ∈ escape c, Plain d := by
  have hletter : ∀ letter, Plain letter → ∀ d ∈ ['\\', letter], Plain d := by
    intro letter hplain d hd
    rcases List.mem_cons.mp hd with rfl | hd
    · exact .inr (by decide)
    · exact List.mem_singleton.mp hd ▸ hplain
  have hunit : ∀ unit, ∀ d ∈ escapeUnit unit, Plain d := by
    intro unit d hd
    rcases List.mem_cons.mp hd with rfl | hd
    · exact .inr (by decide)
    rcases List.mem_cons.mp hd with rfl | hd
    · exact .inr (by decide)
    · exact .inr (hex_ordinary 4 unit d hd).1
  unfold escape
  split_ifs
  · exact hletter _ (.inr (by decide))
  · exact hletter _ (.inr (by decide))
  · exact hletter _ (.inr (by decide))
  · exact hletter _ (.inr (by decide))
  · exact hletter _ (.inr (by decide))
  · exact hletter _ (.inr (by decide))
  · exact hletter _ (.inr (by decide))
  · next h =>
    intro d hd
    obtain rfl := List.mem_singleton.mp hd
    exact .inr ⟨h.1, h.2⟩
  · exact hunit _
  · intro d hd
    rcases List.mem_append.mp hd with hd | hd
    · exact hunit _ d hd
    · exact hunit _ d hd

theorem plain_string (s : String) : ∀ c ∈ string s, Plain c := by
  intro c hc
  rcases List.mem_cons.mp hc with rfl | hc
  · exact .inr (by decide)
  rcases List.mem_append.mp hc with hc | hc
  · obtain ⟨d, -, hd⟩ := List.mem_flatMap.mp hc
    exact plain_escape d c hd
  · obtain rfl := List.mem_singleton.mp hc
    exact .inr (by decide)

theorem plain_lead (indent : Option Nat) (depth : Nat) : ∀ c ∈ lead indent depth, Plain c := by
  intro c hc
  cases indent with
  | none => cases hc
  | some n =>
      rcases List.mem_cons.mp hc with rfl | hc
      · exact .inl rfl
      · obtain rfl := List.eq_of_mem_replicate hc
        exact .inr (by decide)

theorem plain_separator (indent : Option Nat) (depth : Nat) :
    ∀ c ∈ separator indent depth, Plain c := by
  intro c hc
  cases indent with
  | none =>
      simp only [separator, List.mem_cons, List.not_mem_nil, or_false] at hc
      rcases hc with rfl | rfl <;> exact .inr (by decide)
  | some n =>
      rcases List.mem_cons.mp hc with rfl | hc
      · exact .inr (by decide)
      · exact plain_lead (some n) depth c hc

theorem plain_items {indent : Option Nat} {depth : Nat} {items : List Value}
    (h : ∀ v ∈ items, ∀ c ∈ write indent depth v, Plain c) :
    ∀ c ∈ writeItems indent depth items, Plain c := by
  induction items with
  | nil => simp [writeItems]
  | cons v items ih =>
      obtain ⟨hv, hitems⟩ := List.forall_mem_cons.mp h
      rw [writeItems, List.forall_mem_append, List.forall_mem_append]
      exact ⟨⟨plain_separator indent depth, hv⟩, ih hitems⟩

theorem plain_entry {text : List Char} (key : String) (h : ∀ c ∈ text, Plain c) :
    ∀ c ∈ string key ++ [':', ' '] ++ text, Plain c := by
  have hcolon : ∀ c ∈ [':', ' '], Plain c := by
    intro c hc
    simp only [List.mem_cons, List.not_mem_nil, or_false] at hc
    rcases hc with rfl | rfl
    all_goals exact .inr (by decide)
  rw [List.forall_mem_append, List.forall_mem_append]
  exact ⟨⟨plain_string key, hcolon⟩, h⟩

theorem plain_entries {indent : Option Nat} {depth : Nat} {entries : List (String × Value)}
    (h : ∀ e ∈ entries, ∀ c ∈ write indent depth e.2, Plain c) :
    ∀ c ∈ writeEntries indent depth entries, Plain c := by
  induction entries with
  | nil => simp [writeEntries]
  | cons e entries ih =>
      obtain ⟨he, hentries⟩ := List.forall_mem_cons.mp h
      have hwrite : writeEntries indent depth (e :: entries) = separator indent depth ++
          (string e.1 ++ [':', ' '] ++ write indent depth e.2) ++
            writeEntries indent depth entries := by
        simp [writeEntries]
      rw [hwrite, List.forall_mem_append, List.forall_mem_append]
      exact ⟨⟨plain_separator indent depth, plain_entry e.1 he⟩, ih hentries⟩

theorem plain_write (h : v.Textual IsKey levels) (indent : Option Nat) (depth : Nat) :
    ∀ c ∈ write indent depth v, Plain c := by
  have hmark : ∀ c ∈ ['[', ']', '\x7b', '\x7d'], Plain c := by
    intro c hc
    simp only [List.mem_cons, List.not_mem_nil, or_false] at hc
    rcases hc with rfl | rfl | rfl | rfl
    all_goals exact .inr (by decide)
  have hlead := plain_lead indent
  induction h generalizing depth with
  | text s => exact plain_string s
  | @list n items h ih =>
      cases items with
      | nil =>
          simp only [write, List.forall_mem_cons]
          exact ⟨hmark _ (by decide), hmark _ (by decide), by simp⟩
      | cons v items =>
          have hv := ih v List.mem_cons_self (depth + 1)
          have hitems := plain_items fun w hw => ih w (List.mem_cons_of_mem v hw) (depth + 1)
          simp only [write, List.forall_mem_cons, List.forall_mem_append]
          exact ⟨hmark _ (by decide), ⟨⟨⟨hlead _, hv⟩, hitems⟩, hlead _⟩,
            hmark _ (by decide), by simp⟩
  | @record n entries hnodup hkey h ih =>
      cases entries with
      | nil =>
          simp only [write, List.forall_mem_cons]
          exact ⟨hmark _ (by decide), hmark _ (by decide), by simp⟩
      | cons e entries =>
          have he := plain_entry e.1 (ih e List.mem_cons_self (depth + 1))
          have hentries := plain_entries fun w hw => ih w (List.mem_cons_of_mem e hw) (depth + 1)
          rw [List.forall_mem_append, List.forall_mem_append] at he
          simp only [write, List.forall_mem_cons, List.forall_mem_append]
          rw [List.forall_mem_cons, List.forall_mem_cons] at he
          exact ⟨hmark _ (by decide), ⟨⟨⟨⟨⟨hlead _, he.1.1⟩, he.1.2⟩, he.2⟩, hentries⟩, hlead _⟩,
            hmark _ (by decide), by simp⟩

end ClassDiagram.Json

namespace ClassDiagram.Diagram

open Json

/-- The JSON text of a diagram, at every indent: it is well-formed and denotes the diagram's record,
and it is read as this record; it holds line feeds and printable characters of ASCII and nothing
else; and up to blanks outside of quotes it is the text for every other indent. -/
theorem json_loads_back (d : Diagram) (indent : Option Nat) :
    IsText (render indent d.toRecord).toList d.toRecord ∧
    read (render indent d.toRecord).toList = some d.toRecord ∧
    (∀ c ∈ (render indent d.toRecord).toList, c = '\n' ∨ ' ' ≤ c ∧ c ≤ '~') ∧
    ∀ other, condensed .outside (render indent d.toRecord).toList =
      condensed .outside (render other d.toRecord).toList := by
  have hdescribed := d.described_toRecord
  have htext : ∀ i, (render i d.toRecord).toList = write i 0 d.toRecord :=
    fun i => String.toList_ofList
  have hread : read (write indent 0 d.toRecord) = some d.toRecord := read_write hdescribed indent
  simp only [htext]
  exact ⟨isText_of_read hread, hread, plain_write hdescribed indent 0,
    condensed_write hdescribed indent⟩

end ClassDiagram.Diagram
