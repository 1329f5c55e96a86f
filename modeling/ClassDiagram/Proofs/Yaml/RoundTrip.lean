import ClassDiagram.Proofs.Yaml.Ordinary
import ClassDiagram.Proofs.Yaml.Steps

/-!
# YAML that is read back

What is written for a value made of text is read back as this value wherever it stands, from what
comes before it to the line that ends it.  So the YAML text of a diagram is read back as the
diagram's record.
-/

namespace ClassDiagram.Yaml

/-! ## Values -/

def Beside.parent : Beside → Nat → Parent
  | key, column => .entry column
  | mark, column => .item column

def Beside.fresh : Beside → Bool
  | key => false
  | mark => true

theorem Beside.least_parent (beside : Beside) (column : Nat) :
    (beside.parent column).least = column + 1 := by
  cases beside <;> rfl

theorem Beside.has_parent (beside : Beside) {column place : Nat} (h : column < place) {fresh : Bool}
    {rest : List Char} : (beside.parent column).has ⟨fresh, place, rest⟩ = true := by
  cases beside with
  | key => simp [parent, Parent.has, h]
  | mark => exact decide_eq_true h

theorem head_value (indent column : Nat) (beside : Beside) (v : Value) :
    ∃ c more, value indent column beside v = c :: more ∧ isSpacing c = true := by
  unfold value
  split
  · cases beside with
    | key => exact ⟨_, _, rfl, rfl⟩
    | mark => exact ⟨_, _, rfl, rfl⟩
  · cases beside with
    | key => exact ⟨_, _, rfl, rfl⟩
    | mark => exact ⟨_, _, rfl, rfl⟩
  · exact ⟨_, _, rfl, rfl⟩

/-- Values that are read back where what they stand beside is in a column up to `limit`.  The reader
starts in the column `place`: behind the colon of a key, wherever that is, or right behind a
dash. -/
def ReadBack (construct : Tag → String → Option Value) (limit : Nat) (v : Value) : Prop :=
  ∀ indent column beside place n rest, indent ≤ limit →
    indent < place → (beside = .mark → place = indent + 1) →
    (value indent column beside v).length < n → Behind (beside.parent indent).Ends rest →
      node? construct n (beside.parent indent)
        (next false beside.fresh place (value indent column beside v ++ rest)) =
          some (v, next false false 0 rest)

section Values

variable {construct : Tag → String → Option Value} {n limit : Nat}

theorem readBack_text {s : String} (hlimit : limit + 2 < width) :
    ReadBack construct limit (.text s) := by
  intro indent column beside place n rest hindent hplace hmark hn hbehind
  obtain ⟨n, rfl⟩ : ∃ k, n = k + 1 := ⟨n - 1, by omega⟩
  obtain ⟨more, hmore⟩ := hbehind.exists_cons
  have hhead : rest.head? = some '\n' := by
    rw [hmore]
    rfl
  have hleast := beside.least_parent indent
  have hscalar : scalar? (beside.parent indent).least ⟨beside.fresh, place + 1,
      write (indent + 2) column s.toList (styleOf s.toList) ++ rest⟩ =
        some (none, s.toList, rest) := by
    rw [hleast]
    refine scalar?_write s.toList (Nat.le_succ _) (Nat.succ_pos _) (by omega) (by omega)
      (Nat.succ_pos _) (by simp [hhead]) ?_
    rw [← hleast]
    exact hbehind.plain?_eq
  rw [value, scalar, List.cons_append, next_space, next_of_scalar? hscalar,
    node?_scalar hscalar hhead (beside.has_parent (Nat.lt_succ_of_lt hplace)), String.ofList_toList]
  all_goals simp

theorem head_value_append (indent column : Nat) (beside : Beside) (v : Value) (rest : List Char) :
    (value indent column beside v ++ rest).head?.all isSpacing = true := by
  obtain ⟨c, more, hvalue, hc⟩ := head_value indent column beside v
  rw [hvalue]
  exact hc

theorem not_isItem_of_behind {column : Nat} {rest : List Char}
    (h : Behind (Parent.entry column).Ends rest)
    (hcolumn : (next false false 0 rest).column = column) :
    (next false false 0 rest).isItem = false := by
  rw [Ahead.isItem]
  split
  · next more htext =>
    obtain ⟨c, _, hends, hrest⟩ := h.exists_ends (by simp [htext])
    rw [htext] at hrest
    obtain ⟨rfl, -⟩ := List.cons.inj hrest
    rcases hends with hends | hends
    · exact absurd hcolumn (Nat.ne_of_lt hends)
    · exact absurd rfl hends.2
  · rfl

theorem length_moreItems (column : Nat) (v : Value) (items : List Value) :
    (moreItems column (v :: items)).length = column + 2 +
      (value column (column + 2) .mark v).length + (moreItems column items).length := by
  simp only [moreItems, newline, List.length_append, List.length_cons, List.length_replicate]
  omega

theorem items?_eq {v : Value} {items : List Value} (hv : ReadBack construct limit v)
    (hitems : ∀ w ∈ items, ReadBack construct limit w) {column : Nat} (hcolumn : column ≤ limit)
    {rest : List Char} (hbehind : Behind (Parent.entry column).Ends rest)
    (hn : (value column (column + 2) .mark v).length + (moreItems column items).length + 1 < n) :
    items? construct n column
      (value column (column + 2) .mark v ++ (moreItems column items ++ rest)) =
        some (v :: items, next false false 0 rest) := by
  induction items generalizing v n with
  | nil =>
      obtain ⟨n, rfl⟩ : ∃ k, n = k + 1 := ⟨n - 1, by omega⟩
      have hends : Behind (Parent.item column).Ends rest := by
        refine hbehind.mono fun k c h => ?_
        rcases h with h | h
        · exact Nat.le_of_lt h
        · exact Nat.le_of_eq h.1
      have hread := hv column (column + 2) .mark (column + 1) n rest hcolumn (Nat.lt_succ_self _)
        (fun _ => rfl) (by omega) hends
      rw [moreItems, List.nil_append]
      exact items?_last hread (not_isItem_of_behind hbehind)
  | cons w items ih =>
      obtain ⟨n, rfl⟩ : ∃ k, n = k + 1 := ⟨n - 1, by omega⟩
      rw [length_moreItems] at hn
      have hmore : moreItems column (w :: items) ++ rest = newline column ++ '-' ::
          (value column (column + 2) .mark w ++ (moreItems column items ++ rest)) := by
        simp [moreItems]
      have hends : Behind (Parent.item column).Ends (newline column ++ '-' ::
          (value column (column + 2) .mark w ++ (moreItems column items ++ rest))) :=
        .line (Nat.le_refl column) (by decide) (by decide) (by decide)
      have hread := hv column (column + 2) .mark (column + 1) n _ hcolumn (Nat.lt_succ_self _)
        (fun _ => rfl) (by omega) hends
      rw [next_newline, next_word (by decide) (by decide) (by decide)] at hread
      rw [hmore, items?_more hread (head_value_append ..),
        ih (hitems w List.mem_cons_self)
          (fun x hx => hitems x (List.mem_cons_of_mem w hx)) (by omega)]
      rfl

theorem length_moreEntries {key : String} (h : IsWord key) (column : Nat) (v : Value)
    (entries : List (String × Value)) :
    (moreEntries column ((key, v) :: entries)).length = column + key.toList.length + 2 +
      (value column (column + key.toList.length + 2) .key v).length +
        (moreEntries column entries).length := by
  simp only [moreEntries, h.lead_eq, newline, List.length_append, List.length_cons,
    List.length_replicate, List.length_nil]
  omega

theorem entries?_eq (key : String) (lead : Nat) {v : Value} {entries : List (String × Value)}
    (hv : ReadBack construct limit v) (hkeys : ∀ e ∈ entries, IsWord e.1)
    (hentries : ∀ e ∈ entries, ReadBack construct limit e.2) {column place : Nat}
    (hcolumn : column ≤ limit) (hplace : column < place) {rest : List Char}
    (hbehind : Behind (fun k _ => k < column) rest)
    (hn : (value column lead .key v).length + (moreEntries column entries).length + 1 < n) :
    entries? construct n column
      ⟨key, place, value column lead .key v ++ (moreEntries column entries ++ rest)⟩ =
        some ((key, v) :: entries, next false false 0 rest) := by
  induction entries generalizing key v n place lead with
  | nil =>
      obtain ⟨n, rfl⟩ : ∃ k, n = k + 1 := ⟨n - 1, by omega⟩
      have hread := hv column lead .key place n rest hcolumn hplace
        (fun h => by cases h) (by omega)
        (hbehind.mono fun k c => .inl)
      rw [moreEntries, List.nil_append]
      refine entries?_last hread fun hsame => ?_
      by_contra hne
      obtain ⟨c, more, hends, -⟩ := hbehind.exists_ends hne
      exact absurd hsame (Nat.ne_of_lt hends)
  | cons e entries ih =>
      obtain ⟨key', w⟩ := e
      obtain ⟨n, rfl⟩ : ∃ k, n = k + 1 := ⟨n - 1, by omega⟩
      have hword : IsWord key' := hkeys (key', w) List.mem_cons_self
      have hw : ReadBack construct limit w := hentries (key', w) List.mem_cons_self
      rw [length_moreEntries hword] at hn
      have hmore : moreEntries column ((key', w) :: entries) ++ rest = newline column ++
          (key'.toList ++ ':' :: (value column (column + key'.toList.length + 2) .key w ++
            (moreEntries column entries ++ rest))) := by
        simp [moreEntries, hword.lead_eq]
      have hread := hv column lead .key place n _ hcolumn hplace
        (fun h => by cases h) (by omega)
        (hword.behind (fun c hc => .inr ⟨rfl, hc⟩) (':' ::
          (value column (column + key'.toList.length + 2) .key w ++
            (moreEntries column entries ++ rest))))
      have hkey := hword.key?_eq true (Nat.le_refl (column + 1))
        (head_value_append column (column + key'.toList.length + 2) .key w
          (moreEntries column entries ++ rest))
      obtain ⟨r, hscalar⟩ := exists_scalar_of_key? hkey
      rw [next_newline, next_of_scalar? hscalar] at hread
      rw [hmore]
      refine (entries?_more hread rfl hkey).trans ?_
      rw [ih key' _ hw (fun x hx => hkeys x (List.mem_cons_of_mem _ hx))
        (fun x hx => hentries x (List.mem_cons_of_mem _ hx)) (by omega) (by omega)]
      rfl

/-- A record is read from its first key on. -/
theorem node?_write {parent : Parent} {key : String} {v : Value} {entries : List (String × Value)}
    (hnodup : (((key, v) :: entries).map Prod.fst).Nodup)
    (hkeys : ∀ e ∈ (key, v) :: entries, IsWord e.1)
    (h : ∀ e ∈ (key, v) :: entries, ReadBack construct limit e.2) {column : Nat}
    (hcolumn : column ≤ limit) (hleast : parent.least ≤ column + 1)
    (hhas : ∀ text, parent.has ⟨true, column, text⟩ = true) {rest : List Char}
    (hbehind : Behind (fun k _ => k < column) rest)
    (hn : (value column (column + key.toList.length + 2) .key v).length +
      (moreEntries column entries).length + 1 < n) :
    node? construct (n + 1) parent (next false true column (key.toList ++ ':' ::
      (value column (column + key.toList.length + 2) .key v ++
        (moreEntries column entries ++ rest)))) =
        some (.record ((key, v) :: entries), next false false 0 rest) := by
  have hword : IsWord key := hkeys (key, v) List.mem_cons_self
  have hv : ReadBack construct limit v := h (key, v) List.mem_cons_self
  have hkey := hword.key?_eq true hleast
    (head_value_append column (column + key.toList.length + 2) .key v
      (moreEntries column entries ++ rest))
  have hentries := entries?_eq key (column + key.toList.length + 2) hv
    (fun x hx => hkeys x (List.mem_cons_of_mem _ hx))
    (fun x hx => h x (List.mem_cons_of_mem _ hx)) hcolumn
    (show column < column + key.toList.length + 1 by omega) hbehind hn
  obtain ⟨r, hscalar⟩ := exists_scalar_of_key? hkey
  rw [next_of_scalar? hscalar, node?_entries hkey rfl (hhas _), hentries, Option.map_some,
    Value.gather_of_nodup hnodup]

theorem next_beforeItems {indent place : Nat} {beside : Beside}
    (hmark : beside = .mark → place = indent + 1) (text : List Char) :
    next false beside.fresh place (beforeItems indent beside ++ text) =
      next false true (itemIndent indent beside) text := by
  cases beside with
  | key => exact next_newline indent text
  | mark =>
      rw [beforeItems, List.singleton_append, next_space, hmark rfl]
      rfl

theorem next_beforeEntries {indent place : Nat} {beside : Beside}
    (hmark : beside = .mark → place = indent + 1) (text : List Char) :
    next false beside.fresh place (beforeEntries indent beside ++ text) =
      next false true (indent + 2) text := by
  cases beside with
  | key => exact next_newline (indent + 2) text
  | mark =>
      rw [beforeEntries, List.singleton_append, next_space, hmark rfl]
      rfl

theorem readBack_list {items : List Value} (h : ∀ v ∈ items, ReadBack construct (limit + 2) v) :
    ReadBack construct limit (.list items) := by
  intro indent column beside place n rest hindent hplace hmark hn hbehind
  obtain ⟨n, rfl⟩ : ∃ k, n = k + 1 := ⟨n - 1, by omega⟩
  cases items with
  | nil =>
      rw [value, scalar, List.cons_append, next_space, List.cons_append, List.singleton_append,
        next_word (by decide) (by decide) (by decide),
        node?_emptyList (beside.has_parent (Nat.lt_succ_of_lt hplace))]
      all_goals simp
  | cons v items =>
      -- Under a key the dashes stand in its column, behind a dash two columns on.
      have hinner : itemIndent indent beside ≤ limit + 2 := by
        cases beside <;> simp only [itemIndent] <;> omega
      have hends : Behind (Parent.entry (itemIndent indent beside)).Ends rest := by
        refine hbehind.mono fun k c hk => ?_
        cases beside with
        | key => exact hk
        | mark => exact .inl (Nat.lt_of_le_of_lt hk (by simp [itemIndent]))
      have hbefore : 0 < (beforeItems indent beside).length := by
        cases beside <;> simp [beforeItems, newline]
      simp only [value, List.length_append, List.length_cons] at hn
      have hitems := items?_eq (h v List.mem_cons_self)
        (fun w hw => h w (List.mem_cons_of_mem v hw)) hinner hends (n := n) (by omega)
      have hhead := head_value_append (itemIndent indent beside) (itemIndent indent beside + 2)
        .mark v (moreItems (itemIndent indent beside) items ++ rest)
      simp only [value, List.append_assoc, List.cons_append]
      rw [next_beforeItems hmark, next_word (by decide) (by decide) (by decide), node?_items hhead,
        hitems]
      · rfl
      · cases beside with
        | key => simpa [Beside.parent, Parent.has, itemIndent, Ahead.isItem] using hhead
        | mark => exact Beside.has_parent .mark (by simp [itemIndent])

theorem readBack_record {entries : List (String × Value)} (hnodup : (entries.map Prod.fst).Nodup)
    (hkeys : ∀ e ∈ entries, IsWord e.1) (h : ∀ e ∈ entries, ReadBack construct (limit + 2) e.2) :
    ReadBack construct limit (.record entries) := by
  intro indent column beside place n rest hindent hplace hmark hn hbehind
  obtain ⟨n, rfl⟩ : ∃ k, n = k + 1 := ⟨n - 1, by omega⟩
  cases entries with
  | nil =>
      rw [value, scalar, List.cons_append, next_space, List.cons_append, List.singleton_append,
        next_word (by decide) (by decide) (by decide),
        node?_emptyRecord (beside.has_parent (Nat.lt_succ_of_lt hplace))]
      all_goals simp
  | cons e entries =>
      obtain ⟨key, v⟩ := e
      have hword : IsWord key := hkeys (key, v) List.mem_cons_self
      have hends : Behind (fun k _ => k < indent + 2) rest := by
        refine hbehind.mono fun k c hk => ?_
        have hlt := hk.lt_least
        rw [beside.least_parent] at hlt
        exact Nat.lt_succ_of_lt hlt
      have hleast : (beside.parent indent).least ≤ indent + 2 + 1 := by
        rw [beside.least_parent]
        omega
      have hbefore : 0 < (beforeEntries indent beside).length := by
        cases beside <;> simp [beforeEntries, newline]
      have hpos := hword.length_pos
      simp only [value, hword.lead_eq, List.length_append, List.length_cons, List.length_nil] at hn
      simp only [value, hword.lead_eq, List.append_assoc, List.cons_append, List.nil_append]
      rw [next_beforeEntries hmark]
      exact node?_write hnodup hkeys h (Nat.add_le_add_right hindent 2) hleast
        (fun _ => beside.has_parent (by omega)) hends (by omega)

theorem readBack_of_described {levels : Nat} {v : Value} (h : Value.Described levels v)
    (hlimit : limit + 2 * levels + 2 < width) : ReadBack construct limit v := by
  -- Each level takes two columns, and below the width there is room for all of them.
  induction h generalizing limit with
  | text s => exact readBack_text (by omega)
  | list _ ih => exact readBack_list fun v hv => ih v hv (by omega)
  | record hnodup hkeys _ ih =>
      exact readBack_record hnodup (fun e he => isWord_of_mem_attributes (hkeys e he))
        fun e he => ih e he (by omega)

end Values

/-! ## Documents -/

theorem all_before (indent : Nat) (beside : Beside) :
    (beforeItems indent beside).all isOrdinary = true ∧
      (beforeEntries indent beside).all isOrdinary = true := by
  cases beside with
  | key => exact ⟨all_newline indent, all_newline (indent + 2)⟩
  | mark => exact ⟨rfl, rfl⟩

theorem all_lead {key : String} (h : IsWord key) (indent : Nat) :
    (lead indent key).text.all isOrdinary = true := by
  rw [h.lead_eq, List.all_append, all_of_fitsSingle (fitsSingle_of_fitsPlain h.fits)]
  rfl

theorem all_moreItems {items : List Value}
    (h : ∀ v ∈ items, ∀ indent column beside, (value indent column beside v).all isOrdinary = true)
    (column : Nat) : (moreItems column items).all isOrdinary = true := by
  induction items with
  | nil => rfl
  | cons v items ih =>
      rw [moreItems, List.all_append, List.all_append, List.all_cons, all_newline,
        h v List.mem_cons_self, ih fun w hw => h w (List.mem_cons_of_mem v hw)]
      rfl

theorem all_moreEntries {entries : List (String × Value)} (hkeys : ∀ e ∈ entries, IsWord e.1)
    (h : ∀ e ∈ entries, ∀ indent column beside,
      (value indent column beside e.2).all isOrdinary = true)
    (column : Nat) : (moreEntries column entries).all isOrdinary = true := by
  induction entries with
  | nil => rfl
  | cons e entries ih =>
      rw [moreEntries, List.all_append, List.all_append, List.all_append, all_newline,
        all_lead (hkeys e List.mem_cons_self), h e List.mem_cons_self,
        ih (fun x hx => hkeys x (List.mem_cons_of_mem e hx)) fun x hx =>
          h x (List.mem_cons_of_mem e hx)]
      rfl

theorem all_value {levels : Nat} {v : Value} (h : Value.Described levels v) (indent column : Nat)
    (beside : Beside) : (value indent column beside v).all isOrdinary = true := by
  induction h generalizing indent column beside with
  | text s =>
      rw [value, scalar, List.all_cons, all_write]
      all_goals simp [isOrdinary]
  | @list _ items _ ih =>
      cases items with
      | nil => rfl
      | cons v items =>
          rw [value, List.all_append, List.all_append, List.all_cons, (all_before indent beside).1,
            ih v List.mem_cons_self, all_moreItems fun w hw => ih w (List.mem_cons_of_mem v hw)]
          rfl
  | @record _ entries _ hkeys _ ih =>
      have hwords : ∀ e ∈ entries, IsWord e.1 := fun e he => isWord_of_mem_attributes (hkeys e he)
      cases entries with
      | nil => rfl
      | cons e entries =>
          rw [value, List.all_append, List.all_append, List.all_append,
            (all_before indent beside).2, all_lead (hwords e List.mem_cons_self),
            ih e List.mem_cons_self,
            all_moreEntries (fun x hx => hwords x (List.mem_cons_of_mem e hx))
              fun x hx => ih x (List.mem_cons_of_mem e hx)]
          rfl

theorem all_document {levels : Nat} {entries : List (String × Value)}
    (h : Value.Described levels (.record entries)) :
    (document (.record entries)).all isOrdinary = true := by
  cases h with
  | record hnodup hkeys h =>
      have hwords : ∀ e ∈ entries, IsWord e.1 := fun e he => isWord_of_mem_attributes (hkeys e he)
      cases entries with
      | nil => rfl
      | cons e entries =>
          rw [document, List.all_append, List.all_append, all_lead (hwords e List.mem_cons_self),
            all_value (h e List.mem_cons_self),
            all_moreEntries (fun x hx => hwords x (List.mem_cons_of_mem e hx))
              fun x hx => all_value (h x (List.mem_cons_of_mem e hx))]
          rfl

theorem node?_document {construct : Tag → String → Option Value} {levels n : Nat}
    {entries : List (String × Value)} (h : Value.Described levels (.record entries))
    (hlevels : 2 * levels < width) (hn : (document (.record entries)).length < n) :
    node? construct n .document (next false true 0 (document (.record entries) ++ ['\n'])) =
      some (.record entries, ⟨true, 0, []⟩) := by
  obtain ⟨n, rfl⟩ : ∃ k, n = k + 1 := ⟨n - 1, by omega⟩
  cases h with
  | record hnodup hkeys h =>
      have hwords : ∀ e ∈ entries, IsWord e.1 := fun e he => isWord_of_mem_attributes (hkeys e he)
      have hback : ∀ e ∈ entries, ReadBack construct 0 e.2 :=
        fun e he => readBack_of_described (h e he) (by omega)
      cases entries with
      | nil => exact node?_emptyRecord rfl
      | cons e entries =>
          obtain ⟨key, v⟩ := e
          have hword : IsWord key := hwords (key, v) List.mem_cons_self
          have hpos := hword.length_pos
          simp only [document, hword.lead_eq, List.length_append, List.length_cons,
            List.length_nil] at hn
          simp only [document, hword.lead_eq, List.append_assoc, List.cons_append, List.nil_append]
          exact node?_write hnodup hwords hback (Nat.le_refl 0) (Nat.zero_le _) (fun _ => rfl) .last
            (by omega)

/-- What is written for a record made of text is read as this record. -/
theorem read_render {levels : Nat} {entries : List (String × Value)}
    (construct : Tag → String → Option Value) (h : Value.Described levels (.record entries))
    (hlevels : 2 * levels < width) :
    read construct (render (.record entries)) = some (.record entries) := by
  have hall : (document (.record entries) ++ ['\n']).all isOrdinary = true := by
    rw [List.all_append, all_document h]
    rfl
  rw [read, render, String.toList_ofList, if_pos hall, node?_document h hlevels]
  · rfl
  · simp only [List.length_append]
    omega

end ClassDiagram.Yaml

namespace ClassDiagram.Diagram

open Yaml

/-- The YAML text of a diagram is read as the diagram's record, whatever plain scalars that look
like something else than text are taken for; so diagrams with the same text have the same
record. -/
theorem yaml_loads_back (d : Diagram) (construct : Tag → String → Option Value) :
    read construct (render d.toRecord) = some d.toRecord ∧
      ∀ e : Diagram, render e.toRecord = render d.toRecord → e.toRecord = d.toRecord := by
  have hread : ∀ e : Diagram, read construct (render e.toRecord) = some e.toRecord :=
    fun e => read_render construct e.described_toRecord (by decide)
  refine ⟨hread d, ?_⟩
  intro e htext
  have hsame := hread e
  rw [htext, hread d] at hsame
  exact (Option.some.inj hsame).symm

end ClassDiagram.Diagram
