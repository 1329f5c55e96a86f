import ClassDiagram.Storage.Path
import Mathlib.Data.List.Basic

/-!
# Paths as they are shown

A path is shown with its own characters, and slashes and dots; so a path that could be meant for no
file because of a null character has one in what it is made of.  And it is shown with its last name
at its end: paths whose last names end differently are shown differently.
-/

namespace ClassDiagram.Storage

theorem mem_of_mem_splitSlash {text name : List Char} (h : name ∈ splitSlash text) {c : Char}
    (hc : c ∈ name) : c ∈ text := by
  fun_induction splitSlash text generalizing name with
  | case1 =>
      obtain rfl := List.mem_singleton.mp h
      exact hc
  | case2 rest ih =>
      rcases List.mem_cons.mp h with rfl | h
      · cases hc
      · exact List.mem_cons_of_mem _ (ih h hc)
  | case3 d rest _ hsplit ih =>
      obtain rfl := List.mem_singleton.mp h
      obtain rfl := List.mem_singleton.mp hc
      exact List.mem_cons_self
  | case4 d rest _ first names hsplit ih =>
      rw [hsplit] at ih
      rcases List.mem_cons.mp h with rfl | h
      · rcases List.mem_cons.mp hc with rfl | hc
        · exact List.mem_cons_self
        · exact List.mem_cons_of_mem _ (ih List.mem_cons_self hc)
      · exact List.mem_cons_of_mem _ (ih (List.mem_cons_of_mem _ h) hc)

/-- What stands behind the last slash is in the last name. -/
theorem exists_splitSlash_append (text : List Char) {tail : List Char} (htail : '/' ∉ tail) :
    ∃ front name, splitSlash (text ++ tail) = front ++ [name ++ tail] := by
  have hplain : ∀ tail : List Char, '/' ∉ tail → splitSlash tail = [tail] := by
    intro tail htail
    fun_induction splitSlash tail with
    | case1 => rfl
    | case2 => exact absurd List.mem_cons_self htail
    | case3 c rest _ hsplit ih =>
        rw [ih fun h => htail (List.mem_cons_of_mem _ h)] at hsplit
        cases hsplit
    | case4 c rest _ first names hsplit ih =>
        rw [ih fun h => htail (List.mem_cons_of_mem _ h)] at hsplit
        cases hsplit
        rfl
  induction text with
  | nil => exact ⟨[], [], by simpa using hplain tail htail⟩
  | cons c text ih =>
      obtain ⟨front, name, hsplit⟩ := ih
      by_cases hc : c = '/'
      · subst hc
        exact ⟨[] :: front, name, by rw [List.cons_append, splitSlash, hsplit]; rfl⟩
      · rw [List.cons_append, splitSlash, hsplit]
        · cases front with
          | nil => exact ⟨[], c :: name, rfl⟩
          | cons first front => exact ⟨(c :: first) :: front, name, rfl⟩
        · exact hc

theorem mem_intercalate {separator : String} {texts : List String} {c : Char}
    (h : c ∈ (separator.intercalate texts).toList) :
    c ∈ separator.toList ∨ ∃ text ∈ texts, c ∈ text.toList := by
  induction texts with
  | nil => simp at h
  | cons text rest ih =>
      cases rest with
      | nil => exact .inr ⟨text, List.mem_cons_self, by simpa using h⟩
      | cons other rest =>
          rw [String.intercalate_cons_cons, String.toList_append, String.toList_append,
            List.mem_append, List.mem_append] at h
          rcases h with (h | h) | h
          · exact .inr ⟨text, List.mem_cons_self, h⟩
          · exact .inl h
          · rcases ih h with h | ⟨t, ht, hc⟩
            · exact .inl h
            · exact .inr ⟨t, List.mem_cons_of_mem _ ht, hc⟩

theorem suffix_intercalate (separator : String) (texts : List String) (last : String) :
    last.toList <:+ (separator.intercalate (texts ++ [last])).toList := by
  induction texts with
  | nil => simp
  | cons text rest ih =>
      obtain ⟨other, more, heq⟩ : ∃ other more, rest ++ [last] = other :: more :=
        List.exists_cons_of_ne_nil (by simp)
      rw [heq] at ih
      rw [List.cons_append, heq, String.intercalate_cons_cons, String.toList_append]
      exact ih.trans (List.suffix_append _ _)

namespace Path

/-- A path is shown with its own characters, and slashes and dots. -/
theorem mem_display {p : Path} {c : Char} (h : c ∈ p.display.toList) :
    (∃ name ∈ p.names, c ∈ name) ∨ c = '/' ∨ c = '.' := by
  have hnames : c ∈ ("/".intercalate (p.names.map String.ofList)).toList →
      (∃ name ∈ p.names, c ∈ name) ∨ c = '/' ∨ c = '.' := by
    intro hc
    rcases mem_intercalate hc with hc | ⟨text, htext, hc⟩
    · exact .inr (.inl (by simpa using hc))
    · obtain ⟨name, hname, rfl⟩ := List.mem_map.mp htext
      exact .inl ⟨name, hname, by rwa [String.toList_ofList] at hc⟩
  unfold display at h
  simp only at h
  split at h
  · split at h
    · exact .inr (.inr (by simpa using h))
    · exact hnames h
  all_goals
    rw [String.toList_append, List.mem_append] at h
    rcases h with h | h
    · exact .inr (.inl (by simpa using h))
    · exact hnames h

theorem mem_of_mem_names {text : String} {name : List Char} (h : name ∈ (ofString text).names)
    {c : Char} (hc : c ∈ name) : c ∈ text.toList :=
  mem_of_mem_splitSlash (List.mem_of_mem_filter h) hc

theorem null_not_mem_display_join {file other : String} (h : '\x00' ∉ file.toList)
    (hother : '\x00' ∉ other.toList) :
    '\x00' ∉ ((ofString file).join (ofString other)).display.toList := by
  intro hc
  rcases mem_display hc with ⟨name, hname, hc⟩ | hc | hc
  · unfold join at hname
    split at hname
    · rcases List.mem_append.mp hname with hname | hname
      · exact h (mem_of_mem_names hname hc)
      · exact hother (mem_of_mem_names hname hc)
    · exact hother (mem_of_mem_names hname hc)
  · cases hc
  · cases hc

theorem suffix_display {p : Path} {front : List (List Char)} {last : List Char}
    (h : p.names = front ++ [last]) : last <:+ p.display.toList := by
  have hnames : last <:+ ("/".intercalate (p.names.map String.ofList)).toList := by
    have hlast := suffix_intercalate "/" (front.map String.ofList) (String.ofList last)
    rwa [String.toList_ofList, ← List.map_singleton, ← List.map_append, ← h] at hlast
  unfold display
  simp only
  split
  · rw [if_neg (by simp [h])]
    exact hnames
  all_goals
    rw [String.toList_append]
    exact hnames.trans (List.suffix_append _ _)

/-- A path that is followed by another one is shown with what the other one ends with. -/
theorem suffix_display_join (p : Path) {text : String} {tail : List Char}
    (htext : tail <:+ text.toList) (hslash : '/' ∉ tail) (hlength : 2 ≤ tail.length) :
    tail <:+ (p.join (ofString text)).display.toList := by
  obtain ⟨front, name, hnames⟩ : ∃ front name, (ofString text).names = front ++ [name ++ tail] := by
    obtain ⟨before, htext⟩ := htext
    obtain ⟨front, name, hsplit⟩ := exists_splitSlash_append before hslash
    refine ⟨front.filter fun name => name ≠ [] ∧ name ≠ ['.'], name, ?_⟩
    have hkept : name ++ tail ≠ [] ∧ name ++ tail ≠ ['.'] := by
      constructor
      all_goals
        intro heq
        have hlengths := congrArg List.length heq
        simp only [List.length_append, List.length_nil, List.length_singleton] at hlengths
        omega
    rw [ofString, ← htext, hsplit, List.filter_append]
    simp [hkept]
  obtain ⟨front', hjoin⟩ : ∃ front', (p.join (ofString text)).names = front' ++ [name ++ tail] := by
    unfold join
    split
    · exact ⟨p.names ++ front, by rw [hnames, List.append_assoc]⟩
    · exact ⟨front, hnames⟩
  exact (List.suffix_append name tail).trans (suffix_display hjoin)

end Path

end ClassDiagram.Storage
