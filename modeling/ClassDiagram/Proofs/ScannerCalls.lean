import ClassDiagram.Proofs.Lexing.Munch
import ClassDiagram.Proofs.Lexing.Trail

/-!
# Calls of a scanner

The steps of a scanner can be called one by one, in any order, with any arguments and also after a
call that failed, be it in the middle of a label.  The scanner never leaves its text and never goes
back, its place is always the one that the text before it tells, and the tokens that it has once
read stay as they are.

What is raised for the text is an error with a place, unless that place cannot be written.
-/

namespace ClassDiagram

/-- The point lies in the text: what is left is the text from its offset on, and its place is the
one after the text before it. -/
structure Point.In (text : List Char) (p : Point) : Prop where
  offset_le : p.offset ≤ text.length
  rest_eq : p.rest = text.drop p.offset
  place_eq : p.place = .behind (text.take p.offset)

namespace Point.In

variable {text : List Char} {p : Point}

theorem ofString (text : String) : (Point.ofString text).In text.toList where
  offset_le := Nat.zero_le _
  rest_eq := rfl
  place_eq := rfl

theorem next (h : p.In text) : p.next.In text := by
  obtain ⟨hle, hrest, hplace⟩ := h
  cases hp : p.rest with
  | nil =>
      have hnext : p.next = p := by simp only [Point.next, hp]
      rw [hnext]
      exact ⟨hle, hrest, hplace⟩
  | cons c rest =>
      have hnext : p.next = ⟨rest, p.offset + 1, p.place.after c⟩ := by simp only [Point.next, hp]
      have hdrop : text.drop p.offset = c :: rest := hrest.symm.trans hp
      have hlt : p.offset < text.length := by
        by_contra hge
        rw [List.drop_of_length_le (Nat.le_of_not_lt hge)] at hdrop
        cases hdrop
      have hget : text[p.offset] :: text.drop (p.offset + 1) = c :: rest := by
        rw [← hdrop, List.drop_eq_getElem_cons hlt]
      obtain ⟨hc, htail⟩ := List.cons.inj hget
      rw [hnext]
      refine ⟨hlt, htail.symm, ?_⟩
      rw [List.take_succ_eq_append_getElem hlt, Place.behind_concat, hc, ← hplace]

theorem forward (h : p.In text) (n : Nat) : (p.forward n).In text := by
  induction n generalizing p with
  | zero => exact h
  | succ n ih => exact ih h.next

/-- A point is told by how much is left behind it. -/
theorem offset_add_length (h : p.In text) : p.offset + p.rest.length = text.length := by
  have hle := h.offset_le
  rw [h.rest_eq, List.length_drop]
  omega

end Point.In

namespace Scanner

/-- The scanner has gone forward from another one, and has added tokens to those of the other. -/
structure Follows (s s' : Scanner) (new : List Token) : Prop where
  forward : ∃ n, s'.point = s.point.forward n
  tokens : s'.tokens.toList = s.tokens.toList ++ new

namespace Follows

variable {s s' s'' : Scanner} {new more : List Token}

theorem refl (s : Scanner) : s.Follows s [] where
  forward := ⟨0, rfl⟩
  tokens := (List.append_nil _).symm

theorem trans (h : s.Follows s' new) (h' : s'.Follows s'' more) : s.Follows s'' (new ++ more) := by
  obtain ⟨⟨m, hm⟩, htokens⟩ := h
  obtain ⟨⟨n, hn⟩, htokens'⟩ := h'
  refine ⟨⟨m + n, ?_⟩, ?_⟩
  · rw [hn, hm, Point.forward_forward]
  · rw [htokens', htokens, List.append_assoc]

theorem of_forward (s : Scanner) (n : Nat) : s.Follows (s.forward n) [] where
  forward := ⟨n, rfl⟩
  tokens := (List.append_nil _).symm

theorem of_push (s : Scanner) (kind : Token.Kind) (value : List Char) (place : Place) :
    s.Follows (s.push kind value place) [⟨kind, String.ofList value, place⟩] where
  forward := ⟨0, rfl⟩
  tokens := by simp [push]

end Follows

/-- The outcome of reading one token: either the reading has failed and none is added, or at most
one is added and it stands for no end. -/
def ReadsOne (s : Scanner) : EStateM.Result LexError Scanner Unit → Prop
  | .error _ s' => s.Follows s' []
  | .ok _ s' => ∃ new, s.Follows s' new ∧ new.length ≤ 1 ∧ ∀ t ∈ new, t.kind ≠ .endOfText

theorem ReadsOne.of_push {s s' : Scanner} {kind : Token.Kind} {value : List Char} {place : Place}
    (h : s.Follows s' []) (hkind : kind ≠ .endOfText) :
    ReadsOne s (.ok () (s'.push kind value place)) := by
  refine ⟨_, h.trans (Follows.of_push s' kind value place), Nat.le_refl 1, ?_⟩
  intro t ht
  obtain rfl := List.mem_singleton.mp ht
  exact hkind

theorem readsOne_scanLabel (start : Place) (s : Scanner) : ReadsOne s (scanLabel start s) := by
  unfold scanLabel
  dsimp only
  split
  · exact ReadsOne.of_push (Follows.of_forward s _) (by decide)
  · exact Follows.of_forward s _

theorem readsOne_scanWord (first : List Char) (start : Place) (s : Scanner) :
    ReadsOne s (scanWord first start s) := by
  apply ReadsOne.of_push (Follows.of_forward s _)
  rcases Token.Kind.ofWord_cases (first ++ s.point.rest.takeWhile Text.isWordChar) with h | h | h
  all_goals
    rw [h]
    decide

/-- Where reading starts after some characters, they are passed first. -/
theorem ReadsOne.after_forward {s : Scanner} {n : Nat}
    {outcome : EStateM.Result LexError Scanner Unit} (h : ReadsOne (s.forward n) outcome) :
    ReadsOne s outcome := by
  cases outcome with
  | ok a s' =>
      obtain ⟨new, hnew, hone, hkinds⟩ := h
      exact ⟨new, (Follows.of_forward s n).trans hnew, hone, hkinds⟩
  | error e s' => exact (Follows.of_forward s n).trans h

theorem readsOne_scanHere (c : Char) (s : Scanner) : ReadsOne s (scanHere c s) := by
  unfold scanHere
  dsimp only
  split
  · exact ReadsOne.of_push (Follows.of_forward s _) (by simp)
  split
  · exact (readsOne_scanLabel _ _).after_forward
  split
  · exact (readsOne_scanWord _ _ _).after_forward
  split
  · next hmark =>
    refine ReadsOne.of_push (Follows.of_forward s 1) ?_
    exact (Token.Spelling.mark hmark).kind_ne_endOfText
  · exact Follows.of_forward s 1

theorem readsOne_scanToken (s : Scanner) : ReadsOne s (scanToken s) := by
  unfold scanToken
  split
  · exact ⟨[], Follows.of_forward s _, Nat.zero_le 1, by simp⟩
  · exact (readsOne_scanHere _ s.skipLayout).after_forward

/-- Reading to the end, or until it fails, adds tokens that stand for no end. -/
theorem follows_scanRest (s : Scanner) :
    ∃ new, s.Follows (after (scanRest s)) new ∧ ∀ t ∈ new, t.kind ≠ .endOfText := by
  fun_induction scanRest s with
  | case1 s hs => exact ⟨[], .refl s, by simp⟩
  | case2 s hs s' h _ ih =>
      have hone := readsOne_scanToken s
      rw [h] at hone
      obtain ⟨new, hnew, -, hkinds⟩ := hone
      obtain ⟨more, hmore, hkinds'⟩ := ih
      refine ⟨new ++ more, hnew.trans hmore, ?_⟩
      intro t ht
      rcases List.mem_append.mp ht with ht | ht
      · exact hkinds t ht
      · exact hkinds' t ht
  | case3 s hs e s' h =>
      have hone := readsOne_scanToken s
      rw [h] at hone
      exact ⟨[], hone, by simp⟩

theorem place_of_scanLabel_eq_error {start : Place} {s s' : Scanner} {e : LexError}
    (h : scanLabel start s = .error e s') : e.place = start := by
  unfold scanLabel at h
  dsimp only at h
  split at h
  · cases h
  · cases h
    rfl

theorem place_of_scanHere_eq_error {c : Char} {s s' : Scanner} {e : LexError}
    (h : scanHere c s = .error e s') : e.place = s.point.place := by
  unfold scanHere at h
  dsimp only at h
  split at h
  · cases h
  split at h
  · exact place_of_scanLabel_eq_error h
  split at h
  · cases h
  split at h
  · cases h
  · cases h
    rfl

/-- A token that cannot be read is blamed where it begins. -/
theorem place_of_scanToken_eq_error {s s' : Scanner} {e : LexError}
    (h : scanToken s = .error e s') : e.place = s.skipLayout.point.place := by
  unfold scanToken at h
  split at h
  · cases h
  · exact place_of_scanHere_eq_error h

/-- The error is placed at a point that lies ahead. -/
def PlacedAhead (s : Scanner) (e : LexError) : Prop := ∃ n, e.place = (s.point.forward n).place

theorem placedAhead_of_scanToken {s s' : Scanner} {e : LexError}
    (h : scanToken s = .error e s') : s.PlacedAhead e :=
  ⟨_, place_of_scanToken_eq_error h⟩

theorem Follows.placedAhead {s s' : Scanner} {new : List Token} {e : LexError}
    (h : s.Follows s' new) (he : s'.PlacedAhead e) : s.PlacedAhead e := by
  obtain ⟨m, hm⟩ := h.forward
  obtain ⟨n, hn⟩ := he
  exact ⟨m + n, by rw [hn, hm, Point.forward_forward]⟩

theorem placedAhead_of_scanRest {s s' : Scanner} {e : LexError}
    (h : scanRest s = .error e s') : s.PlacedAhead e := by
  fun_induction scanRest s with
  | case1 s hs => cases h
  | case2 s hs s₁ hscan _ ih =>
      have hone := readsOne_scanToken s
      rw [hscan] at hone
      obtain ⟨new, hnew, -⟩ := hone
      exact hnew.placedAhead (ih h)
  | case3 s hs e' s₁ hscan =>
      cases h
      exact placedAhead_of_scanToken hscan

/-- What can be asked of a scanner: a look at the text, a step in it, a token or what follows the
beginning of one, or all. -/
inductive Call where
  | peek
  | advance
  | atEnd
  | startsWith (text : String)
  | skipLayout
  | token
  | label (start : Place)
  | word (first : List Char) (start : Place)
  | all

/-- Why a call fails: the text is not made of tokens, or there is no character to step over. -/
inductive Failure where
  | raised (raised : Raised LexError)
  | pastEnd

namespace Call

/-- What a call gives if it does not fail. -/
def Answer : Call → Type
  | peek => Char
  | advance => Char
  | atEnd => Bool
  | startsWith _ => Bool
  | skipLayout => Unit
  | token => Unit
  | label _ => Unit
  | word _ _ => Unit
  | all => Array Token

/-- A scan whose failure is one of a call. -/
def ofScan (scan : Scan Unit) : EStateM Failure Scanner Unit :=
  (raising scan).adaptExcept .raised

def run : (call : Call) → EStateM Failure Scanner call.Answer
  | peek => fun s => .ok s.peek s
  | advance => fun s =>
    match s.advance? with
    | some (c, s') => .ok c s'
    | none => .error .pastEnd s
  | atEnd => fun s => .ok s.atEnd s
  | startsWith text => fun s => .ok (s.startsWith text) s
  | skipLayout => fun s => .ok () s.skipLayout
  | token => ofScan scanToken
  | label start => ofScan (scanLabel start)
  | word first start => ofScan (scanWord first start)
  | all => fun s =>
    match ofScan scanAll s with
    | .ok _ s' => .ok s'.tokens s'
    | .error e s' => .error e s'

/-- Where a call leaves the scanner, be it that it failed. -/
def next (call : Call) (s : Scanner) : Scanner :=
  match call.run s with
  | .ok _ s' => s'
  | .error _ s' => s'

/-- The calls that read one token, or the rest of one. -/
def readsToken : Call → Bool
  | token | label _ | word _ _ => true
  | _ => false

variable {call : Call} {s s' : Scanner} {a : call.Answer} {failure : Failure}

theorem next_of_run_eq_ok (h : call.run s = .ok a s') : call.next s = s' := by
  rw [next, h]

theorem next_of_run_eq_error (h : call.run s = .error failure s') : call.next s = s' := by
  rw [next, h]

theorem ofScan_eq_ok_iff {scan : Scan Unit} :
    ofScan scan s = .ok () s' ↔ scan s = .ok () s' :=
  adaptExcept_eq_ok_iff.trans adaptExcept_eq_ok_iff

theorem ofScan_eq_error_iff {scan : Scan Unit} :
    ofScan scan s = .error failure s' ↔ ∃ e, scan s = .error e s' ∧ .raised e.raised = failure := by
  constructor
  · intro h
    obtain ⟨r, hr, rfl⟩ := adaptExcept_eq_error_iff.mp h
    obtain ⟨e, he, rfl⟩ := adaptExcept_eq_error_iff.mp hr
    exact ⟨e, he, rfl⟩
  · rintro ⟨e, he, rfl⟩
    exact adaptExcept_eq_error_iff.mpr ⟨_, adaptExcept_eq_error_iff.mpr ⟨e, he, rfl⟩, rfl⟩

/-- A step over a character fails only where there is none, and then nothing has changed. -/
theorem run_eq_pastEnd_iff :
    call.run s = .error .pastEnd s' ↔ call = .advance ∧ s.point.rest = [] ∧ s' = s := by
  have hscan : ∀ scan : Scan Unit, ofScan scan s ≠ .error .pastEnd s' := by
    intro scan h
    obtain ⟨e, -, he⟩ := ofScan_eq_error_iff.mp h
    cases he
  constructor
  · intro h
    cases call with
    | advance =>
        cases hrest : s.point.rest with
        | nil =>
            simp only [run, advance?, hrest, List.head?_nil, Option.map_none] at h
            cases h
            exact ⟨rfl, rfl, rfl⟩
        | cons c rest =>
            simp only [run, advance?, hrest, List.head?_cons, Option.map_some] at h
            cases h
    | token => exact absurd h (hscan scanToken)
    | label start => exact absurd h (hscan (scanLabel start))
    | word first start => exact absurd h (hscan (scanWord first start))
    | all =>
        simp only [run] at h
        split at h
        · cases h
        · next e s₁ hall =>
          cases h
          exact absurd hall (hscan _)
    | _ => cases h
  · rintro ⟨rfl, hrest, rfl⟩
    simp only [run, advance?, hrest, List.head?_nil, Option.map_none]

/-- A scan for one token as a call: the scanner that it leaves, and what has been added. -/
theorem follows_of_ofScan {scan : Scan Unit} (h : ReadsOne s (scan s)) :
    (∀ s', ofScan scan s = .ok () s' → ∃ new, s.Follows s' new ∧ new.length ≤ 1) ∧
      ∀ f s', ofScan scan s = .error f s' → s.Follows s' [] := by
  refine ⟨?_, ?_⟩
  · intro s' hok
    rw [ofScan_eq_ok_iff.mp hok] at h
    obtain ⟨new, hnew, hone, -⟩ := h
    exact ⟨new, hnew, hone⟩
  · intro f s' herror
    obtain ⟨e, he, -⟩ := ofScan_eq_error_iff.mp herror
    rw [he] at h
    exact h

/-- A call for one token adds one at most, and none if it fails. -/
theorem follows_of_readsToken (hcall : call.readsToken = true) :
    (∀ a s', call.run s = .ok a s' → ∃ new, s.Follows s' new ∧ new.length ≤ 1) ∧
      ∀ f s', call.run s = .error f s' → s.Follows s' [] := by
  cases call with
  | token =>
      obtain ⟨hok, herror⟩ := follows_of_ofScan (readsOne_scanToken s)
      exact ⟨fun a => hok, herror⟩
  | label start =>
      obtain ⟨hok, herror⟩ := follows_of_ofScan (readsOne_scanLabel start s)
      exact ⟨fun a => hok, herror⟩
  | word first start =>
      obtain ⟨hok, herror⟩ := follows_of_ofScan (readsOne_scanWord first start s)
      exact ⟨fun a => hok, herror⟩
  | _ => cases hcall

theorem scanAll_eq (s : Scanner) :
    scanAll s =
      match scanRest s with
      | .error e s' => .error e s'
      | .ok _ s' => .ok () (s'.push .endOfText [] s'.point.place) := by
  change EStateM.bind scanRest _ s = _
  unfold EStateM.bind
  cases scanRest s <;> rfl

theorem scanRest_of_scanAll_eq_ok (h : scanAll s = .ok () s') :
    ∃ s₁, scanRest s = .ok () s₁ ∧ s' = s₁.push .endOfText [] s₁.point.place := by
  rw [scanAll_eq] at h
  split at h
  · cases h
  · next s₁ hrest =>
    cases h
    exact ⟨s₁, hrest, rfl⟩

theorem scanRest_of_scanAll_eq_error {e : LexError} (h : scanAll s = .error e s') :
    scanRest s = .error e s' := by
  rw [scanAll_eq] at h
  split at h
  · next hrest =>
    cases h
    exact hrest
  · cases h

theorem ofScan_of_run_all_eq_ok {tokens : Array Token} (h : Call.all.run s = .ok tokens s') :
    ofScan scanAll s = .ok () s' ∧ tokens = s'.tokens := by
  simp only [run] at h
  split at h
  · next hscan =>
    cases h
    exact ⟨hscan, rfl⟩
  · cases h

theorem ofScan_of_run_all_eq_error (h : Call.all.run s = .error failure s') :
    ofScan scanAll s = .error failure s' := by
  simp only [run] at h
  split at h
  · cases h
  · next hscan =>
    cases h
    exact hscan

/-- Asked for all, a scanner that does not fail reads to the end and adds the token for it. -/
theorem follows_of_run_all {tokens : Array Token} (h : Call.all.run s = .ok tokens s') :
    tokens = s'.tokens ∧ s'.point.rest = [] ∧
      ∃ new, (∀ t ∈ new, t.kind ≠ .endOfText) ∧
        s.Follows s' (new ++ [⟨.endOfText, "", s'.point.place⟩]) := by
  obtain ⟨hscan, htokens⟩ := ofScan_of_run_all_eq_ok h
  obtain ⟨s₁, hrest, rfl⟩ := scanRest_of_scanAll_eq_ok (ofScan_eq_ok_iff.mp hscan)
  obtain ⟨new, hnew, hkinds⟩ := follows_scanRest s
  rw [hrest] at hnew
  have hend : s₁.point.rest = [] := rest_of_scanRest_eq_ok hrest
  exact ⟨htokens, hend, new, hkinds, hnew.trans (Follows.of_push s₁ _ _ _)⟩

theorem follows_of_run_all_eq_error (h : Call.all.run s = .error failure s') :
    ∃ new, s.Follows s' new := by
  obtain ⟨e, he, -⟩ := ofScan_eq_error_iff.mp (ofScan_of_run_all_eq_error h)
  obtain ⟨new, hnew, -⟩ := follows_scanRest s
  rw [scanRest_of_scanAll_eq_error he] at hnew
  exact ⟨new, hnew⟩

/-- Whatever is called, the scanner goes forward and keeps its tokens. -/
theorem follows_next (call : Call) (s : Scanner) : ∃ new, s.Follows (call.next s) new := by
  have htoken : call.readsToken = true → ∃ new, s.Follows (call.next s) new := by
    intro hcall
    obtain ⟨hok, herror⟩ := follows_of_readsToken (s := s) hcall
    cases hrun : call.run s with
    | ok a s' =>
        obtain ⟨new, hnew, -⟩ := hok a s' hrun
        exact ⟨new, next_of_run_eq_ok hrun ▸ hnew⟩
    | error f s' => exact ⟨[], next_of_run_eq_error hrun ▸ herror f s' hrun⟩
  cases call with
  | peek => exact ⟨[], .refl s⟩
  | atEnd => exact ⟨[], .refl s⟩
  | startsWith text => exact ⟨[], .refl s⟩
  | skipLayout => exact ⟨[], .of_forward s _⟩
  | advance =>
      cases hrest : s.point.rest with
      | nil =>
          have hrun : Call.advance.run s = .error .pastEnd s :=
            run_eq_pastEnd_iff.mpr ⟨rfl, hrest, rfl⟩
          rw [next_of_run_eq_error hrun]
          exact ⟨[], .refl s⟩
      | cons c rest =>
          have hrun : Call.advance.run s = .ok c (s.forward 1) := by
            simp only [run, advance?, hrest, List.head?_cons, Option.map_some]
          rw [next_of_run_eq_ok hrun]
          exact ⟨[], .of_forward s 1⟩
  | token => exact htoken rfl
  | label start => exact htoken rfl
  | word first start => exact htoken rfl
  | all =>
      cases hrun : Call.all.run s with
      | ok tokens s' =>
          obtain ⟨-, -, new, -, hnew⟩ := follows_of_run_all hrun
          exact ⟨_, next_of_run_eq_ok hrun ▸ hnew⟩
      | error f s' =>
          obtain ⟨new, hnew⟩ := follows_of_run_all_eq_error hrun
          exact ⟨new, next_of_run_eq_error hrun ▸ hnew⟩

/-- A token before the end of the text takes characters. -/
theorem length_lt_of_run_token {s s' : Scanner} (hs : s.point.rest ≠ [])
    (h : Call.token.run s = .ok () s') : s'.point.rest.length < s.point.rest.length :=
  scanToken_length_lt hs (ofScan_eq_ok_iff.mp h)

/-- What a call raises for the text is an error for a label that is told to begin somewhere, or for
a point that lies ahead. -/
theorem exists_error_of_run {r : Raised LexError} (h : call.run s = .error (.raised r) s') :
    ∃ e : LexError, e.raised = r ∧
      ((∃ start, call = .label start ∧ e.place = start) ∨ s.PlacedAhead e) := by
  have hscan : ∀ scan : Scan Unit, ofScan scan s = .error (.raised r) s' →
      ∃ e : LexError, scan s = .error e s' ∧ e.raised = r := by
    intro scan hrun
    obtain ⟨e, he, hraised⟩ := ofScan_eq_error_iff.mp hrun
    cases hraised
    exact ⟨e, he, rfl⟩
  cases call with
  | token =>
      obtain ⟨e, he, hraised⟩ := hscan scanToken h
      exact ⟨e, hraised, .inr (placedAhead_of_scanToken he)⟩
  | label start =>
      obtain ⟨e, he, hraised⟩ := hscan (scanLabel start) h
      exact ⟨e, hraised, .inl ⟨start, rfl, place_of_scanLabel_eq_error he⟩⟩
  | word first start =>
      obtain ⟨e, he, -⟩ := hscan (scanWord first start) h
      cases he
  | all =>
      obtain ⟨e, he, hraised⟩ := hscan scanAll (ofScan_of_run_all_eq_error h)
      exact ⟨e, hraised, .inr (placedAhead_of_scanRest (scanRest_of_scanAll_eq_error he))⟩
  | advance =>
      simp only [run] at h
      split at h <;> cases h
  | _ => cases h

end Call

/-- The scanner after some calls. -/
def afterCalls (s : Scanner) (calls : List Call) : Scanner :=
  calls.foldl (fun s call => call.next s) s

theorem follows_afterCalls (s : Scanner) (calls : List Call) :
    ∃ new, s.Follows (s.afterCalls calls) new := by
  induction calls generalizing s with
  | nil => exact ⟨[], .refl s⟩
  | cons call calls ih =>
      obtain ⟨new, hnew⟩ := call.follows_next s
      obtain ⟨more, hmore⟩ := ih (call.next s)
      exact ⟨new ++ more, hnew.trans hmore⟩

theorem Follows.in {s s' : Scanner} {new : List Token} {text : List Char} (h : s.Follows s' new)
    (hs : s.point.In text) : s'.point.In text := by
  obtain ⟨n, hn⟩ := h.forward
  rw [hn]
  exact hs.forward n

theorem Follows.offset_le {s s' : Scanner} {new : List Token} {text : List Char}
    (h : s.Follows s' new) (hs : s.point.In text) : s.point.offset ≤ s'.point.offset := by
  obtain ⟨n, hn⟩ := h.forward
  have hlength := hs.offset_add_length
  have hlength' := (h.in hs).offset_add_length
  rw [hn, Point.rest_forward, List.length_drop] at hlength'
  rw [hn]
  omega

/-- Whatever calls are made of a scanner and whichever of them fail, it stays in its text, at the
place that the text before it tells.  Further calls lead no way back and change no token that is
there.  A call for one token adds at most one, and none if it fails; asked for a token before the
end, the scanner fails or moves on.  Past the end nothing is stepped over and nothing changes.  All
else that is raised is an error for the text, or the failure to write its place, which is the one
that a label is told to begin at or a place of the text.  Asked for all, the scanner reads to the
end of the text unless it fails, and adds one token for the end, at the place where it then
stands. -/
theorem calls_keep_scanner (text : String) (calls : List Call) (s : Scanner)
    (hs : (ofString text).afterCalls calls = s) :
    (s.point.offset ≤ text.toList.length ∧ s.point.rest = text.toList.drop s.point.offset ∧
      s.point.place = .behind (text.toList.take s.point.offset)) ∧
    (∀ more, s.point.offset ≤ (s.afterCalls more).point.offset ∧
      s.tokens.toList <+: (s.afterCalls more).tokens.toList) ∧
    (∀ call : Call, call.readsToken = true →
      (∀ a s', call.run s = .ok a s' →
        ∃ new, new.length ≤ 1 ∧ s'.tokens.toList = s.tokens.toList ++ new) ∧
      ∀ f s', call.run s = .error f s' → s'.tokens.toList = s.tokens.toList) ∧
    (∀ s', s.point.offset < text.toList.length → Call.token.run s = .ok () s' →
      s.point.offset < s'.point.offset) ∧
    (∀ (call : Call) s', call.run s = .error .pastEnd s' ↔
      call = .advance ∧ s.point.offset = text.toList.length ∧ s' = s) ∧
    (∀ (call : Call) r s', call.run s = .error (.raised r) s' →
      ∃ e : LexError, r = e.place.raise e ∧
        ((∃ start, call = .label start ∧ e.place = start) ∨
          ∃ n ≤ text.toList.length, e.place = .behind (text.toList.take n))) ∧
    ∀ tokens s', Call.all.run s = .ok tokens s' →
      tokens = s'.tokens ∧ s'.point.offset = text.toList.length ∧
      ∃ new, (∀ t ∈ new, t.kind ≠ .endOfText) ∧
        s'.tokens.toList = s.tokens.toList ++ new ++ [⟨.endOfText, "", s'.point.place⟩] := by
  have hin : s.point.In text.toList := by
    obtain ⟨new, hnew⟩ := follows_afterCalls (ofString text) calls
    exact hs ▸ hnew.in (.ofString text)
  have hlength := hin.offset_add_length
  have hend : s.point.rest = [] ↔ s.point.offset = text.toList.length := by
    rw [← List.length_eq_zero_iff]
    omega
  refine ⟨⟨hin.offset_le, hin.rest_eq, hin.place_eq⟩, ?_, ?_, ?_, ?_, ?_, ?_⟩
  · intro more
    obtain ⟨new, hnew⟩ := follows_afterCalls s more
    exact ⟨hnew.offset_le hin, new, hnew.tokens.symm⟩
  · intro call hcall
    obtain ⟨hok, herror⟩ := Call.follows_of_readsToken (s := s) hcall
    refine ⟨?_, ?_⟩
    · intro a s' hrun
      obtain ⟨new, hnew, hone⟩ := hok a s' hrun
      exact ⟨new, hone, hnew.tokens⟩
    · intro f s' hrun
      rw [(herror f s' hrun).tokens, List.append_nil]
  · intro s' hlt hrun
    have hne : s.point.rest ≠ [] := fun hnil => Nat.ne_of_lt hlt (hend.mp hnil)
    have hless := Call.length_lt_of_run_token hne hrun
    obtain ⟨new, hnew⟩ := Call.follows_next .token s
    rw [Call.next_of_run_eq_ok hrun] at hnew
    have hlength' := (hnew.in hin).offset_add_length
    omega
  · intro call s'
    rw [Call.run_eq_pastEnd_iff, hend]
  · intro call r s' hrun
    obtain ⟨e, hraised, hplace⟩ := Call.exists_error_of_run hrun
    refine ⟨e, hraised.symm, hplace.imp_right ?_⟩
    rintro ⟨n, hn⟩
    have hahead := hin.forward n
    exact ⟨_, hahead.offset_le, hn.trans hahead.place_eq⟩
  · intro tokens s' hrun
    obtain ⟨htokens, hnil, new, hkinds, hnew⟩ := Call.follows_of_run_all hrun
    have hlength' := (hnew.in hin).offset_add_length
    rw [hnil, List.length_nil, Nat.add_zero] at hlength'
    refine ⟨htokens, hlength', new, hkinds, ?_⟩
    rw [hnew.tokens, List.append_assoc]

/-- A label that breaks off at the end of its line fails and leaves no token.  What follows is read
all the same, and then there is no character left to step over. -/
theorem calls_keep_scanner_brokenLabel :
    ∃ s, (ofString "\"a\nb").afterCalls [.token, .all] = s ∧
      s.point.place = .behind ("\"a\nb".toList.take s.point.offset) ∧ s.point.place = ⟨2, 2⟩ ∧
      s.tokens.toList = [⟨.identifier, "b", ⟨2, 1⟩⟩, ⟨.endOfText, "", ⟨2, 2⟩⟩] ∧
      Call.advance.run s = .error .pastEnd s := by
  obtain ⟨⟨-, -, hplace⟩, -, -, -, hpast, -, -⟩ :=
    calls_keep_scanner "\"a\nb" [.token, .all] _ rfl
  have hoffset : ((ofString "\"a\nb").afterCalls [.token, .all]).point.offset = 4 := by
    decide +kernel
  refine ⟨_, rfl, hplace, by decide +kernel, by decide +kernel, ?_⟩
  exact (hpast .advance _).mpr ⟨rfl, hoffset, rfl⟩

/-- Not all that calls raise are errors for the text or steps past its end. -/
theorem label_raises_unwritable :
    ¬ ∀ (text : String) (call : Call) (f : Failure) (s' : Scanner),
      call.run (ofString text) = .error f s' →
        f = .pastEnd ∨ ∃ e : LexError, f = .raised (.error e) := by
  intro h
  have hrun : (Call.label ⟨Text.firstTooLong, 1⟩).run (ofString "") =
      .error (.raised .unwritable) (ofString "") :=
    Call.ofScan_eq_error_iff.mpr ⟨⟨.unterminatedString, ⟨Text.firstTooLong, 1⟩⟩, rfl,
      congrArg Failure.raised (Place.raise_firstTooLong 1 _)⟩
  rcases h _ _ _ _ hrun with hpast | ⟨e, he⟩
  · cases hpast
  · cases he

end Scanner

end ClassDiagram
