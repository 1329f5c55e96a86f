import ClassDiagram.Proofs.Fuzz.Runs

/-!
# Deadlines

A run that has a deadline looks at the clock before each pass.  It goes on until the clock has
reached the deadline or as many inputs have been tried as may be, whichever comes first, and then
prints its statistics and does nothing else.  Since each pass takes a reading of its own, a clock
that reaches the deadline for good ends the run.

A duration of zero is no duration: such a run has no deadline, whatever the clock shows.
-/

namespace ClassDiagram.Fuzz

/-- The time at which a session that begins now will have lasted so many minutes. -/
def Bench.timeAfter (bench : Bench) (s : Session) (minutes : Float) : Float :=
  bench.clock s.readings + minutes * 60

/-- As many inputs have been tried as may be. -/
def Limit.Reached (limit : Limit) (stats : Stats) : Prop :=
  ∃ m : Int, limit = .upTo m ∧ m ≤ stats.iterations

namespace Session

/-- The session after a reading of the clock. -/
def afterReading (s : Session) : Session := { s with readings := s.readings + 1 }

/-- The session in which a run has been opened. -/
def opened (bench : Bench) (s : Session) : Session :=
  { s with
    readings := s.readings + 1
    startTime := bench.clock s.readings
    printed := s.printed ++ ("Fuzzing with " ++ toString seedCorpus.length ++
      " seed inputs, findings in " ++ (Storage.Path.ofString bench.directory).display) ++ "\n" ++
      "".pushn '-' 60 ++ "\n" }

/-- The session after the final statistics. -/
def closed (bench : Bench) (s : Session) : Session :=
  { s with
    readings := s.readings + 1
    printed := s.printed ++ ("\n" ++ "".pushn '=' 60) ++ "\n" ++ "Final Statistics:" ++ "\n" ++
      s.stats.summary (bench.clock s.readings - s.startTime) ++ "\n" }

/-- In the second session so many inputs more have been tried than in the first. -/
structure Later (inputs : Nat) (s s' : Session) : Prop where
  startTime : s'.startTime = s.startTime
  readings : s.readings ≤ s'.readings
  iterations : s'.stats.iterations = s.stats.iterations + inputs

theorem Later.refl (s : Session) : Later 0 s s := ⟨rfl, Nat.le_refl _, rfl⟩

theorem Later.trans {m n : Nat} {s s' s'' : Session} (h : Later m s s') (h' : Later n s' s'') :
    Later (m + n) s s'' where
  startTime := h'.startTime.trans h.startTime
  readings := Nat.le_trans h.readings h'.readings
  iterations := by rw [h'.iterations, h.iterations, Nat.add_assoc]

end Session

open Session

namespace Trial

variable {α β : Type} {bench : Bench} {deadline : Float} {limit : Limit} {k m n : Nat} {s : Session}

/-! ## How many inputs a step tries -/

/-- Unless it fails, the step tries so many inputs. -/
def Tries (step : Trial α) (inputs : Nat) : Prop :=
  ∀ s a s', step s = .ok a s' → Later inputs s s'

namespace Tries

theorem pure (a : α) : Tries (Pure.pure a) 0 := by
  rintro s _ _ ⟨⟩
  exact .refl s

theorem throw (fault : Fault) : Tries (throw fault : Trial α) n := fun _ _ _ h => nomatch h

theorem bind {step : Trial α} {next : α → Trial β} (h : Tries step m)
    (hnext : ∀ a, Tries (next a) n) : Tries (step >>= next) (m + n) := by
  intro s b s' hb
  obtain ⟨a, middle, ha, hmore⟩ := exists_of_bind_ok hb
  exact (h s a middle ha).trans (hnext a middle b s' hmore)

/-- The first step tries nothing. -/
theorem andThen {step : Trial α} {next : α → Trial β} (h : Tries step 0)
    (hnext : ∀ a, Tries (next a) n) : Tries (step >>= next) n :=
  Nat.zero_add n ▸ h.bind hnext

theorem ite {c : Prop} [Decidable c] {yes no : Trial α} (hyes : Tries yes n) (hno : Tries no n) :
    Tries (if c then yes else no) n := by
  split
  · exact hyes
  · exact hno

theorem map {step : Trial α} (h : Tries step n) (f : α → β) : Tries (f <$> step) n := by
  rw [map_eq_pure_bind]
  exact h.bind fun a => .pure (f a)

end Tries

theorem tries_get : Tries get 0 := by
  rintro s _ _ ⟨⟩
  exact .refl s

theorem tries_print (line : String) : Tries (print line) 0 := by
  rintro s _ _ ⟨⟩
  exact ⟨rfl, Nat.le_refl _, rfl⟩

theorem tries_count {f : Stats → Stats} (h : ∀ stats, (f stats).iterations = stats.iterations + n) :
    Tries (count f) n := by
  rintro s _ _ ⟨⟩
  exact ⟨rfl, Nat.le_refl _, h s.stats⟩

theorem tries_now (bench : Bench) : Tries (now bench) 0 := by
  rintro s _ _ ⟨⟩
  exact ⟨rfl, Nat.le_succ _, rfl⟩

theorem tries_random (g : Gen α) : Tries (random g) 0 := by
  intro s a s' h
  unfold random at h
  split at h <;> cases h
  exact ⟨rfl, Nat.le_refl _, rfl⟩

theorem tries_examine (bench : Bench) (input : String) : Tries (examine bench input) 0 := by
  have hdescent : Tries (tryDescent bench input) 0 := by
    rintro s _ _ ⟨⟩
    exact ⟨rfl, Nat.le_refl _, rfl⟩
  have hgrammar : Tries (tryGrammar bench input) 0 := by
    rintro s _ _ ⟨⟩
    exact ⟨rfl, Nat.le_refl _, rfl⟩
  refine hdescent.andThen fun attempt => ?_
  cases attempt with
  | parsed d => exact hgrammar.andThen fun attempt => .pure (Verdict.ofSecond d attempt)
  | _ => exact .pure _

theorem tries_keep (bench : Bench) (finding : Finding) : Tries (keep bench finding) 0 := by
  refine .ite (.throw _) ?_
  split
  · exact .throw _
  · rintro s _ _ ⟨⟩
    exact ⟨rfl, Nat.le_refl _, rfl⟩

theorem tries_saveFinding (bench : Bench) (input : String) (concern : Concern) :
    Tries (saveFinding bench input concern) 0 := by
  refine tries_get.andThen fun s => .ite (.pure ()) ?_
  refine (tries_count fun _ => rfl).andThen fun _ => ?_
  exact (tries_keep bench _).andThen fun _ => tries_print _

theorem tries_testInput (bench : Bench) (input : String) : Tries (testInput bench input) 0 := by
  refine (tries_examine bench input).andThen fun verdict => .ite (.throw _) ?_
  refine (tries_count fun stats => ?_).andThen fun _ => ?_
  · cases verdict <;> rfl
  · split
    · exact .pure false
    · exact (tries_saveFinding bench input _).andThen fun _ => .pure true

theorem tries_printStats (bench : Bench) : Tries (printStats bench) 0 :=
  (tries_now bench).andThen fun _ => tries_get.andThen fun _ => tries_print _

/-- Each pass tries one input. -/
theorem tries_tested (bench : Bench) (corpus : List String) : Tries (tested bench corpus) 1 := by
  refine Tries.bind (m := 1) (n := 0) (tries_count fun _ => rfl) fun _ => ?_
  refine (tries_random _).andThen fun input => ?_
  refine (tries_testInput bench input).andThen fun notable => tries_get.andThen fun s => ?_
  exact .ite ((tries_printStats bench).andThen fun _ => .pure _) (.pure _)

theorem tries_stop? (bench : Bench) (deadline? : Option Float) (limit : Limit) :
    Tries (stop? bench deadline? limit) 0 := by
  have hinTime : Tries (inTime bench deadline?) 0 := by
    cases deadline? with
    | none => exact .pure true
    | some deadline => exact (tries_now bench).andThen fun _ => .pure _
  have hatLimit : Tries (atLimit limit) 0 := by
    cases limit with
    | none => exact .pure false
    | upTo m => exact tries_get.andThen fun _ => .pure _
    | blank => exact .throw _
  refine hinTime.andThen fun _ => .ite (.pure _) ?_
  exact hatLimit.andThen fun _ => .ite (.pure _) (.pure _)

theorem tries_pass (bench : Bench) (corpus : List String) : Tries (pass bench corpus) 1 := by
  rw [pass_eq]
  exact (tries_tested bench corpus).map _

/-! ## Opening and closing a run -/

theorem deadline?_of_ne_zero {minutes : Float} (h : (minutes == 0) = false) (start : Float) :
    deadline? start (some minutes) = some (start + minutes * 60) := by
  rw [deadline?, Option.bind_some, h]
  rfl

theorem deadline?_of_zero {minutes : Float} (h : (minutes == 0) = true) (start : Float) :
    deadline? start (some minutes) = none := by
  rw [deadline?, Option.bind_some, h]
  rfl

theorem opening_eq (bench : Bench) (duration : Option Float) (s : Session) :
    opening bench duration s =
      .ok (deadline? (bench.clock s.readings) duration) (s.opened bench) := rfl

theorem closing_eq (bench : Bench) {ending : Ending} (h : ending ≠ .interrupted) (s : Session) :
    closing bench ending s = .ok () (s.closed bench) := by
  rw [closing, if_neg h]
  rfl

theorem run_of_passes {duration : Option Float} {ending : Ending} {corpus : List String}
    {s' : Session}
    (h : passes bench (deadline? (bench.clock s.readings) duration) limit n seedCorpus
      (s.opened bench) = .ok (ending, corpus) s') (hne : ending ≠ .interrupted) :
    run bench n duration limit s = .ok ending (s'.closed bench) := by
  have hpasses : passesOrStop bench (deadline? (bench.clock s.readings) duration) limit n
      (s.opened bench) = .ok ending s' := by
    rw [passesOrStop, h]
  rw [run, bind_of_ok (opening_eq bench duration s), bind_of_ok hpasses,
    bind_of_ok (closing_eq bench hne s')]
  rfl

/-! ## Stopping before a pass -/

theorem atLimit_of_reached (h : limit.Reached s.stats) : atLimit limit s = .ok true s := by
  obtain ⟨m, rfl, hm⟩ := h
  exact congrArg (EStateM.Result.ok · s) (decide_eq_true hm)

theorem atLimit_of_not_reached (hlimit : limit ≠ .blank) (h : ¬ limit.Reached s.stats) :
    atLimit limit s = .ok false s := by
  obtain ⟨reached, hreached, hiff⟩ := exists_atLimit hlimit s
  rw [hreached, Bool.eq_false_iff.mpr fun htrue => h (hiff.mp htrue)]

theorem inTime_some (bench : Bench) (deadline : Float) (s : Session) :
    inTime bench (some deadline) s =
      .ok (decide (bench.clock s.readings < deadline)) s.afterReading := rfl

theorem stop?_of_late (limit : Limit) (h : ¬ bench.clock s.readings < deadline) :
    stop? bench (some deadline) limit s = .ok (some .timeUp) s.afterReading := by
  rw [stop?, bind_of_ok (inTime_some bench deadline s), decide_eq_false h]
  rfl

theorem stop?_of_inTime (limit : Limit) (h : bench.clock s.readings < deadline) :
    stop? bench (some deadline) limit s = stop? bench none limit s.afterReading := by
  rw [stop?, bind_of_ok (inTime_some bench deadline s), decide_eq_true h]
  rfl

theorem stop?_of_reached (h : limit.Reached s.stats) :
    stop? bench none limit s = .ok (some .limitReached) s := by
  change (atLimit limit >>= _) s = _
  rw [bind_of_ok (atLimit_of_reached h)]
  rfl

theorem stop?_of_not_reached (hlimit : limit ≠ .blank) (h : ¬ limit.Reached s.stats) :
    stop? bench none limit s = .ok none s := by
  change (atLimit limit >>= _) s = _
  rw [bind_of_ok (atLimit_of_not_reached hlimit h)]
  rfl

theorem exists_stop?_none (bench : Bench) (hlimit : limit ≠ .blank) (s : Session) :
    ∃ stop, stop? bench none limit s = .ok stop s := by
  by_cases hreached : limit.Reached s.stats
  · exact ⟨_, stop?_of_reached hreached⟩
  · exact ⟨_, stop?_of_not_reached hlimit hreached⟩

theorem exists_stop? (bench : Bench) (due? : Option Float) (hlimit : limit ≠ .blank)
    (s : Session) : ∃ stop s', stop? bench due? limit s = .ok stop s' := by
  cases due? with
  | none =>
      obtain ⟨stop, hstop⟩ := exists_stop?_none bench hlimit s
      exact ⟨stop, s, hstop⟩
  | some deadline =>
      by_cases hclock : bench.clock s.readings < deadline
      · obtain ⟨stop, hstop⟩ := exists_stop?_none bench hlimit s.afterReading
        exact ⟨stop, _, (stop?_of_inTime limit hclock).trans hstop⟩
      · exact ⟨_, _, stop?_of_late limit hclock⟩

/-- To see whether it goes on, a run reads the clock once, and changes nothing else. -/
theorem eq_afterReading_of_stop? {s' : Session} {stop : Option Ending}
    (h : stop? bench (some deadline) limit s = .ok stop s') : s' = s.afterReading := by
  by_cases hclock : bench.clock s.readings < deadline
  · rw [stop?_of_inTime limit hclock] at h
    by_cases hlimit : limit = .blank
    · subst hlimit
      cases h
    · obtain ⟨_, hstop⟩ := exists_stop?_none bench hlimit s.afterReading
      rw [hstop] at h
      cases h
      rfl
  · rw [stop?_of_late limit hclock] at h
    cases h
    rfl

/-! ## Before each pass -/

variable {due? : Option Float} {corpus corpus' : List String} {head head' middle : Session}

/-- Where a run that begins in a session stands when so many passes have been made: the corpus and
the session of its next look at the clock. -/
inductive Heads (bench : Bench) (due? : Option Float) (limit : Limit) (s : Session) :
    Nat → List String → Session → Prop
  | start : Heads bench due? limit s 0 seedCorpus s
  | pass {k : Nat} {corpus corpus' : List String} {head middle head' : Session}
    (h : Heads bench due? limit s k corpus head)
    (hstop : stop? bench due? limit head = .ok none middle)
    (hpass : Trial.pass bench corpus middle = .ok corpus' head') :
    Heads bench due? limit s (k + 1) corpus' head'

namespace Heads

/-- The passes of a run are those up to any of its heads, and then those from there. -/
theorem passes_add (h : Heads bench due? limit s k corpus head) (n : Nat) :
    passes bench due? limit (k + n) seedCorpus s = passes bench due? limit n corpus head := by
  induction h generalizing n with
  | start => rw [Nat.zero_add]
  | pass _ hstop hpass ih =>
      rw [Nat.add_assoc, Nat.add_comm 1 n, ih, passes_succ, bind_of_ok hstop]
      exact bind_of_ok hpass

theorem passes_of_stop {ending : Ending} (h : Heads bench due? limit s k corpus head)
    (hstop : stop? bench due? limit head = .ok (some ending) middle) (hn : k < n) :
    passes bench due? limit n seedCorpus s = .ok (ending, corpus) middle := by
  obtain ⟨m, rfl⟩ := Nat.exists_eq_add_of_lt hn
  rw [Nat.add_assoc, h.passes_add, passes_succ, bind_of_ok hstop]
  rfl

theorem passes_unfinished (h : Heads bench due? limit s k corpus head) :
    passes bench due? limit k seedCorpus s = .ok (.unfinished, corpus) head :=
  h.passes_add 0

theorem corpus_ne_nil (h : Heads bench due? limit s k corpus head) : corpus ≠ [] := by
  induction h with
  | start => exact List.cons_ne_nil _ _
  | pass _ _ hpass ih =>
      rw [pass_eq, map_eq_pure_bind] at hpass
      obtain ⟨t, middle, -, ⟨⟩⟩ := exists_of_bind_ok hpass
      exact Tested.extend_ne_nil ih t

theorem later (h : Heads bench due? limit s k corpus head) : Later k s head := by
  induction h with
  | start => exact .refl s
  | pass _ hstop hpass ih =>
      have hread := tries_stop? bench due? limit _ _ _ hstop
      exact ih.trans (hread.trans (tries_pass bench _ _ _ _ hpass))

/-- The clock has been read before each pass. -/
theorem add_le_readings (h : Heads bench (some deadline) limit s k corpus head) :
    s.readings + k ≤ head.readings := by
  induction h with
  | start => exact Nat.le_refl _
  | @pass k corpus corpus' head middle head' _ hstop hpass ih =>
      obtain rfl := eq_afterReading_of_stop? hstop
      have hpassed : head.readings + 1 ≤ head'.readings :=
        (tries_pass bench corpus _ _ _ hpass).readings
      omega

end Heads

theorem exists_pass (hbench : bench.Ordinary) (hcorpus : corpus ≠ []) (s : Session) :
    ∃ corpus' s', pass bench corpus s = .ok corpus' s' := by
  obtain ⟨t, _, s', htested, -⟩ := exists_tested hbench hcorpus s
  rw [pass_eq]
  exact ⟨_, s', map_of_ok htested⟩

/-- Unless somebody stops it or a report cannot be written, a run gets as far as is asked for, or to
a head where it ends. -/
theorem exists_heads (hbench : bench.Ordinary) (hlimit : limit ≠ .blank) (due? : Option Float)
    (s : Session) (n : Nat) :
    ∃ k ≤ n, ∃ corpus head, Heads bench due? limit s k corpus head ∧
      (k = n ∨ ∃ ending middle, stop? bench due? limit head = .ok (some ending) middle) := by
  induction n with
  | zero => exact ⟨0, Nat.le_refl 0, seedCorpus, s, .start, .inl rfl⟩
  | succ n ih =>
      obtain ⟨k, hk, corpus, head, hhead, rfl | hends⟩ := ih
      · obtain ⟨stop, middle, hstop⟩ := exists_stop? bench due? hlimit head
        cases stop with
        | some ending =>
            exact ⟨k, Nat.le_succ k, corpus, head, hhead, .inr ⟨ending, middle, hstop⟩⟩
        | none =>
            obtain ⟨corpus', head', hpass⟩ := exists_pass hbench hhead.corpus_ne_nil middle
            exact ⟨k + 1, Nat.le_refl _, corpus', head', hhead.pass hstop hpass, .inl rfl⟩
      · exact ⟨k, Nat.le_succ_of_le hk, corpus, head, hhead, .inr hends⟩

/-! ## Runs -/

section Runs

variable {minutes : Float}

theorem Heads.run_of_stop {ending : Ending} (hminutes : (minutes == 0) = false)
    (h : Heads bench (some (bench.timeAfter s minutes)) limit (s.opened bench) k corpus head)
    (hstop : stop? bench (some (bench.timeAfter s minutes)) limit head =
      .ok (some ending) head.afterReading)
    (hne : ending ≠ .interrupted) (hn : k < n) :
    run bench n (some minutes) limit s = .ok ending (head.afterReading.closed bench) := by
  have hpasses := h.passes_of_stop hstop hn
  rw [Bench.timeAfter, ← deadline?_of_ne_zero hminutes] at hpasses
  exact run_of_passes hpasses hne

/-- A clock that reaches the deadline for good ends a run. -/
theorem exists_end (hminutes : (minutes == 0) = false) (hlimit : limit ≠ .blank)
    (hbench : bench.Ordinary) {j : Nat}
    (hlate : ∀ r ≥ j, ¬ bench.clock r < bench.timeAfter s minutes) (hn : j < n) :
    ∃ k ≤ j, ∃ corpus head ending,
      Heads bench (some (bench.timeAfter s minutes)) limit (s.opened bench) k corpus head ∧
      run bench n (some minutes) limit s = .ok ending (head.afterReading.closed bench) ∧
      (ending = .timeUp ∨ ending = .limitReached ∧ limit.Reached head.stats) := by
  obtain ⟨k, hk, corpus, head, hhead, hends⟩ :=
    exists_heads hbench hlimit (some (bench.timeAfter s minutes)) (s.opened bench) j
  have hkn : k < n := Nat.lt_of_le_of_lt hk hn
  refine ⟨k, hk, corpus, head, ?_⟩
  by_cases hclock : bench.clock head.readings < bench.timeAfter s minutes
  · by_cases hreached : limit.Reached head.stats
    · have hstop := (stop?_of_inTime limit hclock).trans (stop?_of_reached hreached)
      exact ⟨.limitReached, hhead, hhead.run_of_stop hminutes hstop nofun hkn,
        .inr ⟨rfl, hreached⟩⟩
    · -- The run goes on from here, so this is the last head that there is for sure.
      have hstop := (stop?_of_inTime limit hclock).trans (stop?_of_not_reached hlimit hreached)
      rcases hends with rfl | ⟨ending, middle, hends⟩
      · have hreadings : s.readings + 1 + k ≤ head.readings := hhead.add_le_readings
        exact absurd hclock (hlate head.readings (by omega))
      · rw [hstop] at hends
        cases hends
  · have hstop := stop?_of_late limit hclock
    exact ⟨.timeUp, hhead, hhead.run_of_stop hminutes hstop nofun hkn, .inl rfl⟩

/-- A run of a given duration looks at the clock before each pass.  Once the clock has reached the
deadline there, the run tries nothing more, and prints its statistics; before that, it ends there if
it has reached its limit, and makes a pass if it has not.  So it ends if the clock reaches the
deadline for good, as long as nobody stops it and its reports can be written. -/
theorem run_honours_deadline (hminutes : (minutes == 0) = false) (hlimit : limit ≠ .blank)
    (bench : Bench) (s : Session) :
    (∀ k corpus head,
      Heads bench (some (bench.timeAfter s minutes)) limit (s.opened bench) k corpus head →
      head.startTime = bench.clock s.readings ∧ s.readings + 1 + k ≤ head.readings ∧
      head.stats.iterations = s.stats.iterations + k ∧
      (¬ bench.clock head.readings < bench.timeAfter s minutes → ∀ n > k,
        run bench n (some minutes) limit s = .ok .timeUp (head.afterReading.closed bench)) ∧
      (bench.clock head.readings < bench.timeAfter s minutes → limit.Reached head.stats → ∀ n > k,
        run bench n (some minutes) limit s = .ok .limitReached (head.afterReading.closed bench)) ∧
      (bench.clock head.readings < bench.timeAfter s minutes → ¬ limit.Reached head.stats →
        (∀ n, passes bench (some (bench.timeAfter s minutes)) limit (k + (n + 1)) seedCorpus
            (s.opened bench) =
          (pass bench corpus >>= passes bench (some (bench.timeAfter s minutes)) limit n)
            head.afterReading) ∧
        (bench.Ordinary → ∃ corpus' head', pass bench corpus head.afterReading = .ok corpus' head' ∧
          Heads bench (some (bench.timeAfter s minutes)) limit (s.opened bench) (k + 1) corpus'
            head'))) ∧
    (bench.Ordinary → ∀ j, (∀ r ≥ j, ¬ bench.clock r < bench.timeAfter s minutes) → ∀ n > j,
      ∃ k ≤ j, ∃ corpus head ending,
        Heads bench (some (bench.timeAfter s minutes)) limit (s.opened bench) k corpus head ∧
        run bench n (some minutes) limit s = .ok ending (head.afterReading.closed bench) ∧
        (ending = .timeUp ∨ ending = .limitReached ∧ limit.Reached head.stats)) := by
  refine ⟨fun k corpus head hhead => ?_,
    fun hbench j hlate n hn => exists_end hminutes hlimit hbench hlate hn⟩
  refine ⟨hhead.later.startTime, hhead.add_le_readings, hhead.later.iterations,
    fun hclock n hn => ?late, fun hclock hreached n hn => ?reached,
    fun hclock hreached => ?goesOn⟩
  case late => exact hhead.run_of_stop hminutes (stop?_of_late limit hclock) nofun hn
  case reached =>
    have hstop := (stop?_of_inTime limit hclock).trans (stop?_of_reached hreached)
    exact hhead.run_of_stop hminutes hstop nofun hn
  case goesOn =>
    have hstop := (stop?_of_inTime limit hclock).trans (stop?_of_not_reached hlimit hreached)
    refine ⟨fun n => ?_, fun hbench => ?_⟩
    · rw [hhead.passes_add, passes_succ, bind_of_ok hstop]
    · obtain ⟨corpus', head', hpass⟩ := exists_pass hbench hhead.corpus_ne_nil head.afterReading
      exact ⟨corpus', head', hpass, hhead.pass hstop hpass⟩

/-- The bench of a reader that fails at every other input, with a clock of its own. -/
def failingAt (clock : Nat → Float) : Bench := { failingBench with clock }

theorem ordinary_failingAt (clock : Nat → Float) : (failingAt clock).Ordinary where
  descent := ordinary_failingBench.descent
  grammar := ordinary_failingBench.grammar
  writes := ordinary_failingBench.writes
  directory := ordinary_failingBench.directory
  timestamp := ordinary_failingBench.timestamp

/-- A clock that stands still until the first pass, and then a minute later for good. -/
theorem run_honours_deadline_minute :
    ∃ head : Session,
      run (failingAt fun r => if r ≤ 1 then 0 else 60) 5 (some 1) .none
          { draws := .ofList [700, 2, 900] } =
        .ok .timeUp (head.afterReading.closed (failingAt fun r => if r ≤ 1 then 0 else 60)) ∧
      head.stats.iterations = 1 := by
  let bench := failingAt fun r => if r ≤ 1 then 0 else 60
  let s : Session := { draws := .ofList [700, 2, 900] }
  obtain ⟨hheads, -⟩ := @run_honours_deadline .none 1 (by decide) nofun bench s
  obtain ⟨-, -, -, -, -, hgoesOn⟩ := hheads 0 seedCorpus _ .start
  have hearly : bench.clock (s.opened bench).readings < bench.timeAfter s 1 := by decide
  obtain ⟨-, hpass⟩ := hgoesOn hearly nofun
  obtain ⟨corpus, head, -, hhead⟩ := hpass (ordinary_failingAt _)
  obtain ⟨-, hreadings, hiterations, hlate, -⟩ := hheads 1 corpus head hhead
  have hclock : bench.clock head.readings = 60 := if_neg (by
    have : 2 ≤ head.readings := hreadings
    omega)
  refine ⟨head, hlate ?_ 5 (by decide), hiterations⟩
  rw [hclock]
  decide

theorem run_of_zero (hminutes : (minutes == 0) = true) (bench : Bench) (n : Nat) (limit : Limit)
    (s : Session) : run bench n (some minutes) limit s = run bench n none limit s := by
  have hopening : opening bench (some minutes) s = .ok none (s.opened bench) := by
    rw [opening_eq, deadline?_of_zero hminutes]
  rw [run, run, bind_of_ok hopening, bind_of_ok (opening_eq bench none s)]
  rfl

/-- A run of no minutes goes on for ever, though the clock has always reached its deadline. -/
theorem run_forgets_zero :
    (∀ r, ¬ (failingAt fun _ => 0).clock r <
      (failingAt fun _ => 0).timeAfter { draws := .ofList [] } 0) ∧
    ∀ n, ∃ s', run (failingAt fun _ => 0) n (some 0) .none { draws := .ofList [] } =
      .ok .unfinished s' ∧ s'.stats.iterations = n := by
  have hclock : ¬ (0 : Float) < 0 + 0 * 60 := by decide
  refine ⟨fun _ => hclock, fun n => ?_⟩
  let bench := failingAt fun _ => 0
  let s : Session := { draws := .ofList [] }
  have hgoesOn : ∀ s, stop? bench none .none s = .ok none s := fun _ => rfl
  have hlimit : Limit.none ≠ .blank := nofun
  obtain ⟨k, -, corpus, head, hhead, rfl | ⟨ending, middle, hends⟩⟩ :=
    exists_heads (ordinary_failingAt _) hlimit none (s.opened bench) n
  · refine ⟨head.closed bench, ?_, ?_⟩
    · rw [run_of_zero (by decide)]
      exact run_of_passes hhead.passes_unfinished nofun
    · exact hhead.later.iterations.trans (Nat.zero_add k)
  · rw [hgoesOn] at hends
    cases hends

end Runs

end Trial

end ClassDiagram.Fuzz
