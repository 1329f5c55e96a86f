import ClassDiagram.Proofs.Fuzz.Books

/-!
# The books of whole runs

Between two tests a session does things that its books do not show: it draws, reads the clock and
prints.  So what one test does to the books, passes do one after the other, whatever the time of day
is when each of them begins.
-/

namespace ClassDiagram.Fuzz

namespace Trial

variable {α β : Type} {P : α → Prop} {Q : β → Prop} {bench : Bench}

/-- The step gives a value with the property and changes nothing that the books show. -/
def KeepsBooks (step : Trial α) (P : α → Prop) : Prop :=
  ∀ s, ∃ a s', step s = .ok a s' ∧ s'.stats = s.stats ∧ s'.findings = s.findings ∧ P a

namespace KeepsBooks

theorem pure {a : α} (h : P a) : KeepsBooks (Pure.pure a) P := fun s => ⟨a, s, rfl, rfl, rfl, h⟩

theorem bind {step : Trial α} {next : α → Trial β} (h : KeepsBooks step P)
    (hnext : ∀ a, P a → KeepsBooks (next a) Q) : KeepsBooks (step >>= next) Q := by
  intro s
  obtain ⟨a, middle, ha, hstats, hfindings, hP⟩ := h s
  obtain ⟨b, s', hb, hstats', hfindings', hQ⟩ := hnext a hP middle
  exact ⟨b, s', (bind_of_ok ha).trans hb, hstats'.trans hstats, hfindings'.trans hfindings, hQ⟩

theorem ite {c : Prop} [Decidable c] {yes no : Trial α} (hyes : KeepsBooks yes P)
    (hno : KeepsBooks no P) : KeepsBooks (if c then yes else no) P := by
  split
  · exact hyes
  · exact hno

end KeepsBooks

theorem keepsBooks_get : KeepsBooks get fun _ => True := fun s => ⟨s, s, rfl, rfl, rfl, trivial⟩

theorem keepsBooks_print (line : String) : KeepsBooks (print line) fun _ => True :=
  fun _ => ⟨_, _, rfl, rfl, rfl, trivial⟩

theorem keepsBooks_now (bench : Bench) : KeepsBooks (now bench) fun _ => True :=
  fun _ => ⟨_, _, rfl, rfl, rfl, trivial⟩

theorem keepsBooks_random {g : Gen α} (h : g.Yields P) : KeepsBooks (random g) P := by
  intro s
  obtain ⟨a, draws, ha, hP⟩ := h s.draws
  refine ⟨a, { s with draws }, ?_, rfl, rfl, hP⟩
  rw [random, ha]

theorem keepsBooks_printStats (bench : Bench) : KeepsBooks (printStats bench) fun _ => True :=
  (keepsBooks_now bench).bind fun _ _ => keepsBooks_get.bind fun _ _ => keepsBooks_print _

theorem keepsBooks_opening (bench : Bench) (duration : Option Float) :
    KeepsBooks (opening bench duration) fun deadline =>
      ∃ start, deadline = deadline? start duration := by
  have hstart : KeepsBooks (startClock bench) fun _ => True :=
    (keepsBooks_now bench).bind fun _ _ s => ⟨_, _, rfl, rfl, rfl, trivial⟩
  refine hstart.bind fun start _ => (keepsBooks_print _).bind fun _ _ => ?_
  exact (keepsBooks_print _).bind fun _ _ => .pure ⟨start, rfl⟩

theorem keepsBooks_closing (bench : Bench) (ending : Ending) :
    KeepsBooks (closing bench ending) fun _ => True := by
  have hrest : KeepsBooks (do
      print ("\n" ++ "".pushn '=' 60)
      print "Final Statistics:"
      printStats bench) fun _ => True :=
    (keepsBooks_print _).bind fun _ _ => (keepsBooks_print _).bind fun _ _ =>
      keepsBooks_printStats bench
  exact .ite ((keepsBooks_print _).bind fun _ _ => hrest) hrest

theorem keepsBooks_inTime (bench : Bench) (deadline : Option Float) :
    KeepsBooks (inTime bench deadline) fun inTime => inTime = false → deadline ≠ none := by
  cases deadline with
  | none => exact .pure nofun
  | some deadline => exact (keepsBooks_now bench).bind fun _ _ => .pure fun _ => nofun

/-- What is left to do in a pass when its input has been tried. -/
theorem keepsBooks_reminder (bench : Bench) (t : Tested) :
    KeepsBooks (do
      if (← get).stats.iterations % 1000 = 0 then printStats bench
      return t) (· = t) :=
  keepsBooks_get.bind fun _ _ =>
    .ite ((keepsBooks_printStats bench).bind fun _ _ => .pure rfl) (.pure rfl)

/-- Every pass tries an input, and takes down the verdict on it. -/
theorem exists_tested (hbench : bench.Ordinary) {corpus : List String} (hcorpus : corpus ≠ [])
    (s : Session) :
    ∃ t verdict s', tested bench corpus s = .ok t s' ∧ verdict ≠ .interruption ∧
      t.notable = verdict.concern?.isSome ∧ Recorded bench t.input verdict
        { s with stats := { s.stats with iterations := s.stats.iterations + 1 } } s' := by
  let counted : Session :=
    { s with stats := { s.stats with iterations := s.stats.iterations + 1 } }
  have hcount : count (fun stats => { stats with iterations := stats.iterations + 1 }) s =
      .ok () counted := rfl
  obtain ⟨input, s₁, hinput, hstats, hfindings, -⟩ :=
    keepsBooks_random (Gen.yields_nextInput hcorpus) counted
  obtain ⟨s₂, htest, hrecorded⟩ := exists_testInput hbench input s₁
  have hverdict := hbench.verdict_ne_interruption s₁ input
  generalize bench.verdict s₁ input = verdict at htest hrecorded hverdict
  let t : Tested := ⟨input, verdict.concern?.isSome⟩
  obtain ⟨_, s', hrest, hstats', hfindings', rfl⟩ := keepsBooks_reminder bench t s₂
  refine ⟨t, verdict, s', ?_, hverdict, rfl,
    (hrecorded.congr hstats hfindings).congr_right hstats' hfindings'⟩
  rw [tested, bind_of_ok hcount, bind_of_ok hinput, bind_of_ok htest]
  exact hrest

end Trial

namespace Books

variable {α : Type} {P : α → Prop} {log : List Tested} {s : Session}

theorem of_keepsBooks (h : Books log s) {step : Trial α} (hstep : Trial.KeepsBooks step P) :
    ∃ a s', step s = .ok a s' ∧ P a ∧ Books log s' := by
  obtain ⟨a, s', ha, hstats, hfindings, hP⟩ := hstep s
  exact ⟨a, s', ha, hP, h.congr hstats hfindings⟩

/-- Every pass tries an input, and enters it in the books. -/
theorem exists_tested (h : Books log s) {bench : Bench} (hbench : bench.Ordinary)
    {corpus : List String} (hcorpus : corpus ≠ []) :
    ∃ t s', Trial.tested bench corpus s = .ok t s' ∧ Books (log ++ [t]) s' := by
  obtain ⟨t, verdict, s', htested, hverdict, hnotable, hrecorded⟩ :=
    Trial.exists_tested hbench hcorpus s
  exact ⟨t, s', htested, h.step hverdict hnotable hrecorded⟩

end Books

namespace Trial

variable {bench : Bench} {benches : Nat → Bench} {deadline : Option Float} {limit : Limit}

/-- Whether the passes come to an end before the next one, and which. -/
def stop? (bench : Bench) (deadline : Option Float) (limit : Limit) : Trial (Option Ending) := do
  if !(← inTime bench deadline) then return some .timeUp
  if ← atLimit limit then return some .limitReached
  return none

theorem passes_succ (bench : Bench) (deadline : Option Float) (limit : Limit) (n : Nat)
    (corpus : List String) :
    passes bench deadline limit (n + 1) corpus = (do
      match ← stop? bench deadline limit with
      | some ending => return (ending, corpus)
      | none => passes bench deadline limit n (← pass bench corpus)) := by
  simp only [passes, stop?, bind_assoc]
  refine bind_congr fun inTime => ?_
  cases inTime with
  | false => simp
  | true =>
      simp only [Bool.not_true, Bool.false_eq_true, if_false, bind_assoc]
      refine bind_congr fun atLimit => ?_
      cases atLimit <;> simp

/-- Makes passes until something ends them, at most so many, each with a bench of its own. -/
def passesOn (deadline : Option Float) (limit : Limit) :
    (passes : Nat) → (Nat → Bench) → List String → Trial (Ending × List String)
  | 0, _, corpus => return (.unfinished, corpus)
  | n + 1, benches, corpus => do
    match ← stop? (benches 0) deadline limit with
    | some ending => return (ending, corpus)
    | none => passesOn deadline limit n (fun k => benches (k + 1)) (← pass (benches 0) corpus)

/-- Makes the same passes, and gives what they tried. -/
def logged (deadline : Option Float) (limit : Limit) :
    (passes : Nat) → (Nat → Bench) → List String → Trial (Ending × List Tested)
  | 0, _, _ => return (.unfinished, [])
  | n + 1, benches, corpus => do
    match ← stop? (benches 0) deadline limit with
    | some ending => return (ending, [])
    | none =>
      let t ← tested (benches 0) corpus
      let (ending, log) ← logged deadline limit n (fun k => benches (k + 1)) (t.extend corpus)
      return (ending, t :: log)

theorem passesOn_eq (deadline : Option Float) (limit : Limit) (n : Nat) (benches : Nat → Bench)
    (corpus : List String) :
    passesOn deadline limit n benches corpus =
      (fun (ending, log) => (ending, log.foldl Tested.extend corpus)) <$>
        logged deadline limit n benches corpus := by
  induction n generalizing benches corpus with
  | zero => rfl
  | succ n ih =>
      rw [passesOn, logged, map_bind]
      refine bind_congr fun stop => ?_
      cases stop <;> simp [pass_eq, ih]

theorem passesOn_const (deadline : Option Float) (limit : Limit) (n : Nat) (bench : Bench)
    (corpus : List String) :
    passesOn deadline limit n (fun _ => bench) corpus =
      passes bench deadline limit n corpus := by
  induction n generalizing corpus with
  | zero => rfl
  | succ n ih => simp only [passesOn, passes_succ, ih]

theorem exists_atLimit (h : limit ≠ .blank) (s : Session) :
    ∃ reached, atLimit limit s = .ok reached s ∧
      (reached = true ↔ ∃ m, limit = .upTo m ∧ m ≤ s.stats.iterations) := by
  cases limit with
  | blank => exact absurd rfl h
  | none => exact ⟨false, rfl, by simp⟩
  | upTo m => exact ⟨_, rfl, by simp⟩

end Trial

/-- Why a run may come to such an end, having tried some inputs of which so many are new. -/
def Ending.Fits (deadline : Option Float) (limit : Limit) (passes : Nat) (log new : List Tested) :
    Ending → Prop
  | .timeUp => deadline ≠ none
  | .limitReached => ∃ m, limit = .upTo m ∧ m ≤ log.length
  | .interrupted => False
  | .unfinished => new.length = passes

theorem Ending.Fits.of_upTo {ending : Ending} {m : Int} {passes : Nat} {log : List Tested}
    (h : ending.Fits none (.upTo m) passes log log) (hlog : log.length ≤ m.toNat)
    (hm : m.toNat < passes) : ending = .limitReached ∧ log.length = m.toNat := by
  cases ending with
  | timeUp => exact absurd rfl h
  | interrupted => exact h.elim
  | unfinished =>
      have hall : log.length = passes := h
      omega
  | limitReached =>
      obtain ⟨m', hm', hge⟩ := h
      obtain rfl : m = m' := Limit.upTo.inj hm'
      exact ⟨rfl, by omega⟩

namespace Books

variable {log : List Tested} {s : Session} {benches : Nat → Bench} {limit : Limit}

theorem exists_stop? (h : Books log s) (hlimit : limit ≠ .blank) (bench : Bench)
    (deadline : Option Float) :
    ∃ stop s', Trial.stop? bench deadline limit s = .ok stop s' ∧ Books log s' ∧
      (∀ ending ∈ stop, ∀ passes, ending.Fits deadline limit passes log []) ∧
      (stop = none → ∀ m, limit = .upTo m → (log.length : Int) < m) := by
  obtain ⟨inTime, s₁, hinTime, hdeadline, h₁⟩ :=
    h.of_keepsBooks (Trial.keepsBooks_inTime bench deadline)
  rw [Trial.stop?, bind_of_ok hinTime]
  cases inTime with
  | false =>
      refine ⟨some .timeUp, s₁, rfl, h₁, ?_, nofun⟩
      rintro _ ⟨⟩ passes
      exact hdeadline rfl
  | true =>
      obtain ⟨reached, hreached, hiff⟩ := Trial.exists_atLimit hlimit s₁
      rw [if_neg (by decide), bind_of_ok hreached]
      rw [h₁.iterations] at hiff
      cases reached with
      | true =>
          refine ⟨some .limitReached, s₁, rfl, h₁, ?_, nofun⟩
          rintro _ ⟨⟩ passes
          exact hiff.mp rfl
      | false =>
          refine ⟨none, s₁, rfl, h₁, nofun, fun _ m hm => ?_⟩
          exact Int.not_le.mp fun hle => nomatch hiff.mpr ⟨m, hm, hle⟩

/-- A run can be made, goes no further than its limit, and enters in the books what it tries. -/
theorem exists_logged (h : Books log s) (hbenches : ∀ k, (benches k).Ordinary)
    (hlimit : limit ≠ .blank) (deadline : Option Float) (n : Nat) {corpus : List String}
    (hcorpus : corpus ≠ []) :
    ∃ ending new s', Trial.logged deadline limit n benches corpus s = .ok (ending, new) s' ∧
      Books (log ++ new) s' ∧ ending.Fits deadline limit n (log ++ new) new ∧
      ∀ m, limit = .upTo m → new.length ≤ m.toNat - log.length := by
  -- The log so far may be any, as the rest of a run finds that of its first test.
  induction n generalizing log s benches corpus with
  | zero =>
      exact ⟨.unfinished, [], s, rfl, by rwa [List.append_nil], rfl, fun _ _ => Nat.zero_le _⟩
  | succ n ih =>
      obtain ⟨stop, s₁, hstop, h₁, hend, hgoes⟩ := h.exists_stop? hlimit (benches 0) deadline
      rw [Trial.logged, bind_of_ok hstop]
      cases stop with
      | some ending =>
          refine ⟨ending, [], s₁, rfl, ?_, ?_, fun _ _ => Nat.zero_le _⟩
          · rwa [List.append_nil]
          · rw [List.append_nil]
            exact hend ending rfl _
      | none =>
          obtain ⟨t, s₂, htested, h₂⟩ := h₁.exists_tested (hbenches 0) hcorpus
          obtain ⟨ending, new, s', hlogged, h', hfits, hlength⟩ :=
            ih h₂ (fun k => hbenches (k + 1)) (Tested.extend_ne_nil hcorpus t)
          rw [List.append_assoc] at h' hfits
          refine ⟨ending, t :: new, s', ?_, h', ?_, fun m hm => ?_⟩
          · exact (bind_of_ok htested).trans (bind_of_ok hlogged)
          · cases ending with
            | unfinished => exact congrArg (· + 1) hfits
            | _ => exact hfits
          · have hroom := hgoes rfl m hm
            have hrest := hlength m hm
            simp only [List.length_append, List.length_cons, List.length_nil] at hrest ⊢
            omega

end Books

namespace Trial

variable {benches : Nat → Bench} {limit : Limit} {s : Session}

theorem exists_logged_of_fresh (hbenches : ∀ k, (benches k).Ordinary) (hlimit : limit ≠ .blank)
    (hstats : s.stats = {}) (hfindings : s.findings = []) (deadline : Option Float) (n : Nat) :
    ∃ ending log s', logged deadline limit n benches seedCorpus s = .ok (ending, log) s' ∧
      Books log s' ∧ ∀ m : Int, deadline = none → limit = .upTo m → m.toNat < n →
        ending = .limitReached ∧ log.length = m.toNat := by
  have hseeds : seedCorpus ≠ [] := List.cons_ne_nil _ _
  obtain ⟨ending, log, s', hlogged, hbooks, hfits, hlength⟩ :=
    (Books.fresh hstats hfindings).exists_logged hbenches hlimit deadline n hseeds
  refine ⟨ending, log, s', hlogged, hbooks, ?_⟩
  rintro m rfl rfl hm
  exact hfits.of_upTo (hlength m rfl) hm

/-- Trying inputs of all kinds, a session that nobody stops and whose reports can be written keeps
its books: test by test, after any number of passes, and at the end of a run. -/
theorem sessions_balance (hbenches : ∀ k, (benches k).Ordinary) (hlimit : limit ≠ .blank)
    (hstats : s.stats = {}) (hfindings : s.findings = []) :
    (∀ k input (t : Session), ∃ counter t',
      testInput (benches k) input t = .ok counter.notable t' ∧
      ((benches k).verdict t input).counter? = some counter ∧
      (∀ c : Counter, c.value t'.stats = c.value t.stats + if c = counter then 1 else 0) ∧
      t'.stats.iterations = t.stats.iterations ∧
      if counter.notable ∧ Finding.digestOf input ∉ t.stats.uniqueFindings then
        t'.stats.uniqueFindings = t.stats.uniqueFindings ++ [Finding.digestOf input] ∧
        ∃ concern ∈ ((benches k).verdict t input).concern?,
          t'.findings = t.findings ++ [.about (benches k) input concern]
      else t'.stats.uniqueFindings = t.stats.uniqueFindings ∧ t'.findings = t.findings) ∧
    (∀ deadline n, ∃ ending log s',
      logged deadline limit n benches seedCorpus s = .ok (ending, log) s' ∧
      passesOn deadline limit n benches seedCorpus s =
        .ok (ending, (seedCorpus ++ Tested.notables log).take maxCorpus) s' ∧
      s'.Balance log ∧
      ∀ m : Int, deadline = none → limit = .upTo m → m.toNat < n →
        ending = .limitReached ∧ log.length = m.toNat) ∧
    ∀ k duration n, ∃ deadline s₀ ending log s₁ s',
      opening (benches k) duration s = .ok deadline s₀ ∧
      logged deadline limit n (fun _ => benches k) seedCorpus s₀ = .ok (ending, log) s₁ ∧
      run (benches k) n duration limit s = .ok ending s' ∧
      s'.Balance log ∧
      (duration = none → deadline = none) ∧
      ∀ m : Int, deadline = none → limit = .upTo m → m.toNat < n →
        ending = .limitReached ∧ log.length = m.toNat := by
  refine ⟨fun k => exists_testInput_raising (hbenches k), fun deadline n => ?passes,
    fun k duration n => ?run⟩
  case passes =>
    obtain ⟨ending, log, s', hlogged, hbooks, hend⟩ :=
      exists_logged_of_fresh hbenches hlimit hstats hfindings deadline n
    refine ⟨ending, log, s', hlogged, ?_, hbooks.balance, hend⟩
    have hseeds : seedCorpus.length ≤ maxCorpus := by decide
    rw [passesOn_eq, map_of_ok hlogged, ← Tested.foldl_extend hseeds]
  case run =>
    obtain ⟨deadline, s₀, hopening, hstats₀, hfindings₀, start, hdeadline⟩ :=
      keepsBooks_opening (benches k) duration s
    obtain ⟨ending, log, s₁, hlogged, hbooks, hend⟩ :=
      exists_logged_of_fresh (fun _ => hbenches k) hlimit (hstats₀.trans hstats)
        (hfindings₀.trans hfindings) deadline n
    have hpasses : passesOrStop (benches k) deadline limit n s₀ = .ok ending s₁ := by
      rw [passesOrStop, ← passesOn_const, passesOn_eq, map_of_ok hlogged]
    obtain ⟨_, s', hclosing, -, hbooks'⟩ :=
      hbooks.of_keepsBooks (keepsBooks_closing (benches k) ending)
    refine ⟨deadline, s₀, ending, log, s₁, s', hopening, hlogged, ?_, hbooks'.balance, ?_, hend⟩
    · rw [run, bind_of_ok hopening, bind_of_ok hpasses, bind_of_ok hclosing]
      rfl
    · rintro rfl
      exact hdeadline

/-- A bench whose first reader fails at every other input. -/
def failingBench : Bench where
  descent n _ := if n % 2 = 0 then .crashed "RecursionError" "too deep" else .refused
  grammar _ _ := .rejected "UnexpectedCharacters" "no match"
  clock := Float.ofNat
  timestamp := "20240102_030405"
  directory := "findings"
  refusal? _ := none

theorem ordinary_failingBench : failingBench.Ordinary := by
  refine ⟨fun n text => ?_, nofun, fun _ => rfl, by decide, by decide⟩
  change (if n % 2 = 0 then _ else _) ≠ Attempt.interrupted
  split <;> nofun

theorem sessions_balance_failing :
    ∃ log s', passesOn none (.upTo 3) 5 (fun _ => failingBench) seedCorpus
        { draws := .ofList [700, 2, 900] } =
        .ok (.limitReached, (seedCorpus ++ Tested.notables log).take maxCorpus) s' ∧
      s'.Balance log ∧ log.length = 3 := by
  obtain ⟨-, hpasses, -⟩ := @sessions_balance (fun _ => failingBench) (.upTo 3)
    { draws := .ofList [700, 2, 900] } (fun _ => ordinary_failingBench) nofun rfl rfl
  obtain ⟨ending, log, s', -, hresult, hbalance, hend⟩ := hpasses none 5
  obtain ⟨rfl, hlength⟩ := hend 3 rfl rfl (by decide)
  exact ⟨log, s', hresult, hbalance, hlength⟩

end Trial

end ClassDiagram.Fuzz
