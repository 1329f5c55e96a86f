import ClassDiagram.Proofs.Fuzz.FileNames
import ClassDiagram.Proofs.Sequencing

/-!
# What a test does to a session

Trying an input raises one of five counters, and tells whether the input showed something: a crash,
a timeout or a mismatch.  If it did and there is no report with its digest, a report is written and
the digest is taken down; else no report is.  Nothing else that a session keeps of its inputs
changes.
-/

namespace ClassDiagram.Fuzz

/-- Nobody stops the session, and every report can be written. -/
structure Bench.Ordinary (bench : Bench) : Prop where
  descent : ∀ n text, bench.descent n text ≠ .interrupted
  grammar : ∀ n text, bench.grammar n text ≠ .interrupted
  writes : ∀ path, bench.refusal? path = none
  directory : '\x00' ∉ bench.directory.toList
  timestamp : '\x00' ∉ bench.timestamp.toList

/-- What the two readers make of an input, the second one being asked only if the first reads it. -/
def Bench.verdict (bench : Bench) (s : Session) (input : String) : Verdict :=
  match bench.descent s.descentCalls input with
  | .parsed d => .ofSecond d (bench.grammar s.grammarCalls input)
  | attempt => .ofFailure attempt

/-- The counters of a session. -/
inductive Counter where
  | parseOk
  | parseError
  | crashes
  | timeouts
  | mismatches
  deriving DecidableEq, Repr

namespace Counter

def value (stats : Stats) : Counter → Nat
  | parseOk => stats.parseOk
  | parseError => stats.parseError
  | crashes => stats.crashes
  | timeouts => stats.timeouts
  | mismatches => stats.mismatches

/-- Whether what is counted is worth a report. -/
def notable : Counter → Bool
  | parseOk | parseError => false
  | crashes | timeouts | mismatches => true

variable {stats stats' : Stats} {counter : Counter}

theorem notable_of_raised
    (h : ∀ c : Counter, c.value stats' = c.value stats + if c = counter then 1 else 0) :
    stats'.crashes + stats'.timeouts + stats'.mismatches =
      stats.crashes + stats.timeouts + stats.mismatches + if counter.notable then 1 else 0 := by
  have hcrashes : stats'.crashes = stats.crashes + _ := h .crashes
  have htimeouts : stats'.timeouts = stats.timeouts + _ := h .timeouts
  have hmismatches : stats'.mismatches = stats.mismatches + _ := h .mismatches
  rw [hcrashes, htimeouts, hmismatches]
  cases counter <;> simp [notable] <;> omega

theorem sum_of_raised
    (h : ∀ c : Counter, c.value stats' = c.value stats + if c = counter then 1 else 0) :
    stats'.parseOk + stats'.parseError + stats'.crashes + stats'.timeouts + stats'.mismatches =
      stats.parseOk + stats.parseError + stats.crashes + stats.timeouts + stats.mismatches + 1 := by
  have hparseOk : stats'.parseOk = stats.parseOk + _ := h .parseOk
  have hparseError : stats'.parseError = stats.parseError + _ := h .parseError
  have hnotable := notable_of_raised h
  cases counter <;>
    simp only [notable, reduceCtorEq, if_true, if_false, Bool.false_eq_true]
      at hparseOk hparseError hnotable <;> omega

end Counter

/-- The counter that a verdict raises; a session that is stopped counts nothing. -/
def Verdict.counter? : Verdict → Option Counter
  | agreement => some .parseOk
  | refusal => some .parseError
  | timeout _ => some .timeouts
  | mismatch _ => some .mismatches
  | crash _ _ => some .crashes
  | interruption => none

/-- A verdict on an input has been taken down: from the first session the second one comes about. -/
structure Recorded (bench : Bench) (input : String) (verdict : Verdict) (s s' : Session) :
    Prop where
  stats : s'.stats = { s.stats.record verdict with uniqueFindings := s'.stats.uniqueFindings }
  saved : ∀ concern ∈ verdict.concern?, Finding.digestOf input ∉ s.stats.uniqueFindings →
    s'.stats.uniqueFindings = s.stats.uniqueFindings ++ [Finding.digestOf input] ∧
    s'.findings = s.findings ++ [.about bench input concern]
  unsaved : (∀ concern ∈ verdict.concern?, Finding.digestOf input ∈ s.stats.uniqueFindings) →
    s'.stats.uniqueFindings = s.stats.uniqueFindings ∧ s'.findings = s.findings

namespace Bench.Ordinary

variable {bench : Bench}

theorem verdict_ne_interruption (h : bench.Ordinary) (s : Session) (input : String) :
    bench.verdict s input ≠ .interruption := by
  have hfailure : ∀ attempt : Attempt, attempt ≠ .interrupted →
      Verdict.ofFailure attempt ≠ .interruption := by
    rintro (_ | _ | _ | _ | _ | _) hne <;> simp_all [Verdict.ofFailure]
  have hsecond : ∀ d attempt, attempt ≠ .interrupted →
      Verdict.ofSecond d attempt ≠ .interruption := by
    intro d attempt hne
    unfold Verdict.ofSecond
    split
    · split <;> nofun
    · nofun
    · exact hfailure attempt hne
  unfold verdict
  split
  · exact hsecond _ _ (h.grammar _ _)
  · exact hfailure _ (h.descent _ _)

end Bench.Ordinary

theorem Stats.uniqueFindings_record (stats : Stats) (verdict : Verdict) :
    (stats.record verdict).uniqueFindings = stats.uniqueFindings := by
  cases verdict <;> rfl

theorem Verdict.exists_counter {verdict : Verdict} (h : verdict ≠ .interruption) :
    ∃ counter, verdict.counter? = some counter ∧ verdict.concern?.isSome = counter.notable ∧
      ∀ stats : Stats, ∀ c : Counter,
        c.value (stats.record verdict) = c.value stats + if c = counter then 1 else 0 := by
  cases verdict with
  | interruption => exact absurd rfl h
  | _ => exact ⟨_, rfl, rfl, fun stats c => by cases c <;> rfl⟩

namespace Recorded

variable {bench : Bench} {input : String} {verdict : Verdict} {s s' : Session}

theorem exists_counter (h : Recorded bench input verdict s s')
    (hverdict : verdict ≠ .interruption) :
    ∃ counter, verdict.counter? = some counter ∧ verdict.concern?.isSome = counter.notable ∧
      (∀ c : Counter, c.value s'.stats = c.value s.stats + if c = counter then 1 else 0) ∧
      s'.stats.iterations = s.stats.iterations := by
  obtain ⟨counter, hcounter, hnotable, hvalue⟩ := verdict.exists_counter hverdict
  have hunique : ∀ (stats : Stats) uniqueFindings (c : Counter),
      c.value { stats with uniqueFindings } = c.value stats := by
    intro stats uniqueFindings c
    cases c <;> rfl
  refine ⟨counter, hcounter, hnotable, fun c => ?_, ?_⟩
  · rw [h.stats, hunique, hvalue]
  · rw [h.stats]
    cases verdict <;> rfl

theorem congr {t : Session} (h : Recorded bench input verdict s s') (hstats : s.stats = t.stats)
    (hfindings : s.findings = t.findings) : Recorded bench input verdict t s' where
  stats := hstats ▸ h.stats
  saved := hstats ▸ hfindings ▸ h.saved
  unsaved := hstats ▸ hfindings ▸ h.unsaved

theorem congr_right {t : Session} (h : Recorded bench input verdict s s')
    (hstats : t.stats = s'.stats) (hfindings : t.findings = s'.findings) :
    Recorded bench input verdict s t where
  stats := hstats ▸ h.stats
  saved := hstats ▸ hfindings ▸ h.saved
  unsaved := hstats ▸ hfindings ▸ h.unsaved

theorem saved_or_unsaved (h : Recorded bench input verdict s s') :
    (verdict.concern?.isSome = true ∧ Finding.digestOf input ∉ s.stats.uniqueFindings ∧
      s'.stats.uniqueFindings = s.stats.uniqueFindings ++ [Finding.digestOf input] ∧
      ∃ concern ∈ verdict.concern?,
        s'.findings = s.findings ++ [.about bench input concern]) ∨
    (verdict.concern?.isSome = true → Finding.digestOf input ∈ s.stats.uniqueFindings) ∧
      s'.stats.uniqueFindings = s.stats.uniqueFindings ∧ s'.findings = s.findings := by
  by_cases hmem : Finding.digestOf input ∈ s.stats.uniqueFindings
  · exact .inr ⟨fun _ => hmem, h.unsaved fun _ _ => hmem⟩
  · cases hconcern : verdict.concern? with
    | none => exact .inr ⟨nofun, h.unsaved (by simp [hconcern])⟩
    | some concern =>
        obtain ⟨hunique, hfindings⟩ := h.saved concern hconcern hmem
        exact .inl ⟨rfl, hmem, hunique, concern, rfl, hfindings⟩

end Recorded

namespace Trial

variable {bench : Bench}

theorem exists_examine (bench : Bench) (input : String) (s : Session) :
    ∃ s', examine bench input s = .ok (bench.verdict s input) s' ∧ s'.stats = s.stats ∧
      s'.findings = s.findings := by
  have hfirst : tryDescent bench input s = .ok (bench.descent s.descentCalls input)
      { s with descentCalls := s.descentCalls + 1 } := rfl
  rw [examine, bind_of_ok hfirst, Bench.verdict]
  cases bench.descent s.descentCalls input <;> exact ⟨_, rfl, rfl, rfl⟩

theorem keep_of_ordinary (h : bench.Ordinary) {verdict : Verdict} {concern : Concern}
    (hconcern : concern ∈ verdict.concern?) (input : String) (s : Session) :
    keep bench (.about bench input concern) s =
      .ok () { s with findings := s.findings ++ [.about bench input concern] } := by
  have hnull : '\x00' ∉ (Finding.pathOf bench input concern).toList :=
    Finding.null_not_mem_pathOf h.directory h.timestamp hconcern
  have hpath : ¬ (Finding.about bench input concern).path.toList.contains '\x00' = true := by
    simpa [Finding.about] using hnull
  rw [keep, if_neg hpath, h.writes]
  rfl

theorem saveFinding_of_mem {input : String} {s : Session}
    (h : Finding.digestOf input ∈ s.stats.uniqueFindings) (concern : Concern) :
    saveFinding bench input concern s = .ok () s := by
  have hget : (get : Trial Session) s = .ok s s := rfl
  rw [saveFinding, bind_of_ok hget, if_pos h]
  rfl

theorem exists_saveFinding_of_not_mem (h : bench.Ordinary) {verdict : Verdict} {concern : Concern}
    (hconcern : concern ∈ verdict.concern?) {input : String} {s : Session}
    (hnew : Finding.digestOf input ∉ s.stats.uniqueFindings) :
    ∃ s', saveFinding bench input concern s = .ok () s' ∧
      s'.stats = { s.stats with
        uniqueFindings := s.stats.uniqueFindings ++ [Finding.digestOf input] } ∧
      s'.findings = s.findings ++ [.about bench input concern] := by
  have hget : (get : Trial Session) s = .ok s s := rfl
  have hcount : count (fun stats => { stats with
      uniqueFindings := stats.uniqueFindings ++ [Finding.digestOf input] }) s =
      .ok () { s with stats := { s.stats with
        uniqueFindings := s.stats.uniqueFindings ++ [Finding.digestOf input] } } := rfl
  rw [saveFinding, bind_of_ok hget, if_neg hnew, bind_of_ok hcount,
    bind_of_ok (keep_of_ordinary h hconcern input _)]
  exact ⟨_, rfl, rfl, rfl⟩

theorem exists_saveFinding (h : bench.Ordinary) {verdict : Verdict} {concern : Concern}
    (hconcern : verdict.concern? = some concern) {input : String} {s s₁ : Session}
    (hstats : s₁.stats = s.stats.record verdict) (hfindings : s₁.findings = s.findings) :
    ∃ s', saveFinding bench input concern s₁ = .ok () s' ∧
      Recorded bench input verdict s s' := by
  have hunique : s₁.stats.uniqueFindings = s.stats.uniqueFindings := by
    rw [hstats, Stats.uniqueFindings_record]
  by_cases hmem : Finding.digestOf input ∈ s.stats.uniqueFindings
  · refine ⟨s₁, saveFinding_of_mem (hunique ▸ hmem) concern, ?_⟩
    exact ⟨by rw [hstats], fun _ _ hnew => absurd hmem hnew, fun _ => ⟨hunique, hfindings⟩⟩
  · obtain ⟨s', hsave, hstats', hfindings'⟩ :=
      exists_saveFinding_of_not_mem h hconcern (hunique ▸ hmem)
    refine ⟨s', hsave, by rw [hstats', hstats], fun c hc _ => ?_, fun hold => ?_⟩
    · obtain rfl : concern = c := Option.some.inj (hconcern ▸ hc)
      exact ⟨by rw [hstats', hunique], by rw [hfindings', hfindings]⟩
    · exact absurd (hold concern hconcern) hmem

/-- Any input can be tried, and the verdict on it is taken down. -/
theorem exists_testInput (h : bench.Ordinary) (input : String) (s : Session) :
    ∃ s', testInput bench input s = .ok (bench.verdict s input).concern?.isSome s' ∧
      Recorded bench input (bench.verdict s input) s s' := by
  obtain ⟨s₁, hexamine, hstats, hfindings⟩ := exists_examine bench input s
  -- What follows depends on the verdict, and not on how the readers came to it.
  have hne := h.verdict_ne_interruption s input
  generalize bench.verdict s input = verdict at hexamine hne ⊢
  let s₂ : Session := { s₁ with stats := s₁.stats.record verdict }
  have hcount : count (Stats.record · verdict) s₁ = .ok () s₂ := rfl
  have hstats₂ : s₂.stats = s.stats.record verdict := congrArg (Stats.record · verdict) hstats
  rw [testInput, bind_of_ok hexamine, if_neg hne]
  beta_reduce
  rw [bind_of_ok hcount]
  cases hconcern : verdict.concern? with
  | none =>
      refine ⟨s₂, rfl, by rw [hstats₂], fun c hc => ?_, fun _ => ⟨?_, hfindings⟩⟩
      · rw [hconcern] at hc
        cases hc
      · rw [hstats₂, Stats.uniqueFindings_record]
  | some concern =>
      obtain ⟨s', hsave, hrecorded⟩ := exists_saveFinding h hconcern hstats₂ hfindings
      exact ⟨s', bind_of_ok hsave, hrecorded⟩

/-- A test raises one counter, and files a report if that tells of something new. -/
theorem exists_testInput_raising (h : bench.Ordinary) (input : String) (s : Session) :
    ∃ counter s', testInput bench input s = .ok counter.notable s' ∧
      (bench.verdict s input).counter? = some counter ∧
      (∀ c : Counter, c.value s'.stats = c.value s.stats + if c = counter then 1 else 0) ∧
      s'.stats.iterations = s.stats.iterations ∧
      if counter.notable ∧ Finding.digestOf input ∉ s.stats.uniqueFindings then
        s'.stats.uniqueFindings = s.stats.uniqueFindings ++ [Finding.digestOf input] ∧
        ∃ concern ∈ (bench.verdict s input).concern?,
          s'.findings = s.findings ++ [.about bench input concern]
      else s'.stats.uniqueFindings = s.stats.uniqueFindings ∧ s'.findings = s.findings := by
  obtain ⟨s', htest, hrecorded⟩ := exists_testInput h input s
  obtain ⟨counter, hcounter, hnotable, hvalue, hiterations⟩ :=
    hrecorded.exists_counter (h.verdict_ne_interruption s input)
  refine ⟨counter, s', hnotable ▸ htest, hcounter, hvalue, hiterations, ?_⟩
  rw [← hnotable]
  rcases hrecorded.saved_or_unsaved with ⟨hsome, hnew, hsaved⟩ | ⟨hold, hunsaved⟩
  · rw [if_pos ⟨hsome, hnew⟩]
    exact hsaved
  · rw [if_neg fun hfiled => hfiled.2 (hold hfiled.1)]
    exact hunsaved

end Trial

end ClassDiagram.Fuzz
