import ClassDiagram.Proofs.Fuzz.Inputs
import ClassDiagram.Proofs.Fuzz.Tests
import Mathlib.Data.List.Forall2
import Mathlib.Data.List.Nodup
import Mathlib.Data.List.Perm.Subperm

/-!
# The books of a session

A run tries one input after the other.  Its log tells which ones, and which of them showed
something; nobody keeps it, but what is counted, which digests are taken down and which reports are
written, and what the corpus holds in the end, all follow from it.
-/

namespace ClassDiagram.Fuzz

/-- An input that has been tried, and whether it showed something. -/
structure Tested where
  input : String
  notable : Bool
  deriving DecidableEq, Repr

namespace Tested

/-- The corpus after an input has been tried. -/
def extend (corpus : List String) (t : Tested) : List String :=
  if t.notable then grow corpus t.input else corpus

/-- The inputs that showed something, in the order in which they were tried. -/
def notables (log : List Tested) : List String := (log.filter notable).map input

@[simp] theorem notables_nil : notables [] = [] := rfl

theorem notables_append (log more : List Tested) :
    notables (log ++ more) = notables log ++ notables more := by
  simp [notables]

theorem notables_singleton (t : Tested) :
    notables [t] = if t.notable = true then [t.input] else [] := by
  cases h : t.notable <;> simp [notables, h]

theorem extend_ne_nil {corpus : List String} (h : corpus ≠ []) (t : Tested) :
    t.extend corpus ≠ [] := by
  unfold extend grow
  split
  · split
    · simp
    · exact h
  · exact h

/-- A corpus takes what shows something as long as there is room. -/
theorem foldl_extend {corpus : List String} (h : corpus.length ≤ maxCorpus) (log : List Tested) :
    log.foldl extend corpus = (corpus ++ notables log).take maxCorpus := by
  induction log generalizing corpus with
  | nil => simp [List.take_of_length_le h]
  | cons t log ih =>
      have hcons : notables (t :: log) = notables [t] ++ notables log := notables_append [t] log
      rw [List.foldl_cons, hcons]
      by_cases hnotable : t.notable = true
      · rw [notables_singleton, if_pos hnotable, ← List.append_assoc]
        by_cases hroom : corpus.length < maxCorpus
        · rw [extend, if_pos hnotable, grow, if_pos hroom, ih (by simp; omega)]
        · -- What is full stays as it is.
          have hfull : corpus.length = maxCorpus := by omega
          rw [extend, if_pos hnotable, grow, if_neg hroom, ih h, ← hfull, List.append_assoc,
            List.take_left, List.take_left]
      · rw [notables_singleton, if_neg hnotable, List.nil_append, extend, if_neg hnotable, ih h]

end Tested

namespace Trial

/-- A pass that tells what it tried. -/
def tested (bench : Bench) (corpus : List String) : Trial Tested := do
  count fun stats => { stats with iterations := stats.iterations + 1 }
  let input ← random (Gen.nextInput corpus)
  let notable ← testInput bench input
  if (← get).stats.iterations % 1000 = 0 then printStats bench
  return ⟨input, notable⟩

theorem pass_eq (bench : Bench) (corpus : List String) :
    pass bench corpus = (Tested.extend corpus ·) <$> tested bench corpus := by
  simp only [pass, tested, map_bind]
  refine bind_congr fun _ => bind_congr fun input => bind_congr fun notable => ?_
  refine bind_congr fun s => ?_
  split <;> simp [Tested.extend]

end Trial

/-- The finding is the report on an input with this digest. -/
def Finding.HasDigest (digest : String) (finding : Finding) : Prop :=
  ∃ bench input concern, digestOf input = digest ∧ finding = .about bench input concern

theorem Finding.HasDigest.eq_of_path {digest digest' : String} {finding finding' : Finding}
    (h : finding.HasDigest digest) (h' : finding'.HasDigest digest')
    (hpath : finding.path = finding'.path) : digest = digest' := by
  obtain ⟨bench, input, concern, rfl, rfl⟩ := h
  obtain ⟨bench', input', concern', rfl, rfl⟩ := h'
  simp only [about] at hpath
  exact digestOf_eq_of_pathOf_eq hpath

/-- Reports on different digests go to different files. -/
theorem Finding.nodup_paths {digests : List String} {findings : List Finding}
    (h : List.Forall₂ (fun digest finding => finding.HasDigest digest) digests findings)
    (hdigests : digests.Nodup) : (findings.map path).Nodup := by
  have hall : (findings.map path).Nodup ∧
      ∀ finding ∈ findings, ∃ digest ∈ digests, finding.HasDigest digest := by
    induction h with
    | nil => exact ⟨List.nodup_nil, by simp⟩
    | @cons digest finding digests findings hfirst _ ih =>
        obtain ⟨hnew, hdigests⟩ := List.nodup_cons.mp hdigests
        obtain ⟨hnodup, hmem⟩ := ih hdigests
        constructor
        · refine List.nodup_cons.mpr ⟨fun hpath => ?_, hnodup⟩
          obtain ⟨other, hother, hpath⟩ := List.mem_map.mp hpath
          obtain ⟨digest', hdigest', hhas⟩ := hmem other hother
          exact hnew (hhas.eq_of_path hfirst hpath ▸ hdigest')
        · refine List.forall_mem_cons.mpr ⟨⟨digest, List.mem_cons_self, hfirst⟩, ?_⟩
          intro other hother
          obtain ⟨digest', hdigest', hhas⟩ := hmem other hother
          exact ⟨digest', List.mem_cons_of_mem _ hdigest', hhas⟩
  exact hall.1

/-- What a session keeps is right for the log. -/
structure Books (log : List Tested) (s : Session) : Prop where
  iterations : s.stats.iterations = log.length
  counted : s.stats.parseOk + s.stats.parseError + s.stats.crashes + s.stats.timeouts +
    s.stats.mismatches = log.length
  notable : s.stats.crashes + s.stats.timeouts + s.stats.mismatches = (Tested.notables log).length
  digests : ∀ digest, digest ∈ s.stats.uniqueFindings ↔
    digest ∈ (Tested.notables log).map Finding.digestOf
  distinct : s.stats.uniqueFindings.Nodup
  filed : List.Forall₂ (fun digest finding => finding.HasDigest digest)
    s.stats.uniqueFindings s.findings

namespace Books

variable {log : List Tested} {s s' : Session}

theorem fresh (hstats : s.stats = {}) (hfindings : s.findings = []) : Books [] s where
  iterations := by rw [hstats]; rfl
  counted := by rw [hstats]; rfl
  notable := by rw [hstats]; rfl
  digests := by simp [hstats]
  distinct := by simp [hstats]
  filed := by simp [hstats, hfindings]

theorem congr (h : Books log s) (hstats : s'.stats = s.stats)
    (hfindings : s'.findings = s.findings) : Books log s' where
  iterations := by rw [hstats, h.iterations]
  counted := by rw [hstats, h.counted]
  notable := by rw [hstats, h.notable]
  digests := by rw [hstats]; exact h.digests
  distinct := by rw [hstats]; exact h.distinct
  filed := by rw [hstats, hfindings]; exact h.filed

theorem length_findings (h : Books log s) :
    s.findings.length = s.stats.uniqueFindings.length :=
  h.filed.length_eq.symm

theorem length_uniqueFindings_le (h : Books log s) :
    s.stats.uniqueFindings.length ≤ s.stats.crashes + s.stats.timeouts + s.stats.mismatches := by
  have hsubset : s.stats.uniqueFindings ⊆ (Tested.notables log).map Finding.digestOf :=
    fun digest => (h.digests digest).mp
  have hle := h.distinct.length_le_of_subset hsubset
  rwa [List.length_map, ← h.notable] at hle

theorem nodup_paths (h : Books log s) : (s.findings.map Finding.path).Nodup :=
  Finding.nodup_paths h.filed h.distinct

/-- A test is entered in the books. -/
theorem step (h : Books log s) {bench : Bench} {t : Tested} {verdict : Verdict}
    (hverdict : verdict ≠ .interruption) (hnotable : t.notable = verdict.concern?.isSome)
    (hrecorded : Recorded bench t.input verdict
      { s with stats := { s.stats with iterations := s.stats.iterations + 1 } } s') :
    Books (log ++ [t]) s' := by
  obtain ⟨counter, -, hworth, hvalue, hiterations⟩ := hrecorded.exists_counter hverdict
  have hlength : s'.stats.iterations = (log ++ [t]).length := by
    rw [hiterations, List.length_append]
    exact congrArg (· + 1) h.iterations
  have hcounted : s'.stats.parseOk + s'.stats.parseError + s'.stats.crashes + s'.stats.timeouts +
      s'.stats.mismatches = (log ++ [t]).length := by
    rw [Counter.sum_of_raised hvalue, List.length_append]
    exact congrArg (· + 1) h.counted
  have hnotables : Tested.notables (log ++ [t]) =
      Tested.notables log ++ if t.notable = true then [t.input] else [] := by
    rw [Tested.notables_append, Tested.notables_singleton]
  have hnumber : s'.stats.crashes + s'.stats.timeouts + s'.stats.mismatches =
      (Tested.notables (log ++ [t])).length := by
    rw [Counter.notable_of_raised hvalue, hnotables, List.length_append, ← h.notable, ← hworth,
      ← hnotable]
    cases t.notable <;> rfl
  rcases hrecorded.saved_or_unsaved with
    ⟨hsome, hnew, hunique, concern, -, hfindings⟩ | ⟨hold, hunique, hfindings⟩
  · -- The digest is new, and taken down together with the report.
    refine ⟨hlength, hcounted, hnumber, fun digest => ?_, ?_, ?_⟩
    · rw [hunique, hnotables, if_pos (hnotable.trans hsome), List.map_append, List.mem_append,
        List.mem_append, h.digests]
      rfl
    · rw [hunique]
      exact List.Nodup.append h.distinct (List.nodup_singleton _) (List.disjoint_singleton.mpr hnew)
    · rw [hunique, hfindings]
      exact List.rel_append h.filed (.cons ⟨bench, t.input, concern, rfl, rfl⟩ .nil)
  · -- There is nothing to take down, or the digest is in the books already.
    refine ⟨hlength, hcounted, hnumber, fun digest => ?_, ?_, ?_⟩
    · rw [hunique, hnotables]
      split
      · next hsome =>
        have hmem : Finding.digestOf t.input ∈ (Tested.notables log).map Finding.digestOf :=
          (h.digests _).mp (hold (hnotable.symm.trans hsome))
        rw [h.digests, List.map_append, List.mem_append, or_iff_left_of_imp]
        exact fun hdigest => List.mem_singleton.mp hdigest ▸ hmem
      · rw [List.append_nil]
        exact h.digests digest
    · rw [hunique]
      exact h.distinct
    · rw [hunique, hfindings]
      exact h.filed

end Books

/-- What the books of a session tell of the inputs in the log. -/
structure Session.Balance (log : List Tested) (s : Session) : Prop where
  iterations : s.stats.iterations = log.length
  counted : s.stats.parseOk + s.stats.parseError + s.stats.crashes + s.stats.timeouts +
    s.stats.mismatches = s.stats.iterations
  notable : s.stats.crashes + s.stats.timeouts + s.stats.mismatches = (Tested.notables log).length
  digests : ∀ digest, digest ∈ s.stats.uniqueFindings ↔
    digest ∈ (Tested.notables log).map Finding.digestOf
  distinct : s.stats.uniqueFindings.Nodup
  findings : s.findings.length = s.stats.uniqueFindings.length
  bounded : s.findings.length ≤ s.stats.crashes + s.stats.timeouts + s.stats.mismatches
  paths : (s.findings.map Finding.path).Nodup

theorem Books.balance {log : List Tested} {s : Session} (h : Books log s) : s.Balance log where
  iterations := h.iterations
  counted := h.counted.trans h.iterations.symm
  notable := h.notable
  digests := h.digests
  distinct := h.distinct
  findings := h.length_findings
  bounded := h.length_findings ▸ h.length_uniqueFindings_le
  paths := h.nodup_paths

end ClassDiagram.Fuzz
