import ClassDiagram.Proofs.Reports

/-!
# Where reports start

A message about a file ends its line, and so does a diagram in YAML; a diagram in JSON does not.  So
a message starts a line unless it comes right after a diagram in JSON.
-/

namespace ClassDiagram.Dump

open Storage

variable {files : Files} {settings : Settings} {file : String} {names : List String}
  {reports before after : List Report} {r : Report}

/-! ## The end of a report -/

/-- What is printed next starts a line: nothing has been printed, or a line has just ended. -/
def EndsLine (text : String) : Prop := ∀ c ∈ text.toList.getLast?, c = '\n'

instance : DecidablePred EndsLine :=
  fun text => inferInstanceAs (Decidable (∀ c ∈ text.toList.getLast?, c = '\n'))

theorem endsLine_empty : EndsLine "" := by simp [EndsLine]

theorem endsLine_line (line : String) : EndsLine (line ++ "\n") := by simp [EndsLine]

/-- Only the last text matters if it is not empty. -/
theorem endsLine_append {text : String} (h : text ≠ "") (front : String) :
    EndsLine (front ++ text) ↔ EndsLine text := by
  have hlast : text.toList ≠ [] := by simpa using h
  rw [EndsLine, EndsLine, String.toList_append, List.getLast?_append_of_ne_nil _ hlast]

theorem endsLine_yaml (d : Diagram) : EndsLine (Format.yaml.render d) := by
  simp [EndsLine, Format.render, Yaml.render]

theorem not_endsLine_json (d : Diagram) : ¬ EndsLine (Format.json.render d) := by
  obtain ⟨front, hfront⟩ : ∃ front, Json.write (some 2) 0 d.toRecord = front ++ ['\x7d'] := by
    rw [Diagram.toRecord, Value.ofDiagram, Json.write, ← List.cons_append]
    exact ⟨_, rfl⟩
  simp [EndsLine, Format.render, Json.render, hfront]

theorem render_ne_empty (format : Format) (d : Diagram) : format.render d ≠ "" := by
  cases format with
  | yaml => simp [Format.render, Yaml.render]
  | json => exact fun h => not_endsLine_json d (h ▸ endsLine_empty)

/-- A report is a diagram in the format of the settings, or a line without one. -/
theorem diagram_or_line (h : reportFor files settings file = .ok r) :
    (∃ format d, settings.format = some format ∧ r = ⟨format.render d, true⟩) ∨
      ∃ line, r = ⟨line ++ "\n", false⟩ := by
  unfold reportFor at h
  cases hreader : settings.reader with
  | none =>
      rw [hreader] at h
      cases h
  | some reader =>
      rw [hreader] at h
      dsimp only [orFault, bind, Except.bind, reportWith] at h
      split at h
      · next d _ =>
        cases hformat : settings.format with
        | none => simp [hformat, Except.map] at h
        | some format =>
            simp only [hformat, Except.map, Except.ok.injEq] at h
            exact .inl ⟨format, d, rfl, h.symm⟩
      · cases h
      · cases h
        exact .inr ⟨(Path.ofString file).display ++ ": file not found", by
          rw [String.append_assoc]
          rfl⟩
      all_goals
        cases h
        exact .inr ⟨_, rfl⟩

/-- The only report that does not end its line is a diagram in JSON. -/
theorem endsLine_report_iff (h : reportFor files settings file = .ok r) :
    EndsLine r.text ↔ settings.format ≠ some .json ∨ r.succeeded = false := by
  rcases diagram_or_line h with ⟨format, d, hformat, rfl⟩ | ⟨line, rfl⟩
  · cases format with
    | yaml => simp [hformat, endsLine_yaml]
    | json => simp [hformat, not_endsLine_json]
  · simp [endsLine_line]

theorem report_text_ne_empty (h : reportFor files settings file = .ok r) : r.text ≠ "" := by
  rcases diagram_or_line h with ⟨format, d, -, rfl⟩ | ⟨line, rfl⟩
  · exact render_ne_empty format d
  · simp

/-! ## The end of what has been printed -/

/-- Reports end a line unless the last one is a diagram in JSON. -/
theorem endsLine_reports_iff (h : ∀ r ∈ reports, ∃ file, reportFor files settings file = .ok r) :
    EndsLine (String.join (reports.map Report.text)) ↔
      settings.format ≠ some .json ∨ ∀ r ∈ reports.getLast?, r.succeeded = false := by
  rcases List.eq_nil_or_concat reports with rfl | ⟨front, r, rfl⟩
  · simp [endsLine_empty]
  · obtain ⟨file, hr⟩ := h r (by simp)
    have hjoin : String.join ((front.concat r).map Report.text) =
        String.join (front.map Report.text) ++ r.text := by
      simp
    rw [hjoin, endsLine_append (report_text_ne_empty hr), endsLine_report_iff hr]
    simp

/-! ## Runs -/

/-- A run that prints reports and then comes upon a fault. -/
def Run.ofFault (reports : List Report) (fault : Fault) : Run where
  output := String.join (reports.map Report.text)
  ending := .fault fault

/-- The reports that a run prints are those on all files, or on the files before the first one that
has none. -/
inductive Prints (files : Files) (settings : Settings) : List Report → Run → Prop
  | all {reports : List Report}
    (h : List.Forall₂ (fun file r => reportFor files settings file = .ok r) settings.files
      reports) :
    Prints files settings reports (.ofReports reports)
  | before {reports : List Report} {names more : List String} {file : String} {fault : Fault}
    (hfiles : settings.files = names ++ file :: more)
    (h : List.Forall₂ (fun file r => reportFor files settings file = .ok r) names reports)
    (hfault : reportFor files settings file = .error fault) :
    Prints files settings reports (.ofFault reports fault)

theorem exists_file_of_mem
    (h : List.Forall₂ (fun file r => reportFor files settings file = .ok r) names reports)
    (hr : r ∈ reports) : ∃ file, reportFor files settings file = .ok r := by
  obtain ⟨i, hi, rfl⟩ := List.mem_iff_getElem.mp hr
  exact ⟨_, h.get (h.length_eq ▸ hi) hi⟩

theorem Prints.exists_file {result : Run} (h : Prints files settings reports result)
    (hr : r ∈ reports) : ∃ file, reportFor files settings file = .ok r := by
  cases h with
  | all h => exact exists_file_of_mem h hr
  | before _ h _ => exact exists_file_of_mem h hr

/-- Either all files have reports, or there is a first one that has none. -/
theorem reports_or_fault (files : Files) (settings : Settings) (names : List String) :
    (∃ reports,
        List.Forall₂ (fun file r => reportFor files settings file = .ok r) names reports) ∨
      ∃ front file more reports fault, names = front ++ file :: more ∧
        List.Forall₂ (fun file r => reportFor files settings file = .ok r) front reports ∧
        reportFor files settings file = .error fault := by
  induction names with
  | nil => exact .inl ⟨[], .nil⟩
  | cons name names ih =>
      cases hname : reportFor files settings name with
      | error fault => exact .inr ⟨[], name, names, [], fault, rfl, .nil, hname⟩
      | ok r =>
          rcases ih with ⟨reports, h⟩ | ⟨front, file, more, reports, fault, rfl, h, hfault⟩
          · exact .inl ⟨r :: reports, .cons hname h⟩
          · exact .inr ⟨name :: front, file, more, r :: reports, fault, rfl, .cons hname h, hfault⟩

theorem reportAll_of_fault {more : List String} {fault : Fault}
    (h : List.Forall₂ (fun file r => reportFor files settings file = .ok r) names reports)
    (hfault : reportFor files settings file = .error fault) (output : String) (failed : Nat) :
    reportAll .utf8 files settings (names ++ file :: more) output failed =
      { output := output ++ String.join (reports.map Report.text), ending := .fault fault } := by
  induction h generalizing output failed with
  | nil => simp [reportAll, hfault]
  | cons hr _ ih =>
      rw [List.cons_append, reportAll]
      simp only [hr, Text.Encoding.fault?_eq_none (Text.Encoding.encodesAll_utf8 _)]
      rw [ih, List.map_cons, String.join_cons, String.append_assoc]

theorem run_of_reports {arguments : List String}
    (hparse : program.parse {} arguments = .settings settings) (hfiles : settings.files ≠ [])
    (h : List.Forall₂ (fun file r => reportFor files settings file = .ok r) settings.files
      reports) :
    run files arguments = .ofReports reports := by
  have hprinted := h.imp fun file r hr => And.intro hr (Text.Encoding.encodesAll_utf8 r.text)
  rw [run, runOn, hparse]
  simp only [hfiles, if_false]
  rw [reportAll_eq hprinted, String.empty_append, Nat.zero_add]
  rfl

theorem exists_prints (files : Files) {arguments : List String}
    (hparse : program.parse {} arguments = .settings settings) (hfiles : settings.files ≠ []) :
    ∃ reports, Prints files settings reports (run files arguments) := by
  rcases reports_or_fault files settings settings.files with
    ⟨reports, h⟩ | ⟨front, file, more, reports, fault, hsplit, h, hfault⟩
  · rw [run_of_reports hparse hfiles h]
    exact ⟨reports, .all h⟩
  · rw [run, runOn, hparse]
    simp only [hfiles, if_false]
    rw [hsplit, reportAll_of_fault h hfault, String.empty_append]
    exact ⟨reports, .before hsplit h hfault⟩

/-- Whatever the files and the arguments, a report, be it a diagram or a message, starts a line
unless the format is JSON and there is a diagram in the file before it; and then it does not. -/
theorem report_startsLine_iff (files : Files) {arguments : List String}
    (hparse : program.parse {} arguments = .settings settings) (hfiles : settings.files ≠ []) :
    ∃ reports, Prints files settings reports (run files arguments) ∧
      ∀ before r after, reports = before ++ r :: after →
        (EndsLine (String.join (before.map Report.text)) ↔
          settings.format ≠ some .json ∨ ∀ last ∈ before.getLast?, last.succeeded = false) := by
  obtain ⟨reports, hprints⟩ := exists_prints files hparse hfiles
  refine ⟨reports, hprints, fun before r after hsplit => ?_⟩
  have hbefore : ∀ r ∈ before, ∃ file, reportFor files settings file = .ok r :=
    fun r hr => hprints.exists_file (hsplit ▸ List.mem_append_left _ hr)
  exact endsLine_reports_iff hbefore

theorem report_startsLine_missing : ∃ reports,
    Prints (fun path => if path = "a" then .ok [] else .error .missing)
      ⟨some .json, some .grammar, ["a", "b"]⟩ reports
      (run (fun path => if path = "a" then .ok [] else .error .missing)
        ["--format=json", "--parser", "peg", "a", "b"]) ∧
    ∀ before r after, reports = before ++ r :: after →
      (EndsLine (String.join (before.map Report.text)) ↔
        some Format.json ≠ some .json ∨ ∀ last ∈ before.getLast?, last.succeeded = false) :=
  have hparse : program.parse {} ["--format=json", "--parser", "peg", "a", "b"] =
      .settings ⟨some .json, some .grammar, ["a", "b"]⟩ := rfl
  report_startsLine_iff _ hparse (by decide)

/-- Not even a message about a missing file always starts a line. -/
theorem message_follows_diagram :
    ¬ ∀ (files : Files) (arguments : List String) (settings : Settings) (reports : List Report),
      program.parse {} arguments = .settings settings →
        Prints files settings reports (run files arguments) →
          ∀ before r after, reports = before ++ r :: after → r.succeeded = false →
            EndsLine (String.join (before.map Report.text)) := by
  intro h
  let files : Files := fun path => if path = "a" then .ok [] else .error .missing
  let settings : Settings := ⟨some .json, some .grammar, ["a", "b"]⟩
  have hparse : program.parse {} ["--format=json", "--parser", "peg", "a", "b"] =
      .settings settings := rfl
  have hload : loadDiagram files .grammar (Path.ofString "a").display = .ok {} := by
    with_unfolding_all rfl
  have hdiagram : reportFor files settings "a" = .ok ⟨Format.json.render {}, true⟩ :=
    (reportFor_eq rfl rfl files "a").trans (report_of_ok .json hload)
  have hmessage : reportFor files settings "b" = .ok ⟨"b: file not found\n", false⟩ := by
    with_unfolding_all rfl
  have hall : List.Forall₂ (fun file r => reportFor files settings file = .ok r) settings.files
      [⟨Format.json.render {}, true⟩, ⟨"b: file not found\n", false⟩] :=
    .cons hdiagram (.cons hmessage .nil)
  have hprints := Prints.all hall
  rw [← run_of_reports hparse (by decide) hall] at hprints
  have hends := h files _ settings _ hparse hprints [_] _ [] rfl rfl
  exact not_endsLine_json {} (by simpa using hends)

end ClassDiagram.Dump
