import ClassDiagram.Dump.Report
import ClassDiagram.Proofs.Json.Layout
import ClassDiagram.Proofs.Paths
import ClassDiagram.Proofs.Yaml.RoundTrip
import Mathlib.Data.List.Forall2

/-!
# A run reports on every file

What a run prints is what it prints for each file alone, one after the other, and in the end how
many files have no diagram; the exit code tells whether there are any.  The report on a file is its
diagram, or one message that begins with the path, and depends on nothing else but this file.

Diagrams can be printed in every encoding.  A message cannot always be, since it shows the path and
may show characters of the file; a run ends where standard output cannot encode one.
-/

namespace ClassDiagram

namespace Storage

/-- The place that an error is about, as it is shown behind the path. -/
def LoadError.suffix : LoadError → String
  | .text _ => ""
  | .read e => e.place.suffix

/-- What is said about an error. -/
def LoadError.notice : LoadError → String
  | .text (.access .missing _) => "file not found"
  | .text fault => "error: " ++ fault.message
  | .read e => "error: " ++ e.message

/-- The line about an error, which begins with the path. -/
def LoadError.line (e : LoadError) (path : String) : String :=
  path ++ e.suffix ++ ": " ++ e.notice ++ "\n"

end Storage

namespace Dump

open Storage

/-! ## One file -/

/-- What is true of the report on a file: it is the diagram that is loaded from the file, or what is
said about the error, behind the path; and it is the same whatever other files there are. -/
structure Truthful (files : Files) (format : Format) (reader : Reader) (file : String)
    (r : Report) : Prop where
  diagram : ∀ d, loadDiagram files reader (Path.ofString file).display = .ok d →
    r = ⟨format.render d, true⟩
  failure : ∀ e, loadDiagram files reader (Path.ofString file).display = .error e →
    r = ⟨e.line (Path.ofString file).display, false⟩
  alone : ∀ others : Files,
    others (Path.ofString file).display = files (Path.ofString file).display →
    report others format reader file = .ok r

theorem reportFor_eq {settings : Settings} {format : Format} {reader : Reader}
    (hformat : settings.format = some format) (hreader : settings.reader = some reader)
    (files : Files) (file : String) :
    reportFor files settings file = report files format reader file := by
  rw [reportFor, hreader, hformat]
  rfl

section Report

variable {files : Files} {reader : Reader} {file : String}

theorem report_of_ok (format : Format) {d : Diagram}
    (h : loadDiagram files reader (Path.ofString file).display = .ok d) :
    report files format reader file = .ok ⟨format.render d, true⟩ := by
  unfold report reportWith
  simp only [h]
  rfl

end Report

/-! ## What can be printed -/

theorem toNat_lt_of_isOrdinary {c : Char} (h : Yaml.isOrdinary c = true) : c.toNat < 0x80 := by
  simp only [Yaml.isOrdinary, Bool.or_eq_true, beq_iff_eq, Bool.and_eq_true,
    decide_eq_true_eq] at h
  rcases h with rfl | ⟨-, h⟩
  · decide
  · omega

theorem toNat_lt_of_plain {c : Char} (h : Json.Plain c) : c.toNat < 0x80 := by
  rcases h with rfl | ⟨-, h⟩
  · decide
  · exact Nat.lt_of_le_of_lt h (by decide)

/-- A diagram is printed in characters of ASCII, whatever is in it. -/
theorem toNat_lt_of_mem_render {format : Format} {d : Diagram} {c : Char}
    (h : c ∈ (format.render d).toList) : c.toNat < 0x80 := by
  cases format with
  | yaml =>
      rw [Format.render, Yaml.render, String.toList_ofList, List.mem_append] at h
      rcases h with h | h
      · have hall := Yaml.all_document d.described_toRecord
        exact toNat_lt_of_isOrdinary (List.all_eq_true.mp hall c h)
      · obtain rfl := List.mem_singleton.mp h
        decide
  | json =>
      rw [Format.render, Json.render, String.toList_ofList] at h
      exact toNat_lt_of_plain (Json.plain_write d.described_toRecord (some 2) 0 c h)

theorem encodesAll_render (stdout : Text.Encoding) (format : Format) (d : Diagram) :
    stdout.encodesAll (format.render d) = true :=
  stdout.encodesAll_of_ascii fun _ hc => toNat_lt_of_mem_render hc

/-- Standard output encodes what is said about the files that have no diagram. -/
def Utterable (stdout : Text.Encoding) (files : Files) (reader : Reader) (names : List String) :
    Prop :=
  ∀ file ∈ names, ∀ e, loadDiagram files reader (Path.ofString file).display = .error e →
    stdout.encodesAll (e.line (Path.ofString file).display) = true

theorem utterable_utf8 (files : Files) (reader : Reader) (names : List String) :
    Utterable .utf8 files reader names :=
  fun _ _ _ _ => Text.Encoding.encodesAll_utf8 _

theorem Truthful.encodesAll {stdout : Text.Encoding} {files : Files} {format : Format}
    {reader : Reader} {names : List String} {file : String} {r : Report}
    (h : Truthful files format reader file r) (hstdout : Utterable stdout files reader names)
    (hfile : file ∈ names) : stdout.encodesAll r.text = true := by
  cases hload : loadDiagram files reader (Path.ofString file).display with
  | ok d =>
      rw [h.diagram d hload]
      exact encodesAll_render stdout format d
  | error e =>
      rw [h.failure e hload]
      exact hstdout file hfile e hload

/-! ## All files -/

/-- A run that prints `output` and has found no diagram in `failed` files. -/
def Run.closing (output : String) (failed : Nat) : Run where
  output := output ++
    if failed = 0 then "" else "\n" ++ toString failed ++ " file(s) failed to parse\n"
  ending := .exit (if failed = 0 then 0 else 1)

/-- A run that prints reports one after the other. -/
def Run.ofReports (reports : List Report) : Run :=
  .closing (String.join (reports.map Report.text)) (reports.countP fun r => !r.succeeded)

theorem reportAll_eq {stdout : Text.Encoding} {files : Files} {settings : Settings}
    {names : List String} {reports : List Report}
    (h : List.Forall₂ (fun file r => reportFor files settings file = .ok r ∧
      stdout.encodesAll r.text = true) names reports)
    (output : String) (failed : Nat) :
    reportAll stdout files settings names output failed =
      .closing (output ++ String.join (reports.map Report.text))
        (failed + reports.countP fun r => !r.succeeded) := by
  induction h generalizing output failed with
  | nil =>
      rw [List.map_nil, String.join_nil, String.append_empty, List.countP_nil, Nat.add_zero]
      cases failed with
      | zero =>
          rw [reportAll, Run.closing, if_pos rfl, String.append_empty]
          rfl
      | succ failed =>
          rw [reportAll, Run.closing, if_neg (Nat.succ_ne_zero failed)]
          simp [String.append_assoc]
  | @cons file r names reports hr _ ih =>
      rw [reportAll]
      simp only [hr.1, Text.Encoding.fault?_eq_none hr.2]
      rw [ih, List.map_cons, String.join_cons, String.append_assoc, List.countP_cons]
      congr 1
      cases r.succeeded with
      | true => simp
      | false => simp; omega

end Dump

end ClassDiagram
