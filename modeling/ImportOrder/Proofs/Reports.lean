import ImportOrder.Proofs.Arrangement
import ImportOrder.Proofs.Header
import ImportOrder.Proofs.JsonReading
import ImportOrder.Proofs.ReportText
import ImportOrder.Proofs.Rewriting
import ImportOrder.Report
import Mathlib.Algebra.Ring.Int.Defs
import ImportOrder.Runtime

/-!
# What a scan says and how it is reported

The verdict, the diagnostics and the fix of a scan agree with each other. A report gives the same counts as JSON,
where each file has its own, and as text, where the summary gives them and the blocks and hints can be counted.
-/

namespace ImportOrder

/-! ## Diagnostics -/

namespace Violation

variable {config : Configuration} {fix : Option Edit}

theorem between?_eq_some {s s' : Statement} {v : Violation} (h : between? config fix s s' = some v) :
    s'.isImport = true ∧ v.start = s'.start ∧ v.fix = fix := by
  unfold between? at h
  split at h
  · rename_i path path' _ hpath'
    obtain ⟨rule, -, rfl⟩ := Option.map_eq_some_iff.mp h
    exact ⟨by simp [Statement.isImport, hpath'], rfl, rfl⟩
  · simp at h

theorem fix_of_mem_analyze {statements : List Statement} {v : Violation} (h : v ∈ analyze config fix statements) :
    v.fix = fix := by
  induction statements using analyze.induct with
  | case1 => simp [analyze] at h
  | case2 => simp [analyze] at h
  | case3 s s' rest ih =>
    rw [analyze, List.mem_append, Option.mem_toList] at h
    exact h.elim (fun h => (between?_eq_some h).2.2) ih

/-- Violations stand at imports, in the order of the source and at most one at each. -/
theorem start_analyze_sublist (config : Configuration) (fix : Option Edit) (statements : List Statement) :
    ((analyze config fix statements).map Violation.start).Sublist
      (((statements.drop 1).filter Statement.isImport).map Statement.start) := by
  induction statements using analyze.induct with
  | case1 => simp [analyze]
  | case2 => simp [analyze]
  | case3 s s' rest ih =>
    rw [List.drop_one, List.tail_cons] at ih
    rw [analyze, List.drop_one, List.tail_cons, List.map_append]
    cases hbetween : between? config fix s s' with
    | none =>
      -- the second of the pair is passed over
      have hsub : (rest.filter Statement.isImport).Sublist ((s' :: rest).filter Statement.isImport) :=
        (List.sublist_cons_self s' rest).filter _
      simpa using ih.trans (hsub.map _)
    | some v =>
      obtain ⟨himport, hstart, -⟩ := between?_eq_some hbetween
      rw [List.filter_cons_of_pos himport, List.map_cons]
      simpa [hstart] using ih

end Violation

/-- A verdict with its diagnostics and its fix: there is something to fix where there is a diagnostic, every
diagnostic has the fix of all, and each stands at an import of its own. -/
structure ScanResult.Coherent [Stack] (source : Text) (result : ScanResult) : Prop where
  rejected_iff : result.status = .rejected ↔ result.diagnostics ≠ []
  fix_iff : result.fix.isSome = true ↔ result.diagnostics ≠ []
  shared : ∀ d ∈ result.diagnostics, d.fix = result.fix
  increasing : result.diagnostics.Pairwise fun d d' => d.start < d'.start
  at_imports : ∃ document, Document.parse source = .ok document ∧
    ∀ d ∈ result.diagnostics, ∃ s ∈ document.statements, s.isImport = true ∧ d.start = s.start

theorem diagnostics_at_imports (config : Configuration) (fix : Option Edit) (document : Document) :
    ∀ d ∈ (Violation.analyze config fix document.statements).map (Diagnostic.ofViolation document.index),
      ∃ s ∈ document.statements, s.isImport = true ∧ d.start = s.start := by
  intro d hd
  obtain ⟨v, hv, rfl⟩ := List.mem_map.mp hd
  have hsub := Violation.start_analyze_sublist config fix document.statements
  obtain ⟨s, hs, hstart⟩ := List.mem_map.mp (hsub.mem (List.mem_map_of_mem hv))
  obtain ⟨hs, himport⟩ := List.mem_filter.mp hs
  exact ⟨s, List.mem_of_mem_drop hs, himport, hstart.symm⟩

theorem diagnostics_increasing [Stack] {source : Text} {document : Document} (h : Document.parse source = .ok document)
    (config : Configuration) (fix : Option Edit) :
    ((Violation.analyze config fix document.statements).map (Diagnostic.ofViolation document.index)).Pairwise
      fun d d' => d.start < d'.start := by
  have hsub := Violation.start_analyze_sublist config fix document.statements
  have himports : (((document.statements.drop 1).filter Statement.isImport).map Statement.start).Sublist
      (document.statements.map Statement.start) :=
    (List.filter_sublist.trans (List.drop_sublist 1 _)).map _
  have hstarts := (Document.starts_of_parse h).sublist (hsub.trans himports)
  rw [List.pairwise_map] at hstarts ⊢
  exact hstarts

theorem coherent_of_scan [Stack] {config : Configuration} {filename : String} {source : Text} {result : ScanResult}
    (h : scan config filename source = .ok result) : result.Coherent source := by
  obtain ⟨document, hparse⟩ := exists_parse_of_scan h
  have hincreasing := diagnostics_increasing hparse config (Plan.plan config source document.statements)
  have hat := diagnostics_at_imports config (Plan.plan config source document.statements) document
  rw [scan_of_parse hparse] at h
  dsimp only at h
  split at h
  · rw [← Except.ok.inj h]
    exact ⟨by simp, by simp, by simp, by simp, document, hparse, by simp⟩
  · rename_i hsome
    rw [List.isEmpty_iff] at hsome
    rw [← Except.ok.inj h]
    refine ⟨by simp [hsome], ?_, ?_, hincreasing, document, hparse, hat⟩
    · -- a diagnostic stands at an import, and where there is an import there is a plan
      obtain ⟨d, hd⟩ := List.exists_mem_of_ne_nil _ hsome
      obtain ⟨s, hs, himport, -⟩ := hat d hd
      obtain ⟨edit, pushed, hplan, -⟩ := Plan.replacement_of_plan config source ⟨s, hs, himport⟩
      exact iff_of_true (by simp [hplan]) hsome
    · intro d hd
      obtain ⟨v, hv, rfl⟩ := List.mem_map.mp hd
      exact Violation.fix_of_mem_analyze hv

/-! ## The report as JSON -/

namespace Report

open Json

theorem object_eq (entries : List (String × Value)) : object entries = .map (textKeys entries) :=
  rfl

theorem plain_editJson (fix : Option Edit) : Plain (editJson fix) := by
  cases fix with
  | none => exact .null
  | some edit =>
    rw [editJson, object_eq]
    refine .map (by simp) ?_
    simp [Plain.int, Plain.text]

/-- A diagnostic in a document: its own entries and the fix. -/
theorem plain_diagnostic (d : Diagnostic) (fix : Option Edit) :
    Plain (.map (Value.assign "fix" (editJson fix) (diagnosticEntries d))) := by
  have hentries : diagnosticEntries d = textKeys [("line", .int d.line), ("column", .int d.column),
      ("start", .int d.start), ("end", .int d.stop), ("kind", .text d.rule.name),
      ("module", .text (String.ofList d.path)), ("message", .text d.rule.message)] := rfl
  rw [hentries, assign_textKeys (by simp)]
  refine .map (by simp) ?_
  simp [Plain.int, Plain.text, plain_editJson]

theorem plain_resultJson (result : ScanResult) : Plain (resultJson result) := by
  have hviolations : ∀ v ∈ (result.diagnostics.map diagnosticEntries).map fun entries =>
      Value.map (Value.assign "fix" (editJson result.fix) entries), Plain v := by
    intro v hv
    obtain ⟨entries, hentries, rfl⟩ := List.mem_map.mp hv
    obtain ⟨d, -, rfl⟩ := List.mem_map.mp hentries
    exact plain_diagnostic d result.fix
  have hsummary : Plain (object [("violations", .int (result.diagnostics.map diagnosticEntries).length),
      ("fixable", .bool (result.fix.isSome && !(result.diagnostics.map diagnosticEntries).isEmpty))]) := by
    rw [object_eq]
    refine .map (by simp) ?_
    simp [Plain.int, Plain.bool]
  rw [resultJson, documentJson, object_eq]
  refine .map (by simp) ?_
  simp only [List.forall_mem_cons]
  exact ⟨.text _, .text _, .list hviolations, hsummary, by simp⟩

/-- The report is read as the documents of the results. -/
theorem parse?_json (results : List ScanResult) :
    parse? (String.ofList (json results)) = some (.list (results.map resultJson)) := by
  apply parse?_write
  refine .list ?_
  intro v hv
  obtain ⟨result, -, rfl⟩ := List.mem_map.mp hv
  exact plain_resultJson result

/-- What a map holds under a text. -/
def at? (key : String) : Value → Option Value
  | .map entries => Value.lookup key entries
  | _ => none

/-- The counts in the summary of a document: how many violations, and whether they can be fixed. -/
def tally? (document : Value) : Option (Int × Bool) :=
  match (at? "summary" document).bind (at? "violations"), (at? "summary" document).bind (at? "fixable") with
  | some (.int violations), some (.bool fixable) => some (violations, fixable)
  | _, _ => none

theorem tally?_resultJson (result : ScanResult) : tally? (resultJson result) =
    some ((result.diagnostics.length : Int), result.fix.isSome && !result.diagnostics.isEmpty) := by
  simp [tally?, resultJson, documentJson, object, at?, Value.lookup, Value.isText]

/-- An entry of a document tells of a violation, and of the edit that mends the file. -/
structure DescribesViolation (fix : Option Edit) (d : Diagnostic) (entry : Value) : Prop where
  place : at? "line" entry = some (.int d.line) ∧ at? "column" entry = some (.int d.column)
  range : at? "start" entry = some (.int d.start) ∧ at? "end" entry = some (.int d.stop)
  rule : at? "kind" entry = some (.text d.rule.name) ∧ at? "message" entry = some (.text d.rule.message)
  path : at? "module" entry = some (.text (String.ofList d.path))
  unfixed : fix = none → at? "fix" entry = some .null
  fixed : ∀ edit, fix = some edit → ∃ value, at? "fix" entry = some value ∧
    at? "start" value = some (.int edit.start) ∧ at? "end" value = some (.int edit.stop) ∧
    at? "replacement" value = some (.text (String.ofList edit.replacement))

/-- A document tells of the result of a scan. -/
structure Describes (result : ScanResult) (document : Value) : Prop where
  file : at? "file" document = some (.text result.filename)
  status : at? "status" document = some (.text result.status.name)
  violations : ∃ entries, at? "violations" document = some (.list entries) ∧
    List.Forall₂ (DescribesViolation result.fix) result.diagnostics entries
  counts : tally? document = some ((result.diagnostics.length : Int), result.fix.isSome && !result.diagnostics.isEmpty)

theorem describesViolation_assign (fix : Option Edit) (d : Diagnostic) :
    DescribesViolation fix d (.map (Value.assign "fix" (editJson fix) (diagnosticEntries d))) := by
  have hfix : at? "fix" (.map (Value.assign "fix" (editJson fix) (diagnosticEntries d))) = some (editJson fix) := rfl
  refine ⟨⟨rfl, rfl⟩, ⟨rfl, rfl⟩, ⟨rfl, rfl⟩, rfl, ?_, ?_⟩
  · rintro rfl
    exact hfix
  · rintro edit rfl
    exact ⟨_, hfix, rfl, rfl, rfl⟩

theorem describes_resultJson (result : ScanResult) : Describes result (resultJson result) := by
  refine ⟨rfl, rfl, ⟨_, rfl, ?_⟩, tally?_resultJson result⟩
  rw [List.map_map, List.forall₂_map_right_iff, List.forall₂_same]
  exact fun d _ => describesViolation_assign result.fix d

/-! ## Both forms of the report -/

/-- The two forms of a report on the same results. The violations and the fixable files that the JSON documents count
are those that the summary of the text gives, and the blocks and hints that the text is made of. They are also those
that can be counted in the lines of the text, as long as no name of a file breaks a line. -/
def Agree (color : Bool) (results : List ScanResult) : Prop :=
  ∃ (documents : List Value) (tallies : List (Int × Bool)) (violations fixable : Nat) (parts : List Text),
    parse? (String.ofList (json results)) = some (.list documents) ∧ documents.map tally? = tallies.map some ∧
    (tallies.map Prod.fst).sum = violations ∧ tallies.countP Prod.snd = fixable ∧
    text color results =
      Text.joinWith ['\n'] (parts ++ summaryLines color results.length violations fixable) ++ ['\n'] ∧
    List.Forall₂ (Block.Spells color) (results.flatMap blocks) parts ∧
    (results.flatMap blocks).countP Block.isViolation = violations ∧
    (results.flatMap blocks).countP Block.isHint = fixable ∧
    ((∀ result ∈ results, '\n' ∉ result.filename.toList) →
      ((text color results).splitOn '\n').countP (isMessageLine color) = violations ∧
      ((text color results).splitOn '\n').countP (isHintLine color) = fixable)

theorem sum_lengths (results : List ScanResult) :
    (results.map fun result => (result.diagnostics.length : Int)).sum = violationCount results := by
  induction results with
  | nil => rfl
  | cons result results ih =>
    rw [List.map_cons, List.sum_cons, ih]
    simp [violationCount]

theorem oneLine_blocks {results : List ScanResult} (hnames : ∀ result ∈ results, '\n' ∉ result.filename.toList)
    (hlines : ∀ result ∈ results, ∀ d ∈ result.diagnostics, '\n' ∉ d.sourceLine) :
    ∀ block ∈ results.flatMap blocks, block.OneLine := by
  intro block hblock
  obtain ⟨result, hresult, hblock⟩ := List.mem_flatMap.mp hblock
  rcases List.mem_append.mp hblock with hviolation | hhint
  · obtain ⟨d, hd, rfl⟩ := List.mem_map.mp hviolation
    exact ⟨hnames result hresult, hlines result hresult d hd⟩
  · split at hhint
    · rw [List.mem_singleton.mp hhint]
      exact hnames result hresult
    · simp at hhint

/-- The counts of a report on results of scans. -/
theorem agree_of_coherent (color : Bool) {results : List ScanResult}
    (hfixed : ∀ result ∈ results, result.fixed = false)
    (hfix : ∀ result ∈ results, result.fix.isSome = true ↔ result.diagnostics ≠ [])
    (hlines : ∀ result ∈ results, ∀ d ∈ result.diagnostics, '\n' ∉ d.sourceLine) : Agree color results := by
  obtain ⟨⟨parts, hspells, htext⟩, hcounted⟩ := prints_text color results
  rw [countP_isViolation, countP_isHint] at htext hcounted
  refine ⟨results.map resultJson, results.map fun result =>
    (result.diagnostics.length, result.fix.isSome && !result.diagnostics.isEmpty), violationCount results,
    fixableCount results, parts, parse?_json results, ?_, ?_, ?_, htext, hspells, countP_isViolation results,
    countP_isHint results, fun hnames => hcounted (oneLine_blocks hnames hlines)⟩
  · rw [List.map_map, List.map_map]
    exact List.map_congr_left fun result _ => tally?_resultJson result
  · rw [List.map_map]
    exact sum_lengths results
  · rw [List.countP_map, fixableCount, ← List.countP_eq_length_filter]
    apply List.countP_congr
    intro result hresult
    have hfixed := hfixed result hresult
    have hfix := hfix result hresult
    -- one form asks for a fix that is not yet made, the other for a fix and a violation
    rw [hfixed, Bool.not_false, Bool.and_true]
    cases hsome : result.fix.isSome with
    | false => simp [hsome]
    | true => simpa [hsome] using hfix.mp hsome

end Report

/-- Where a scan succeeds, the verdict, the diagnostics and the fix agree with each other and with the imports of the
source. Where all results of a report come from such scans, both forms of the report give the same counts. -/
theorem scan_reports [Stack] :
    (∀ config filename source result, scan config filename source = .ok result → result.Coherent source) ∧
      ∀ color results, (∀ result ∈ results, ∃ config filename source, scan config filename source = .ok result) →
        Report.Agree color results := by
  refine ⟨fun config filename source result h => coherent_of_scan h, ?_⟩
  intro color results h
  apply Report.agree_of_coherent
  · intro result hresult
    obtain ⟨config, filename, source, hscan⟩ := h result hresult
    exact not_fixed_of_scan hscan
  · intro result hresult
    obtain ⟨config, filename, source, hscan⟩ := h result hresult
    exact (coherent_of_scan hscan).fix_iff
  · intro result hresult d hd
    obtain ⟨config, filename, source, hscan⟩ := h result hresult
    exact sourceLine_of_scan hscan hd

/-- The result of a source whose one import is in order. -/
def orderlyResult : ScanResult :=
  ⟨"a.ts", .passed, [], none, false⟩

/-- The edit of a source whose two imports stand in the wrong order without a blank line between them. -/
def swapEdit : Edit :=
  ⟨0, 23, "import 'a'\n\nimport './b'".toList⟩

/-- The result of that source. -/
def crowdedResult : ScanResult :=
  ⟨"b.ts", .rejected, [⟨13, 23, 2, 1, .notSeparated, ['a'], "import 'a'".toList, some swapEdit⟩], some swapEdit, false⟩

section

open ImportOrder.Runtime

theorem scan_reports_mixedResults :
    scan ⟨[], false⟩ "a.ts" "import 'a'\n".toList = .ok orderlyResult ∧
      scan ⟨[], false⟩ "b.ts" "import './b'\nimport 'a'\n".toList = .ok crowdedResult ∧
      crowdedResult.Coherent "import './b'\nimport 'a'\n".toList ∧
      Report.Agree true [crowdedResult, orderlyResult, crowdedResult] := by
  have horderly : scan ⟨[], false⟩ "a.ts" "import 'a'\n".toList = .ok orderlyResult := by decide +kernel
  have hcrowded : scan ⟨[], false⟩ "b.ts" "import './b'\nimport 'a'\n".toList = .ok crowdedResult := by
    decide +kernel
  refine ⟨horderly, hcrowded, scan_reports.1 _ _ _ _ hcrowded, scan_reports.2 _ _ ?_⟩
  intro result hresult
  simp only [List.mem_cons, List.not_mem_nil, or_false] at hresult
  rcases hresult with rfl | rfl | rfl
  · exact ⟨_, _, _, hcrowded⟩
  · exact ⟨_, _, _, horderly⟩
  · exact ⟨_, _, _, hcrowded⟩

end

end ImportOrder
