import ImportOrder.Proofs.JsonReading
import ImportOrder.Proofs.Layering
import ImportOrder.Proofs.Reports
import ImportOrder.Proofs.Rewriting
import ImportOrder.Runtime

/-!
# What a file scan changes

A scan that succeeds has written its target only if it was to and there was something to fix. If the options that apply
to the file ask for a log, one line has been added to it, and directories may have been made for it. Nothing else has
changed.
-/

namespace ImportOrder

open ImportOrder.Action

/-! ## Directories made for a path -/

namespace FileSystem

/-- All files are as they were, and directories that have come into being stand where a front part of a path leads. -/
structure MadeFor (path : String) (fs fs' : FileSystem) : Prop where
  same : SameFiles fs fs'
  made : ∀ q, fs'.root.kindAt? q = some .directory → fs.root.kindAt? q = some .directory ∨
    ∃ front : String, front.toList <+: path.toList ∧ fs'.locate front = .ok q

instance (path : String) : Std.Refl (MadeFor path) where
  refl fs := ⟨Std.Refl.refl fs, fun _ h => .inl h⟩

instance (path : String) : Trans (MadeFor path) (MadeFor path) (MadeFor path) where
  trans h h' := by
    refine ⟨Trans.trans h.same h'.same, ?_⟩
    intro q hq
    rcases h'.made q hq with hq | hmade
    · rcases h.made q hq with hq | ⟨front, hfront, hlocate⟩
      · exact .inl hq
      · exact .inr ⟨front, hfront, locate_of_directories h'.same.current h'.same.directory hlocate⟩
    · exact .inr hmade

theorem MadeFor.of_front {front path : String} (hfront : front.toList <+: path.toList) {fs fs' : FileSystem}
    (h : MadeFor front fs fs') : MadeFor path fs fs' := by
  refine ⟨h.same, ?_⟩
  intro q hq
  rcases h.made q hq with hq | ⟨inner, hinner, hlocate⟩
  · exact .inl hq
  · exact .inr ⟨inner, hinner.trans hfront, hlocate⟩

end FileSystem

theorem Text.dropEndWhile_isPrefix (p : Char → Bool) (t : Text) : t.dropEndWhile p <+: t := by
  obtain ⟨back, -, hback⟩ := Text.dropEndWhile_split p t
  exact ⟨back, hback.symm⟩

namespace Action

theorem barePath_isPrefix (path : String) : (barePath path).toList <+: path.toList := by
  unfold barePath
  split
  · exact List.prefix_refl _
  · rw [withoutEndSlashes, String.toList_ofList]
    exact Text.dropEndWhile_isPrefix _ _

theorem splitLast_isPrefix (path : String) : (splitLast path).1.toList <+: path.toList := by
  unfold splitLast
  dsimp only
  generalize (path.toList.reverse.takeWhile (· != '/')).reverse.length = n
  have htake : path.toList.take (path.toList.length - n) <+: path.toList := List.take_prefix _ _
  rw [String.toList_ofList]
  split
  · exact htake
  · exact (Text.dropEndWhile_isPrefix _ _).trans htake

theorem cutLast_isPrefix (path : String) : (cutLast path).1.toList <+: path.toList := by
  unfold cutLast
  split
  · exact (splitLast_isPrefix _).trans (splitLast_isPrefix path)
  · exact splitLast_isPrefix path

theorem madeFor_makeDirectory (path : String) : Keeps (FileSystem.MadeFor path) (makeDirectory path) := by
  intro fs
  rw [runOn_makeDirectory]
  split
  · exact Std.Refl.refl fs
  · rename_i place hlocate
    split
    · exact Std.Refl.refl fs
    · rename_i hnone
      have hvacant := FileSystem.vacant_of_locate hlocate (by simp [hnone])
      have hsame := FileSystem.sameFiles_make hvacant hnone
      refine ⟨hsame, ?_⟩
      intro q hq
      by_cases heq : q = place
      · -- the path without the slashes at its end leads to the new directory, now as before
        subst heq
        exact .inr ⟨barePath path, barePath_isPrefix path,
          FileSystem.locate_of_directories hsame.current hsame.directory hlocate⟩
      · dsimp only at hq
        rw [FileSystem.make, Tree.kindAt?_put hvacant Tree.isBare_directory, if_neg heq] at hq
        exact .inl hq

theorem madeFor_makeDirectories (existing : Bool) (bound : Nat) (path : String) :
    Keeps (FileSystem.MadeFor path) (makeDirectories existing bound path) := by
  apply keeps_makeDirectories (R := FileSystem.MadeFor) madeFor_makeDirectory
  intro path fs fs' h
  exact h.of_front (cutLast_isPrefix path)

end Action

/-! ## Options that ask for a log -/

namespace Options

open Value

/-- Options that switch logging on and name a directory for it. -/
def LogsIn (options : List (Value × Value)) (directory : String) : Prop :=
  ∃ logging, lookup loggingKey options = some (.map logging) ∧ lookup loggingEnabledKey logging = some (.bool true) ∧
    lookup loggingDirectoryKey logging = some (.text directory) ∧ directory ≠ ""

theorem LogsIn.ne_empty {options : List (Value × Value)} {directory : String} (h : LogsIn options directory) :
    directory ≠ "" := by
  obtain ⟨logging, -, -, -, hne⟩ := h
  exact hne

/-- Where the logging options are valid, only a true value switches logging on. -/
theorem logDirectory?_eq_some_iff {options : List (Value × Value)} {directory : String}
    (h : ∀ value, lookup loggingKey options = some value → value = .null ∨ loggingFaults value = []) :
    logDirectory? options = some directory ↔ LogsIn options directory := by
  unfold logDirectory? LogsIn
  split
  · rename_i logging hlogging
    have hvalid := (h _ hlogging).resolve_left (by simp)
    simp only [loggingFaults, List.append_eq_nil_iff, faultsAt_eq_nil_iff] at hvalid
    obtain ⟨⟨-, henabled⟩, -⟩ := hvalid
    simp only [hlogging, Option.some.injEq, Value.map.injEq, exists_eq_left']
    split
    · rename_i enabled named hlookup hnamed
      -- a valid switch is null, which counts as off, or a truth value
      rcases henabled enabled hlookup with rfl | hbool
      · simp [hlookup, truthy]
      · obtain ⟨b, rfl⟩ : ∃ b, enabled = .bool b := by
          cases enabled <;> simp [loggingEnabledFaults] at hbool ⊢
        rw [hlookup, hnamed]
        cases b with
        | false => simp [truthy]
        | true =>
          simp only [truthy, Bool.true_and, bne_iff_ne, ne_eq, ite_not, Option.ite_none_left_eq_some,
            Option.some.injEq, Value.text.injEq, true_and]
          constructor
          · rintro ⟨hne, rfl⟩
            exact ⟨rfl, hne⟩
          · rintro ⟨rfl, hne⟩
            exact ⟨hne, rfl⟩
    · rename_i hnot
      constructor
      · intro hnone
        simp at hnone
      · rintro ⟨hlookup, hnamed, -⟩
        exact absurd hnamed (hnot _ _ hlookup)
  · rename_i hnot
    constructor
    · intro hnone
      simp at hnone
    · rintro ⟨logging, hlogging, -⟩
      exact absurd hlogging (hnot logging)

theorem load_valid [Yaml.Reader] {path : String} {options : List (Value × Value)} {fs fs' : FileSystem}
    (h : runOn (load path) fs = (.ok options, fs')) : validate (.map options) = [] := by
  obtain ⟨outcome, fs₁, -, h⟩ := runOn_bind_ok_iff.mp h
  split at h
  · simp [runOn_throw] at h
  · simp [runOn_throw] at h
  · simp [runOn_throw] at h
  · rw [← Except.ok.inj (Prod.mk.inj h).1]
    rfl
  · split at h
    · rename_i entries hvalid
      rw [← Except.ok.inj (Prod.mk.inj h).1]
      exact hvalid
    · split at h
      · simp [runOn_throw] at h
      · simp [runOn_throw] at h

theorem resolve_valid [Yaml.Reader] {path optionsPath : String} {options : List (Value × Value)} {fs fs' : FileSystem}
    (h : runOn (resolve path optionsPath) fs = (.ok options, fs')) : validate (.map options) = [] := by
  unfold resolve at h
  split at h
  · exact load_valid h
  · obtain ⟨found, fs₁, -, h⟩ := runOn_bind_ok_iff.mp h
    split at h
    · exact load_valid h
    · rw [← Except.ok.inj (Prod.mk.inj h).1]
      rfl

/-- Command-line values are not laid on the logging options. -/
theorem lookup_logging_override {options merged : List (Value × Value)} {aliases : List Value}
    {byFullPath : Option Bool} (hvalid : validate (.map options) = [])
    (h : override options aliases byFullPath = .ok merged) : lookup loggingKey merged = lookup loggingKey options := by
  -- where aliases are added to null, there are no merged options
  have hnull : aliases = [] ∨ lookup aliasesKey options ≠ some .null := by
    by_contra hnot
    rw [not_or, not_not] at hnot
    rw [override_null hnot.2 hnot.1] at h
    simp at h
  rw [override_eq (wellTyped_of_valid hvalid) hnull] at h
  rw [← Except.ok.inj h, lookup_withMode (by decide), lookup_withAliases (by decide)]

/-- The options that apply to a path give a directory for the log exactly if they switch logging on there. -/
theorem logDirectory?_of_resolveWith [Yaml.Reader] {path optionsPath : String} {aliases : List String}
    {byFullPath : Option Bool} {options : List (Value × Value)} {fs fs' : FileSystem}
    (h : runOn (resolveWith path optionsPath aliases byFullPath) fs = (.ok options, fs')) (directory : String) :
    logDirectory? options = some directory ↔ LogsIn options directory := by
  obtain ⟨loaded, fs₁, hresolve, h⟩ := runOn_bind_ok_iff.mp h
  have hvalid := resolve_valid hresolve
  split at h
  · rename_i merged hmerged
    obtain rfl : merged = options := Except.ok.inj (Prod.mk.inj h).1
    apply logDirectory?_eq_some_iff
    rw [lookup_logging_override hvalid hmerged]
    simp only [validate, entryFaults, List.append_eq_nil_iff, faultsAt_eq_nil_iff] at hvalid
    exact hvalid.2
  · simp [runOn_throw] at h

end Options

/-! ## The log -/

/-- A line of the log that tells of a result: one JSON object without a line feed in it, and one behind it. It gives the
file, the verdict and the violations, and says whether a fix was written. -/
def LogEntry.Tells (line : Text) (filename : String) (result : ScanResult) : Prop :=
  ∃ body entries, line = body ++ ['\n'] ∧ '\n' ∉ body ∧ Json.parse? (String.ofList line) = some (.map entries) ∧
    Value.lookup "event" entries = some (.text (if result.fixed then "fix" else "scan")) ∧
    Value.lookup "file" entries = some (.text filename) ∧
    Value.lookup "status" entries = some (.text result.status.name) ∧
    Value.lookup "violations" entries = some (.list (result.diagnostics.map fun d => Report.object
      [("line", .int d.line), ("kind", .text d.rule.name), ("module", .text (String.ofList d.path))]))

/-- An entry has a JSON form if its violations have one. -/
theorem LogEntry.plain_toValue {entry : LogEntry} (h : ∀ v ∈ entry.violations, Json.Plain v) (clock : Clock) :
    Json.Plain (entry.toValue clock) := by
  rw [toValue, Report.object_eq]
  refine .map (by simp) ?_
  simp only [List.forall_mem_cons]
  exact ⟨.text _, .text _, .text _, .text _, .list h, .int _, .text _, .int _, by simp⟩

theorem LogEntry.tells_line (clock : Clock) (filename : String) (source : Text) (result : ScanResult) :
    Tells ((ofResult filename source result).line clock) filename result := by
  have hviolations : ∀ v ∈ (ofResult filename source result).violations, Json.Plain v := by
    intro v hv
    obtain ⟨d, -, rfl⟩ := List.mem_map.mp hv
    rw [Report.object_eq]
    refine .map (by simp) ?_
    simp [Json.Plain.int, Json.Plain.text]
  have hplain := plain_toValue hviolations clock
  exact ⟨_, _, rfl, hplain.lineFeed_not_mem_write 0, Json.parse?_write hplain .compact, rfl, rfl, rfl, rfl⟩

namespace FileSystem

/-- A line has been added to the log in a directory, and directories may have been made for it. -/
structure Logged (fs fs' : FileSystem) (directory : String) (files : List String → Option ByteArray) (line : Text) :
    Prop where
  file : ∃ log, fs'.locate (logPath directory) = .ok log ∧
    ∀ q, fs'.fileAt? q = if q = log then some ((files q).getD ByteArray.empty ++ line.bytes) else files q
  kept : ∀ q, fs.root.kindAt? q = some .directory → fs'.root.kindAt? q = some .directory
  made : ∀ q, fs'.root.kindAt? q = some .directory → fs.root.kindAt? q = some .directory ∨
    ∃ front : String, front.toList <+: directory.toList ∧ fs'.locate front = .ok q

/-- Writing a file makes no directory and removes none. -/
theorem directory_write_iff {fs : FileSystem} {place q : List String} {content : ByteArray} (h : fs.root.Vacant place)
    (hnot : fs.root.kindAt? place ≠ some .directory) :
    (fs.write place content).root.kindAt? q = some .directory ↔ fs.root.kindAt? q = some .directory := by
  constructor
  · intro hq
    rw [write, Tree.kindAt?_put h (Tree.isBare_file content)] at hq
    split at hq
    · simp [Tree.kind] at hq
    · exact hq
  · exact directory_write h hnot

end FileSystem

theorem logScan_logged {clock : Clock} {directory : String} {entry : LogEntry} {fs fs' : FileSystem}
    (hne : directory ≠ "") (h : runOn (logScan clock directory entry) fs = (.ok (), fs')) :
    fs'.current = fs.current ∧ fs.Logged fs' directory fs.fileAt? (entry.line clock) := by
  rw [logScan_of_ne hne] at h
  obtain ⟨_, fs₁, hmake, happend⟩ := runOn_bind_ok_iff.mp h
  have hmade := madeFor_makeDirectories true directory.length directory fs
  rw [hmake] at hmade
  rcases runOn_appendText (logPath directory) (entry.line clock) fs₁ with
    ⟨failure, hfail⟩ | ⟨log, hlog, hvacant, hnot, hok⟩
  · simp [hfail] at happend
  · rw [hok] at happend
    rw [← (Prod.mk.inj happend).2]
    -- what the line is added to is as it was before the directories were made
    refine ⟨hmade.same.current, ⟨log, FileSystem.locate_write hvacant hnot hlog, ?_⟩, ?_, ?_⟩
    · intro q
      rw [FileSystem.fileAt?_write hvacant, hmade.same.file, hmade.same.file]
      by_cases hq : q = log
      · rw [if_pos hq, if_pos hq, hq]
        rfl
      · rw [if_neg hq, if_neg hq]
    · intro q hq
      exact (FileSystem.directory_write_iff hvacant hnot).mpr (hmade.same.directory q hq)
    · intro q hq
      rcases hmade.made q ((FileSystem.directory_write_iff hvacant hnot).mp hq) with hq | ⟨front, hfront, hlocate⟩
      · exact .inl hq
      · exact .inr ⟨front, hfront, FileSystem.locate_write hvacant hnot hlocate⟩

/-! ## The scan -/

/-- The files once a scan has written its fix, if it has: the target then holds the source with the fix made. -/
def ScanResult.filesAfter (result : ScanResult) (fs : FileSystem) (target : List String) (source : Text)
    (q : List String) : Option ByteArray :=
  if result.fixed = true ∧ q = target then some (result.applyFix source).bytes else fs.fileAt? q

section

variable {request : ScanRequest} {filename : String} {inspection : Inspection} {fs : FileSystem}

/-- The options and the configuration of an inspection are those that apply to its file. -/
theorem inspect_settled [Stack] [Yaml.Reader] (h : runOn (inspect request filename) fs = (.ok inspection, fs)) :
    ∃ config, runOn (Options.resolveWith (Path.normalize filename) request.optionsPath request.aliases
        request.byFullPath) fs = (.ok inspection.options, fs) ∧
      Configuration.ofEntries inspection.options = .ok config ∧
      scan config filename inspection.source = .ok inspection.result := by
  obtain ⟨source, fs₁, hread, h⟩ := runOn_bind_ok_iff.mp h
  obtain ⟨options, fs₂, hoptions, h⟩ := runOn_bind_ok_iff.mp h
  obtain ⟨config, fs₃, hconfig, h⟩ := runOn_bind_ok_iff.mp h
  obtain rfl := (looks_readText _).eq_of_runOn hread
  obtain rfl := (Options.looks_resolveWith _ _ _ _).eq_of_runOn hoptions
  have hentries : Configuration.ofEntries options = .ok config := by
    unfold Options.configure at hconfig
    split at hconfig
    · rename_i hentries
      rw [hentries, Except.ok.inj (Prod.mk.inj hconfig).1]
    · simp [runOn_throw] at hconfig
  split at h
  · simp [runOn_throw] at h
  · rename_i result hscan
    obtain rfl : ⟨source, options, result⟩ = inspection := Except.ok.inj (Prod.mk.inj h).1
    exact ⟨config, hoptions, hentries, hscan⟩

theorem outcome_diagnostics : (inspection.outcome request).diagnostics = inspection.result.diagnostics := by
  unfold Inspection.outcome
  split
  · rfl
  · rfl

theorem outcome_fix : (inspection.outcome request).fix = inspection.result.fix := by
  unfold Inspection.outcome
  split
  · rfl
  · rfl

theorem current_amended (request : ScanRequest) (inspection : Inspection) (fs : FileSystem) (place : List String) :
    (inspection.amended request fs place).current = fs.current := by
  unfold Inspection.amended
  split
  · rfl
  · rfl

theorem directory_amended_iff (request : ScanRequest) (inspection : Inspection) {place : List String}
    (hvacant : fs.root.Vacant place) (hnot : fs.root.kindAt? place ≠ some .directory) (q : List String) :
    (inspection.amended request fs place).root.kindAt? q = some .directory ↔ fs.root.kindAt? q = some .directory := by
  unfold Inspection.amended
  split
  · exact FileSystem.directory_write_iff hvacant hnot
  · exact Iff.rfl

variable [Stack] {config : Configuration} (hscan : scan config filename inspection.source = .ok inspection.result)
include hscan

theorem fixed_outcome : (inspection.outcome request).fixed = inspection.rewrites request := by
  unfold Inspection.outcome
  split
  · rename_i hrewrites
    exact hrewrites.symm
  · rename_i hnot
    rw [Bool.not_eq_true] at hnot
    rw [not_fixed_of_scan hscan, hnot]

/-- But for the mark that a fix was written, the outcome is the result of the scan. -/
theorem outcome_unmarked : { inspection.outcome request with fixed := false } = inspection.result := by
  have hfixed := not_fixed_of_scan hscan
  unfold Inspection.outcome
  split
  · rw [← hfixed]
  · rw [← hfixed]

theorem fixed_outcome_iff : (inspection.outcome request).fixed = true ↔
    request.writeFix = true ∧ (inspection.outcome request).diagnostics ≠ [] := by
  rw [fixed_outcome hscan, Inspection.rewrites, Bool.and_eq_true, (coherent_of_scan hscan).fix_iff,
    outcome_diagnostics]

/-- The fix is written to the target alone. -/
theorem fileAt?_amended (request : ScanRequest) {place : List String} (hvacant : fs.root.Vacant place) :
    (inspection.amended request fs place).fileAt? =
      (inspection.outcome request).filesAfter fs place inspection.source := by
  funext q
  unfold Inspection.amended ScanResult.filesAfter
  rw [fixed_outcome hscan, ScanResult.applyFix, outcome_fix]
  split
  · rename_i hrewrites
    rw [FileSystem.fileAt?_write hvacant, hrewrites]
    simp only [true_and]
    rfl
  · rename_i hrewrites
    rw [if_neg fun h => hrewrites h.1]

end

/-- What a scan that succeeds has done. It read its target, and the result is that of its text under the options that
apply to it. It has marked the result as fixed if it was to write a fix and there was a diagnostic, and has then put the
mended text in place of the old one. If those options ask for a log, one line that tells of the result has been added to
it, and the directories that have been made are on the way to it. All else is as before. -/
structure ScanFrame [Stack] [Yaml.Reader] (request : ScanRequest) (filename : String) (fs fs' : FileSystem)
    (result : ScanResult) (target : List String) (text : Text) (options : List (Value × Value)) : Prop where
  located : fs.locate (Path.normalize filename) = .ok target
  read : fs.fileAt? target = some text.bytes
  settled : runOn (Options.resolveWith (Path.normalize filename) request.optionsPath request.aliases
    request.byFullPath) fs = (.ok options, fs)
  scanned : ∃ config, Configuration.ofEntries options = .ok config ∧
    scan config filename text.unifyNewlines = .ok { result with fixed := false }
  fixed_iff : result.fixed = true ↔ request.writeFix = true ∧ result.diagnostics ≠ []
  current : fs'.current = fs.current
  unlogged : (∀ directory, ¬Options.LogsIn options directory) →
    (∀ q, fs'.fileAt? q = result.filesAfter fs target text.unifyNewlines q) ∧
      ∀ q, fs'.root.kindAt? q = some .directory ↔ fs.root.kindAt? q = some .directory
  logged : ∀ directory, Options.LogsIn options directory → ∃ line, LogEntry.Tells line filename result ∧
    fs.Logged fs' directory (result.filesAfter fs target text.unifyNewlines) line

/-- A scan that succeeds changes its target and its log, and only where it has to. -/
theorem scanFile_frame [Stack] [Yaml.Reader] {clock : Clock} {request : ScanRequest} {filename : String}
    {fs fs' : FileSystem} {result : ScanResult} (h : runOn (scanFile clock request filename) fs = (.ok result, fs')) :
    ∃ target text options, ScanFrame request filename fs fs' result target text options := by
  obtain ⟨inspection, target, content, hinspect, hplace, hkind, hlog, rfl⟩ := scanFile_ok_cases h
  obtain ⟨-, target', content', text, -, hplace', hkind', htext, hsource, -⟩ := inspect_ok hinspect
  obtain rfl : target = target' := Except.ok.inj (hplace.symm.trans hplace')
  obtain ⟨config, hoptions, hconfig, hscan⟩ := inspect_settled hinspect
  have hdirectory := Options.logDirectory?_of_resolveWith hoptions
  have hcontent : fs.fileAt? target = some (Text.bytes text.toList) := by
    rw [← Text.bytes_of_fromUTF8? htext]
    exact Tree.fileAt?_eq_some_iff.mpr hkind'
  -- what the fix, if it is written, leaves for the log
  have hnot : fs.root.kindAt? target ≠ some .directory := by simp [hkind]
  have hvacant := FileSystem.vacant_of_locate hplace hnot
  have hfiles := fileAt?_amended hscan request hvacant
  have hkept := directory_amended_iff request inspection hvacant hnot
  have hcurrent := current_amended request inspection fs target
  rw [hsource] at hfiles
  unfold Inspection.log at hlog
  cases hlogged : Options.logDirectory? inspection.options with
  | none =>
    rw [hlogged] at hlog
    obtain rfl : inspection.amended request fs target = fs' := (Prod.mk.inj hlog).2
    refine ⟨target, text.toList, inspection.options, hplace, hcontent, hoptions, ⟨config, hconfig, ?_⟩,
      fixed_outcome_iff hscan, hcurrent, ?_, ?_⟩
    · rw [outcome_unmarked hscan, ← hsource, hscan]
    · intro _
      exact ⟨congrFun hfiles, hkept⟩
    · intro directory hlogs
      rw [(hdirectory directory).mpr hlogs] at hlogged
      simp at hlogged
  | some directory =>
    rw [hlogged] at hlog
    have hlogs := (hdirectory directory).mp hlogged
    obtain ⟨hsame, hfile, hmake, hmade⟩ := logScan_logged hlogs.ne_empty hlog
    rw [hfiles] at hfile
    refine ⟨target, text.toList, inspection.options, hplace, hcontent, hoptions, ⟨config, hconfig, ?_⟩,
      fixed_outcome_iff hscan, hsame.trans hcurrent, ?_, ?_⟩
    · rw [outcome_unmarked hscan, ← hsource, hscan]
    · intro hnone
      exact absurd hlogs (hnone directory)
    · intro directory' hlogs'
      obtain rfl : directory = directory' := by
        rw [(hdirectory directory').mpr hlogs'] at hlogged
        exact (Option.some.inj hlogged).symm
      refine ⟨_, LogEntry.tells_line clock filename inspection.source _, hfile, ?_, ?_⟩
      · intro q hq
        exact hmake q ((hkept q).mpr hq)
      · intro q hq
        exact (hmade q hq).imp_left (hkept q).mp

/-- A directory whose scans are logged two directories below, neither of which is there. -/
def loggedDirectory : FileSystem where
  root := .directory [
    ("a.ts", .file "import './b'\nimport 'a'\n".toUTF8),
    (".import_groups.yaml", .file "logging:\n  enabled: true\n  directory: logs/day\n".toUTF8)]
  current := []

/-- Fixing its source file. -/
def loggedFix [Stack] [Yaml.Reader] : Except Failure ScanResult × FileSystem :=
  runOn (scanFile ⟨"", 0⟩ { writeFix := true } "a.ts") loggedDirectory

section

open ImportOrder.Runtime

theorem scanFile_frame_loggedDirectory :
    ∃ result fs' target text options, loggedFix = (.ok result, fs') ∧ result.fixed = true ∧
      (fs'.fileAt? ["a.ts"]).map (·.data.toList) = some "import 'a'\n\nimport './b'\n".toUTF8.data.toList ∧
      Options.LogsIn options "logs/day" ∧
      ScanFrame { writeFix := true } "a.ts" loggedDirectory fs' result target text options := by
  have heval : loggedFix.1.toOption.map ScanResult.fixed = some true ∧
      (loggedFix.2.fileAt? ["a.ts"]).map (·.data.toList) =
        some "import 'a'\n\nimport './b'\n".toUTF8.data.toList := by
    decide +kernel
  have hlogs : (runOn (Options.resolveWith "a.ts" "" [] none) loggedDirectory).1.toOption.bind
      Options.logDirectory? = some "logs/day" := by
    decide +kernel
  cases hrun : loggedFix with
  | mk outcome fs' =>
    cases outcome with
    | error failure => simp [hrun, Except.toOption] at heval
    | ok result =>
      obtain ⟨target, text, options, hframe⟩ := scanFile_frame hrun
      have hfixed : result.fixed = true := by simpa [hrun, Except.toOption] using heval.1
      have hfile := heval.2
      have hsettled := hframe.settled
      rw [hrun] at hfile
      have hname : Path.normalize "a.ts" = "a.ts" := by decide +kernel
      rw [hname] at hsettled
      rw [hsettled] at hlogs
      exact ⟨result, fs', target, text, options, rfl, hfixed, hfile,
        (Options.logDirectory?_of_resolveWith hsettled _).mp hlogs, hframe⟩

end

end ImportOrder
