import ImportOrder.Proofs.Effects
import ImportOrder.Runtime

/-!
# The stages of a file scan

A scan first inspects: it reads its target, settles the options and looks for violations, and changes nothing. Then it
writes the fix, if it is asked to and there is one; this cannot fail, since the target has just been read. Logging comes
last. So a scan that fails has left every file alone, unless it is the log that fails after a fix has been written.
-/

namespace ImportOrder

open ImportOrder.Action

/-! ## Logging -/

/-- A file system holds the given files, but for a line that may have been added to a log. -/
def FileSystem.HoldsUpToLog (fs : FileSystem) (files : List String → Option ByteArray) : Prop :=
  (∀ q, fs.fileAt? q = files q) ∨
    ∃ directory place added, fs.locate (logPath directory) = .ok place ∧
      ∀ q, fs.fileAt? q = if q = place then some ((files q).getD ByteArray.empty ++ added) else files q

section Logging

variable {clock : Clock} {directory : String} {entry : LogEntry} {fs fs' : FileSystem}

theorem logScan_of_ne (h : directory ≠ "") : logScan clock directory entry =
    (makeDirectories true directory.length directory >>= fun _ =>
      appendText (logPath directory) (entry.line clock)) := by
  rw [logScan, if_neg h]

/-- Appending adds to the file at a place that is no directory; a new file begins empty. -/
theorem runOn_appendText_of_locate {path : String} {place : List String} (hplace : fs.locate path = .ok place)
    (hnot : fs.root.kindAt? place ≠ some .directory) (t : Text) : runOn (appendText path t) fs =
      (.ok (), fs.write place ((fs.fileAt? place).getD ByteArray.empty ++ (String.ofList t).toUTF8)) := by
  rw [appendText, runOn_update, hplace]
  dsimp only
  split
  · rename_i hkind
    exact absurd hkind hnot
  · rename_i content hkind
    have hcontent : fs.fileAt? place = some content := Tree.fileAt?_eq_some_iff.mpr hkind
    rw [hcontent, Option.getD_some]
  · rename_i hkind
    have hcontent : fs.fileAt? place = none := by rw [FileSystem.fileAt?, Tree.fileAt?, hkind]
    rw [hcontent, Option.getD_none]

/-- Appending either fails and changes nothing, or writes one file. -/
theorem runOn_appendText (path : String) (t : Text) (fs : FileSystem) :
    (∃ failure, runOn (appendText path t) fs = (.error failure, fs)) ∨
      ∃ place, fs.locate path = .ok place ∧ fs.root.Vacant place ∧ fs.root.kindAt? place ≠ some .directory ∧
        runOn (appendText path t) fs =
          (.ok (), fs.write place ((fs.fileAt? place).getD ByteArray.empty ++ (String.ofList t).toUTF8)) := by
  cases hlocate : fs.locate path with
  | error refusal =>
    rw [appendText, runOn_update, hlocate]
    exact .inl ⟨_, rfl⟩
  | ok place =>
    by_cases hkind : fs.root.kindAt? place = some .directory
    · rw [appendText, runOn_update, hlocate]
      dsimp only
      rw [hkind]
      exact .inl ⟨_, rfl⟩
    · exact .inr ⟨place, rfl, FileSystem.vacant_of_locate hlocate hkind, hkind,
        runOn_appendText_of_locate hlocate hkind t⟩

/-- A log that cannot be written leaves all files alone. -/
theorem logScan_error {failure : Failure} (h : runOn (logScan clock directory entry) fs = (.error failure, fs')) :
    FileSystem.SameFiles fs fs' := by
  by_cases hdirectory : directory = ""
  · rw [logScan, if_pos hdirectory] at h
    simp [runOn_pure] at h
  · rw [logScan_of_ne hdirectory] at h
    have hmade := sameFiles_makeDirectories true directory.length directory fs
    rcases runOn_bind_error_iff.mp h with hmake | ⟨_, fs₁, hmake, happend⟩
    · rw [hmake] at hmade
      exact hmade
    · rw [hmake] at hmade
      rcases runOn_appendText (logPath directory) (entry.line clock) fs₁ with ⟨failure', hfail⟩ | ⟨place, -, -, -, hok⟩
      · rw [hfail] at happend
        rw [← (Prod.mk.inj happend).2]
        exact hmade
      · simp [hok] at happend

/-- Logging adds to the end of one file, to which the path of the log leads. -/
theorem logScan_ok (h : runOn (logScan clock directory entry) fs = (.ok (), fs')) : fs'.HoldsUpToLog fs.fileAt? := by
  by_cases hdirectory : directory = ""
  · rw [logScan, if_pos hdirectory] at h
    rw [← (Prod.mk.inj h).2]
    exact .inl fun q => rfl
  · rw [logScan_of_ne hdirectory] at h
    obtain ⟨_, fs₁, hmake, happend⟩ := runOn_bind_ok_iff.mp h
    have hmade := sameFiles_makeDirectories true directory.length directory fs
    rw [hmake] at hmade
    rcases runOn_appendText (logPath directory) (entry.line clock) fs₁ with
      ⟨failure, hfail⟩ | ⟨place, hplace, hvacant, hnot, hok⟩
    · simp [hfail] at happend
    · rw [hok] at happend
      rw [← (Prod.mk.inj happend).2]
      refine .inr ⟨directory, place, (String.ofList (entry.line clock)).toUTF8,
        FileSystem.locate_write hvacant hnot hplace, ?_⟩
      intro q
      rw [FileSystem.fileAt?_write hvacant, hmade.file, hmade.file]
      by_cases hq : q = place
      · rw [if_pos hq, if_pos hq, hq]
      · rw [if_neg hq, if_neg hq]

end Logging

/-! ## Inspecting, writing and logging -/

/-- What a scan knows before it changes anything. -/
structure Inspection where
  source : Text
  options : List (Value × Value)
  result : ScanResult

/-- Reads a file, settles its options and scans it. -/
def inspect [Stack] [Yaml.Reader] (request : ScanRequest) (filename : String) : Action Inspection := do
  let source ← readText (Path.normalize filename)
  let options ← Options.resolveWith (Path.normalize filename) request.optionsPath request.aliases request.byFullPath
  let config ← Options.configure options
  match scan config filename source with
  | .error error => throw (.ofParse error)
  | .ok result => return ⟨source, options, result⟩

namespace Inspection

variable (request : ScanRequest) (filename : String) (inspection : Inspection)

/-- Whether a fix is written. -/
def rewrites : Bool :=
  request.writeFix && inspection.result.fix.isSome

/-- The source with its fix made. -/
def mended : Text :=
  inspection.result.applyFix inspection.source

/-- The result that the scan gives. -/
def outcome : ScanResult :=
  if inspection.rewrites request then { inspection.result with fixed := true } else inspection.result

/-- Writes the fix, if one is to be written. -/
def amend : Action Unit :=
  if inspection.rewrites request then writeText (Path.normalize filename) inspection.mended else pure ()

/-- Logs the scan, if its options ask for it. -/
def log (clock : Clock) : Action Unit :=
  match Options.logDirectory? inspection.options with
  | some directory => logScan clock directory (.ofResult filename inspection.source (inspection.outcome request))
  | none => pure ()

end Inspection

/-- A scan inspects, amends and logs. -/
theorem scanFile_eq [Stack] [Yaml.Reader] (clock : Clock) (request : ScanRequest) (filename : String) :
    scanFile clock request filename = inspect request filename >>= fun inspection =>
      inspection.amend request filename >>= fun _ =>
        inspection.log request filename clock >>= fun _ => pure (inspection.outcome request) := by
  unfold scanFile inspect
  simp only [bind_assoc]
  congr 1
  funext source
  congr 1
  funext options
  congr 1
  funext config
  cases scan config filename source with
  | error error => rfl
  | ok result =>
    simp only [pure_bind]
    unfold Inspection.amend Inspection.log Inspection.outcome Inspection.rewrites Inspection.mended
    dsimp only
    cases request.writeFix && result.fix.isSome with
    | true =>
      cases Options.logDirectory? options with
      | some directory => rfl
      | none => rfl
    | false =>
      cases Options.logDirectory? options with
      | some directory => rfl
      | none => rfl

theorem looks_inspect [Stack] [Yaml.Reader] (request : ScanRequest) (filename : String) :
    Looks (inspect request filename) := by
  apply (looks_readText _).bind
  intro source
  apply (Options.looks_resolveWith _ _ _ _).bind
  intro options
  apply (Options.looks_configure options).bind
  intro config
  split
  · exact .throw _
  · exact .pure _

section

variable {request : ScanRequest} {filename : String} {inspection : Inspection} {fs fs' : FileSystem}
  {place : List String} {content : ByteArray}

/-- An inspection that succeeds has scanned the text of the file that its path leads to. -/
theorem inspect_ok [Stack] [Yaml.Reader] (h : runOn (inspect request filename) fs = (.ok inspection, fs')) :
    fs' = fs ∧ ∃ place content text config, fs.locate (Path.normalize filename) = .ok place ∧
      fs.root.kindAt? place = some (.file content) ∧ String.fromUTF8? content = some text ∧
      inspection.source = Text.unifyNewlines text.toList ∧
      scan config filename inspection.source = .ok inspection.result := by
  refine ⟨(looks_inspect request filename).eq_of_runOn h, ?_⟩
  obtain ⟨source, fs₁, hread, h⟩ := runOn_bind_ok_iff.mp h
  obtain ⟨options, fs₂, -, h⟩ := runOn_bind_ok_iff.mp h
  obtain ⟨config, fs₃, -, h⟩ := runOn_bind_ok_iff.mp h
  obtain ⟨place, content, text, hplace, hkind, htext, hsource⟩ := readText_ok hread
  split at h
  · simp [runOn_throw] at h
  · rename_i result hscan
    have hinspection : ⟨source, options, result⟩ = inspection := Except.ok.inj (Prod.mk.inj h).1
    subst hinspection
    exact ⟨place, content, text, config, hplace, hkind, htext, hsource, hscan⟩

/-- The file system once a fix is written. -/
def Inspection.amended (inspection : Inspection) (request : ScanRequest) (fs : FileSystem) (place : List String) :
    FileSystem :=
  if inspection.rewrites request then fs.write place (String.ofList inspection.mended).toUTF8 else fs

/-- Where a file could be read, a fix can be written. -/
theorem runOn_amend (hplace : fs.locate (Path.normalize filename) = .ok place)
    (hkind : fs.root.kindAt? place = some (.file content)) :
    runOn (inspection.amend request filename) fs = (.ok (), inspection.amended request fs place) := by
  unfold Inspection.amend Inspection.amended
  split
  · rw [writeText, runOn_update, hplace]
    dsimp only
    rw [hkind]
  · rfl

/-- After its inspection a scan writes its fix, if it is to, and then only the log can fail. -/
theorem runOn_scanFile_of_inspect [Stack] [Yaml.Reader] (clock : Clock)
    (hinspect : runOn (inspect request filename) fs = (.ok inspection, fs))
    (hplace : fs.locate (Path.normalize filename) = .ok place) (hkind : fs.root.kindAt? place = some (.file content)) :
    runOn (scanFile clock request filename) fs =
      runOn (inspection.log request filename clock >>= fun _ => pure (inspection.outcome request))
        (inspection.amended request fs place) := by
  rw [scanFile_eq, runOn_bind, hinspect]
  dsimp only
  rw [runOn_bind, runOn_amend hplace hkind]

/-- A scan that fails does so in its inspection or in its log. -/
theorem scanFile_error_cases [Stack] [Yaml.Reader] {clock : Clock} {failure : Failure}
    (h : runOn (scanFile clock request filename) fs = (.error failure, fs')) :
    runOn (inspect request filename) fs = (.error failure, fs') ∨
      ∃ inspection place content, runOn (inspect request filename) fs = (.ok inspection, fs) ∧
        fs.locate (Path.normalize filename) = .ok place ∧ fs.root.kindAt? place = some (.file content) ∧
        runOn (inspection.log request filename clock) (inspection.amended request fs place) =
          (.error failure, fs') := by
  have hinspected := h
  rw [scanFile_eq] at hinspected
  rcases runOn_bind_error_iff.mp hinspected with hfail | ⟨inspection, fs₁, hinspect, -⟩
  · exact .inl hfail
  · obtain ⟨hfs, place, content, text, config, hplace, hkind, -⟩ := inspect_ok hinspect
    subst hfs
    rw [runOn_scanFile_of_inspect clock hinspect hplace hkind] at h
    rcases runOn_bind_error_iff.mp h with hlog | ⟨_, fs₂, -, hpure⟩
    · exact .inr ⟨inspection, place, content, hinspect, hplace, hkind, hlog⟩
    · simp [runOn_pure] at hpure

/-- A scan that succeeds has gone through all its stages. -/
theorem scanFile_ok_cases [Stack] [Yaml.Reader] {clock : Clock} {result : ScanResult}
    (h : runOn (scanFile clock request filename) fs = (.ok result, fs')) :
    ∃ inspection place content, runOn (inspect request filename) fs = (.ok inspection, fs) ∧
      fs.locate (Path.normalize filename) = .ok place ∧ fs.root.kindAt? place = some (.file content) ∧
      runOn (inspection.log request filename clock) (inspection.amended request fs place) = (.ok (), fs') ∧
      result = inspection.outcome request := by
  have hinspected := h
  rw [scanFile_eq] at hinspected
  obtain ⟨inspection, fs₁, hinspect, -⟩ := runOn_bind_ok_iff.mp hinspected
  obtain ⟨hfs, place, content, text, config, hplace, hkind, -⟩ := inspect_ok hinspect
  subst hfs
  rw [runOn_scanFile_of_inspect clock hinspect hplace hkind] at h
  obtain ⟨_, fs₂, hlog, hpure⟩ := runOn_bind_ok_iff.mp h
  obtain ⟨hresult, hfs⟩ := Prod.mk.inj hpure
  subst hfs
  exact ⟨inspection, place, content, hinspect, hplace, hkind, hlog, (Except.ok.inj hresult).symm⟩

/-- A scan that is to write no fix and keeps no log changes nothing. -/
theorem scanFile_unchanged [Stack] [Yaml.Reader] {clock : Clock} (hfix : request.writeFix = false)
    (hlog : ∀ inspection, (runOn (inspect request filename) fs).1 = .ok inspection →
      Options.logDirectory? inspection.options = none) : (runOn (scanFile clock request filename) fs).2 = fs := by
  rw [scanFile_eq, runOn_bind]
  have hlooks := looks_inspect request filename fs
  generalize runOn (inspect request filename) fs = run at hlooks hlog
  obtain ⟨outcome, fs'⟩ := run
  dsimp only at hlooks
  subst hlooks
  cases outcome with
  | error failure => rfl
  | ok inspection =>
    have hamend : inspection.amend request filename = pure () := by
      rw [Inspection.amend, Inspection.rewrites, hfix]
      rfl
    have hunlogged : inspection.log request filename clock = pure () := by
      rw [Inspection.log, hlog inspection rfl]
    dsimp only
    rw [hamend, hunlogged]
    rfl

theorem log_ok {clock : Clock} (h : runOn (inspection.log request filename clock) fs = (.ok (), fs')) :
    fs'.HoldsUpToLog fs.fileAt? := by
  unfold Inspection.log at h
  split at h
  · exact logScan_ok h
  · rw [← (Prod.mk.inj h).2]
    exact .inl fun q => rfl

end

/-! ## Failures -/

/-- A fix has been written and its log cannot be: the target holds the mended source, and no other file has changed. -/
structure UnloggedFix [Stack] [Yaml.Reader] (clock : Clock) (request : ScanRequest) (filename : String)
    (fs fs' : FileSystem) (failure : Failure) (inspection : Inspection) (place : List String) : Prop where
  inspected : runOn (inspect request filename) fs = (.ok inspection, fs)
  wanted : request.writeFix = true
  fixable : inspection.result.fix.isSome = true
  target : fs.locate (Path.normalize filename) = .ok place
  unlogged : ∃ directory, Options.logDirectory? inspection.options = some directory ∧
    runOn (logScan clock directory (.ofResult filename inspection.source (inspection.outcome request)))
      (fs.write place (String.ofList inspection.mended).toUTF8) = (.error failure, fs')
  file : ∀ q, fs'.fileAt? q = if q = place then some (String.ofList inspection.mended).toUTF8 else fs.fileAt? q
  directory : ∀ q, fs.root.kindAt? q = some .directory → fs'.root.kindAt? q = some .directory

/-- A scan that fails leaves all files alone, unless the failure is that of the log after a fix has been written. -/
theorem scanFile_error_files [Stack] [Yaml.Reader] {clock : Clock} {request : ScanRequest} {filename : String}
    {fs fs' : FileSystem}
    {failure : Failure} (h : runOn (scanFile clock request filename) fs = (.error failure, fs')) :
    FileSystem.SameFiles fs fs' ∨
      ∃ inspection place, UnloggedFix clock request filename fs fs' failure inspection place := by
  rcases scanFile_error_cases h with hinspect | ⟨inspection, place, content, hinspect, hplace, hkind, hlog⟩
  · rw [(looks_inspect request filename).eq_of_runOn hinspect]
    exact .inl (Std.Refl.refl fs)
  · unfold Inspection.log at hlog
    split at hlog
    · rename_i directory hdirectory
      have hsame := logScan_error hlog
      by_cases hrewrites : inspection.rewrites request = true
      · -- the log has been tried on the file system with the mended target
        have hmended := hrewrites
        rw [Inspection.rewrites, Bool.and_eq_true] at hmended
        have hnot : fs.root.kindAt? place ≠ some .directory := by simp [hkind]
        have hvacant := FileSystem.vacant_of_locate hplace hnot
        rw [Inspection.amended, if_pos hrewrites] at hlog hsame
        refine .inr ⟨inspection, place, hinspect, hmended.1, hmended.2, hplace, ⟨directory, hdirectory, hlog⟩, ?_, ?_⟩
        · intro q
          rw [hsame.file, FileSystem.fileAt?_write hvacant]
        · intro q hq
          exact hsame.directory q (FileSystem.directory_write hvacant hnot hq)
      · rw [Inspection.amended, if_neg hrewrites] at hsame
        exact .inl hsame
    · simp [runOn_pure] at hlog

section

open ImportOrder.Runtime

/-- A directory whose log is to be kept where its source file stands. -/
def crowdedDirectory : FileSystem where
  root := .directory [
    ("a.ts", .file "import './b'\nimport 'a'\n".toUTF8),
    (".import_groups.yaml", .file "logging:\n  enabled: true\n  directory: logs/../a.ts\n".toUTF8)]
  current := []

/-- Fixing the source file of that directory. -/
def crowdedFix : Except Failure ScanResult × FileSystem :=
  runOn (scanFile ⟨"", 0⟩ { writeFix := true } "a.ts") crowdedDirectory

theorem crowdedFix_eq : ∃ failure fs', crowdedFix = (.error failure, fs') ∧
    (fs'.fileAt? ["a.ts"]).map (·.data.toList) = some "import 'a'\n\nimport './b'\n".toUTF8.data.toList := by
  have heval : crowdedFix.1.isOk = false ∧
      (crowdedFix.2.fileAt? ["a.ts"]).map (·.data.toList) =
        some "import 'a'\n\nimport './b'\n".toUTF8.data.toList := by
    decide +kernel
  generalize crowdedFix = run at heval ⊢
  obtain ⟨outcome, fs'⟩ := run
  cases outcome with
  | error failure => exact ⟨failure, fs', rfl, heval.2⟩
  | ok result => simp [Except.isOk, Except.toBool] at heval

/-- Fixing that file fails in its log; the file is mended all the same. -/
theorem crowdedFix_files :
    ∃ failure fs' inspection place, crowdedFix = (.error failure, fs') ∧
      UnloggedFix ⟨"", 0⟩ { writeFix := true } "a.ts" crowdedDirectory fs' failure inspection place := by
  obtain ⟨failure, fs', hrun, hfile⟩ := crowdedFix_eq
  rcases scanFile_error_files hrun with hsame | ⟨inspection, place, hfix⟩
  · rw [hsame.file] at hfile
    exact absurd hfile (by decide +kernel)
  · exact ⟨failure, fs', inspection, place, hrun, hfix⟩

theorem scanFile_error_changes_file :
    ¬ ∀ (clock : Clock) (request : ScanRequest) (filename : String) (fs fs' : FileSystem) (failure : Failure),
      runOn (scanFile clock request filename) fs = (.error failure, fs') →
        ∀ place, fs'.fileAt? place = fs.fileAt? place := by
  intro h
  obtain ⟨failure, fs', hrun, hfile⟩ := crowdedFix_eq
  rw [h _ _ _ _ _ _ hrun ["a.ts"]] at hfile
  exact absurd hfile (by decide +kernel)

end

end ImportOrder
