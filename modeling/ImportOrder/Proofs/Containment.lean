import ImportOrder.Proofs.Independence
import ImportOrder.Proofs.Obstacles
import ImportOrder.Proofs.Reports
import ImportOrder.Runtime

/-!
# Failures of commands

A command tries one thing after another: the files that it is asked for, each in the state that the earlier ones have
left, or standard input, or just its options. A failure that there is a line about is told of on standard error and
makes the exit code that of errors, and the other files are tried all the same; another failure ends the run. So a run
ends with an exit code exactly if there is a line about every failure, and then the exit code tells whether there was
one. Which failure it is depends on what stands in the way.
-/

namespace ImportOrder.Command

open ImportOrder.Action

/-- What a command reports of a failure where no file is scanned. -/
def unnamed? : Failure → Option Text
  | .refused .. => none
  | failure => reported? "" failure

theorem tells_of_unnamed {failure : Failure} {line : Text} (h : unnamed? failure = some line) : failure.Tells line := by
  have hrefused : ∀ refusal path, failure ≠ .refused refusal path := by
    rintro refusal path rfl
    simp [unnamed?] at h
  have hreported : reported? "" failure = unnamed? failure := by
    cases failure with
    | refused refusal path => exact absurd rfl (hrefused refusal path)
    | _ => rfl
  exact tells_of_reported (hreported.trans h) hrefused

/-! ## Trials -/

/-- What comes of one thing that a command tries. -/
inductive Trial where
  /-- A path that cannot be looked up. -/
  | path (failure : Failure)
  /-- A file, scanned when its turn has come. -/
  | file (name : String) (outcome : Except Failure ScanResult)
  /-- Standard input. -/
  | input (outcome : Except Failure ScanResult)
  /-- The options, where nothing is scanned. -/
  | options (outcome : Except Failure Configuration)

namespace Trial

def failure? : Trial → Option Failure
  | path failure => some failure
  | file _ (.error failure) => some failure
  | input (.error failure) => some failure
  | options (.error failure) => some failure
  | file _ (.ok _) | input (.ok _) | options (.ok _) => none

def result? : Trial → Option ScanResult
  | file _ (.ok result) => some result
  | input (.ok result) => some result
  | _ => none

def config? : Trial → Option Configuration
  | options (.ok config) => some config
  | _ => none

/-- The line about a failure. Where no file is scanned there is none about what the system refuses. -/
inductive Tells : Trial → Text → Prop
  | file {name : String} {failure : Failure} {line : Text} : failure.TellsOf name line →
      Tells (file name (.error failure)) line
  | input {failure : Failure} {line : Text} : failure.Tells line → Tells (input (.error failure)) line
  | options {failure : Failure} {line : Text} : failure.Tells line → Tells (options (.error failure)) line

/-- There is no failure, or there is a line about it. -/
def Contained (trial : Trial) : Prop :=
  trial.failure? = none ∨ ∃ line, trial.Tells line

/-- What a command reports of a failure. -/
def line? : Trial → Option Text
  | file name (.error failure) => reported? name failure
  | input (.error failure) | options (.error failure) => unnamed? failure
  | _ => none

theorem tells_of_line? {trial : Trial} {line : Text} (h : trial.line? = some line) : trial.Tells line := by
  match trial, h with
  | file _ (.error _), h => exact .file (tellsOf_of_reported h)
  | input (.error _), h => exact .input (tells_of_unnamed h)
  | options (.error _), h => exact .options (tells_of_unnamed h)

theorem isSome_line?_of_tells {trial : Trial} {line : Text} (h : trial.Tells line) : trial.line?.isSome = true := by
  cases h with
  | file h => exact isSome_reported_of_tellsOf h
  | input h => cases h <;> rfl
  | options h => cases h <;> rfl

theorem contained_iff {trial : Trial} : trial.Contained ↔ trial.failure? = none ∨ trial.line?.isSome = true := by
  apply or_congr_right
  constructor
  · rintro ⟨line, hline⟩
    exact isSome_line?_of_tells hline
  · intro hsome
    obtain ⟨line, hline⟩ := Option.isSome_iff_exists.mp hsome
    exact ⟨line, tells_of_line? hline⟩

theorem line?_eq_none {trial : Trial} (h : trial.failure? = none) : trial.line? = none := by
  match trial, h with
  | file _ (.ok _), _ => rfl
  | input (.ok _), _ => rfl
  | options (.ok _), _ => rfl

theorem result?_eq_none {trial : Trial} {failure : Failure} (h : trial.failure? = some failure) :
    trial.result? = none := by
  match trial, h with
  | path _, _ => rfl
  | file _ (.error _), _ => rfl
  | input (.error _), _ => rfl
  | options (.error _), _ => rfl

end Trial

/-- The files in turn, each scanned in the state that those before it have left, and the state in the end. -/
def fileTrials [Stack] [Yaml.Reader] (clock : Clock) (request : ScanRequest) :
    List String → FileSystem → List Trial × FileSystem
  | [], fs => ([], fs)
  | filename :: rest, fs =>
    let run := runOn (scanFile clock request filename) fs
    let others := fileTrials clock request rest run.2
    (.file filename run.1 :: others.1, others.2)

/-- The files that paths stand for, in turn. A path is looked up when its turn has come. -/
def pathTrials [Stack] [Yaml.Reader] (clock : Clock) (request : ScanRequest) : List String → FileSystem → List Trial
  | [], _ => []
  | path :: rest, fs =>
    match (runOn (SourceFiles.ofPath path) fs).1 with
    | .error failure => [.path failure]
    | .ok files =>
      (fileTrials clock request files fs).1 ++ pathTrials clock request rest (fileTrials clock request files fs).2

/-- Gathers trials, up to the first failure that is not caught. -/
def gather (scans : Scans) : List Trial → Except Failure Scans
  | [] => .ok scans
  | trial :: rest =>
    match trial.failure? with
    | none => gather { scans with results := scans.results ++ trial.result?.toList } rest
    | some failure =>
      match trial.line? with
      | some line => gather { scans with errors := scans.errors ++ [line] } rest
      | none => .error failure

theorem gather_failed {scans : Scans} {trial : Trial} {failure : Failure} {rest : List Trial}
    (h : trial.failure? = some failure) :
    gather scans (trial :: rest) =
      match trial.line? with
      | some line => gather { scans with errors := scans.errors ++ [line] } rest
      | none => .error failure := by
  rw [gather, h]

theorem gather_append (scans : Scans) (trials others : List Trial) :
    gather scans (trials ++ others) =
      match gather scans trials with
      | .ok scans => gather scans others
      | .error failure => .error failure := by
  induction trials generalizing scans with
  | nil => rfl
  | cons trial trials ih =>
    rw [List.cons_append, gather, gather]
    cases trial.failure? with
    | none => exact ih _
    | some failure =>
      cases trial.line? with
      | some line => exact ih _
      | none => rfl

/-- The results and the lines of trials, in their order, behind those that there are. -/
def Scans.extend (scans : Scans) (trials : List Trial) : Scans :=
  { results := scans.results ++ trials.filterMap Trial.result?
    errors := scans.errors ++ trials.filterMap Trial.line? }

/-- Trials can be gathered exactly if they are all contained. -/
theorem gather_eq_ok_iff {scans gathered : Scans} {trials : List Trial} :
    gather scans trials = .ok gathered ↔ (∀ trial ∈ trials, trial.Contained) ∧ gathered = scans.extend trials := by
  induction trials generalizing scans with
  | nil =>
    rw [gather, Except.ok.injEq]
    simp [Scans.extend, eq_comm]
  | cons trial trials ih =>
    rw [gather, List.forall_mem_cons]
    -- a trial has passed, or its failure has a line, or it ends the command
    cases hfailure : trial.failure? with
    | none =>
      have hcontained : trial.Contained := .inl hfailure
      have hextend : ({ scans with results := scans.results ++ trial.result?.toList } : Scans).extend trials =
          scans.extend (trial :: trials) := by
        rw [Scans.extend, Scans.extend, List.filterMap_cons_none (Trial.line?_eq_none hfailure)]
        cases hresult : trial.result? with
        | none => simp [List.filterMap_cons_none hresult]
        | some result => simp [List.filterMap_cons_some hresult]
      dsimp only
      rw [ih, hextend]
      simp [hcontained]
    | some failure =>
      cases hline : trial.line? with
      | some line =>
        have hcontained : trial.Contained := .inr ⟨line, Trial.tells_of_line? hline⟩
        have hextend : ({ scans with errors := scans.errors ++ [line] } : Scans).extend trials =
            scans.extend (trial :: trials) := by
          rw [Scans.extend, Scans.extend, List.filterMap_cons_some hline,
            List.filterMap_cons_none (Trial.result?_eq_none hfailure)]
          simp
        dsimp only
        rw [ih, hextend]
        simp [hcontained]
      | none =>
        have hnot : ¬ trial.Contained := by
          rw [Trial.contained_iff]
          simp [hfailure, hline]
        simp [hnot]

/-! ## Scanning files in turn -/

theorem looks_ofPath (path : String) : Looks (SourceFiles.ofPath path) := by
  apply (looks_lookUp _).bind
  intro found
  split
  · exact .pure _
  · exact .pure _

section

variable (clock : Clock) (request : ScanRequest)

/-- Files are scanned in turn as their trials say. -/
theorem runOn_scanFiles [Stack] [Yaml.Reader] (scans : Scans) (files : List String) (fs : FileSystem) :
    ∃ fs', runOn (scanFiles clock request scans files) fs = (gather scans (fileTrials clock request files fs).1, fs') ∧
      ((gather scans (fileTrials clock request files fs).1).isOk = true →
        fs' = (fileTrials clock request files fs).2) := by
  induction files generalizing scans fs with
  | nil => exact ⟨fs, rfl, fun _ => rfl⟩
  | cons filename rest ih =>
    rw [scanFiles, fileTrials, runOn_bind, runOn_tryCatch, runOn_bind]
    generalize runOn (scanFile clock request filename) fs = run
    obtain ⟨outcome, fs₁⟩ := run
    cases outcome with
    | ok result => exact ih { scans with results := scans.results ++ [result] } fs₁
    | error failure =>
      have hline : (Trial.file filename (.error failure)).line? = reported? filename failure := rfl
      dsimp only
      rw [gather_failed rfl, hline]
      cases reported? filename failure with
      | some line => exact ih { scans with errors := scans.errors ++ [line] } fs₁
      | none => exact ⟨fs₁, rfl, by simp [Except.isOk, Except.toBool]⟩

theorem pathTrials_cons [Stack] [Yaml.Reader] (path : String) (rest : List String) (fs : FileSystem) :
    pathTrials clock request (path :: rest) fs =
      match (runOn (SourceFiles.ofPath path) fs).1 with
      | .error failure => [.path failure]
      | .ok files =>
        (fileTrials clock request files fs).1 ++
          pathTrials clock request rest (fileTrials clock request files fs).2 := by
  rfl

/-- The files of paths are scanned in turn as their trials say. -/
theorem scanPaths_outcome [Stack] [Yaml.Reader] (scans : Scans) (paths : List String) (fs : FileSystem) :
    (runOn (scanPaths clock request scans paths) fs).1 = gather scans (pathTrials clock request paths fs) := by
  induction paths generalizing scans fs with
  | nil => rfl
  | cons path rest ih =>
    rw [scanPaths, pathTrials_cons, runOn_bind]
    have hlooks := looks_ofPath path fs
    generalize runOn (SourceFiles.ofPath path) fs = run at hlooks
    obtain ⟨outcome, fs₁⟩ := run
    dsimp only at hlooks
    subst hlooks
    cases outcome with
    | error failure => rfl
    | ok files =>
      dsimp only
      obtain ⟨fs', hrun, hend⟩ := runOn_scanFiles clock request scans files fs
      rw [gather_append, runOn_bind, hrun]
      cases hgather : gather scans (fileTrials clock request files fs).1 with
      | error failure => rfl
      | ok gathered =>
        rw [hgather] at hend
        rw [← hend rfl]
        exact ih gathered fs'

end

/-! ## What a command tries -/

/-- Scans standard input under the options of the current directory. -/
def scanInput [Stack] [Yaml.Reader] (surroundings : Surroundings) (choices : Choices) (filename : String) :
    Action ScanResult := do
  let options ← Options.resolveWith "." choices.optionsPath choices.aliases choices.byFullPath
  let config ← Options.configure options
  match scan config filename surroundings.stdin with
  | .error error => throw (.ofParse error)
  | .ok result => return result

/-- Settles the configuration of the current directory. -/
def settle [Yaml.Reader] (choices : Choices) : Action Configuration := do
  let options ← Options.resolveWith "." choices.optionsPath choices.aliases none
  Options.configure options

namespace Invocation

/-- Whether the arguments name a command that is to be carried out. -/
def isCommand : Invocation → Bool
  | check .. | fix .. | classify .. => true
  | help | version | refused .. => false

/-- What is asked of files, and the paths that name them. -/
def request? : Invocation → Option (ScanRequest × List String)
  | check choices false .. => some (choices.request false, choices.operands)
  | fix choices => some (choices.request true, choices.operands)
  | _ => none

/-- Everything that an invocation tries, in order. -/
def trials [Stack] [Yaml.Reader] (surroundings : Surroundings) (fs : FileSystem) : Invocation → List Trial
  | check choices true filename _ => [.input (runOn (scanInput surroundings choices filename) fs).1]
  | check choices false _ _ => pathTrials surroundings.clock (choices.request false) choices.operands fs
  | fix choices => pathTrials surroundings.clock (choices.request true) choices.operands fs
  | classify choices => [.options (runOn (settle choices) fs).1]
  | help | version | refused .. => []

def isCheck : Invocation → Bool
  | check .. => true
  | _ => false

/-- The line about a file that was to be fixed. -/
def fixedLine (result : ScanResult) : Text :=
  if result.fixed then "fixed ".toList ++ result.filename.toList ++ ['\n']
  else result.filename.toList ++ " already in canonical order\n".toList

/-- The line about a module path: the path, a tab and the name of its group. -/
def groupLine (config : Configuration) (path : String) : Text :=
  path.toList ++ '\t' :: (config.classify path.toList).name.toList ++ ['\n']

/-- The lines about failures and the report on results: as documents on standard output, or as text behind the lines. -/
def Reports (color : Bool) (results : List ScanResult) (lines : List Text) (output : Output) : Report.Format → Prop
  | .json => output.stderr = lines.flatten ∧ ∃ documents,
      Json.parse? (String.ofList output.stdout) = some (.list documents) ∧
        List.Forall₂ Report.Describes results documents
  | .text => output.stdout = [] ∧ ∃ text, output.stderr = lines.flatten ++ text ∧
      Report.Prints color (results.flatMap Report.blocks) results.length text

/-- What is shown of trials and of the lines about those that have failed: the report of a check, which is left out
where standard input cannot be scanned, or the lines of a fix or of a classification. -/
def Shows (surroundings : Surroundings) (trials : List Trial) (lines : List Text) (output : Output) :
    Invocation → Prop
  | check _ stdin _ format =>
    if stdin = true ∧ lines ≠ [] then output.stdout = [] ∧ output.stderr = lines.flatten
    else Reports (surroundings.terminal.hasColor .standardError) (trials.filterMap Trial.result?) lines output format
  | fix _ => output.stdout = (trials.filterMap Trial.result?).flatMap fixedLine ∧ output.stderr = lines.flatten
  | classify choices =>
    output.stdout = ((trials.filterMap Trial.config?).flatMap fun config =>
        choices.operands.flatMap (groupLine config)) ∧
      output.stderr = lines.flatten
  | help | version | refused .. => True

end Invocation

/-- How a run ends in which there is a line about every failure. -/
structure Ends (surroundings : Surroundings) (invocation : Invocation) (trials : List Trial) (output : Output) :
    Prop where
  error_iff : output.exit = 2 ↔ ∃ trial ∈ trials, trial.failure?.isSome = true
  violations_iff : output.exit = 1 ↔ invocation.isCheck = true ∧ (∀ trial ∈ trials, trial.failure? = none) ∧
    ∃ result ∈ trials.filterMap Trial.result?, result.diagnostics ≠ []
  exit_le : output.exit ≤ 2
  shows : ∃ lines, List.Forall₂ Trial.Tells (trials.filter (·.failure?.isSome)) lines ∧
    invocation.Shows surroundings trials lines output

/-- The failures are told of in their order. -/
theorem forall₂_tells {trials : List Trial} (h : ∀ trial ∈ trials, trial.Contained) :
    List.Forall₂ Trial.Tells (trials.filter (·.failure?.isSome)) (trials.filterMap Trial.line?) := by
  induction trials with
  | nil => exact .nil
  | cons trial trials ih =>
    obtain ⟨htrial, hrest⟩ := List.forall_mem_cons.mp h
    cases hfailure : trial.failure? with
    | none =>
      rw [List.filter_cons_of_neg (by simp [hfailure]), List.filterMap_cons_none (Trial.line?_eq_none hfailure)]
      exact ih hrest
    | some failure =>
      have hsome := (Trial.contained_iff.mp htrial).resolve_left (by simp [hfailure])
      obtain ⟨line, hline⟩ := Option.isSome_iff_exists.mp hsome
      rw [List.filter_cons_of_pos (by simp [hfailure]), List.filterMap_cons_some hline]
      exact .cons (Trial.tells_of_line? hline) (ih hrest)

theorem lines_eq_nil_iff {trials : List Trial} (h : ∀ trial ∈ trials, trial.Contained) :
    trials.filterMap Trial.line? = [] ↔ ∀ trial ∈ trials, trial.failure? = none := by
  rw [List.filterMap_eq_nil_iff]
  constructor
  · intro hline trial htrial
    rcases Trial.contained_iff.mp (h trial htrial) with hnone | hsome
    · exact hnone
    · simp [hline trial htrial] at hsome
  · intro hfailure trial htrial
    exact Trial.line?_eq_none (hfailure trial htrial)

/-- An exit code tells what it should if it is computed from the lines and the results. -/
theorem Ends.of_exit {surroundings : Surroundings} {invocation : Invocation} {trials : List Trial} {output : Output}
    {violated : Bool} (hcontained : ∀ trial ∈ trials, trial.Contained)
    (hexit : output.exit = if trials.filterMap Trial.line? = [] then (if violated then 1 else 0) else 2)
    (hviolated : violated = true ↔
      invocation.isCheck = true ∧ ∃ result ∈ trials.filterMap Trial.result?, result.diagnostics ≠ [])
    (hshows : invocation.Shows surroundings trials (trials.filterMap Trial.line?) output) :
    Ends surroundings invocation trials output := by
  have hlines := lines_eq_nil_iff hcontained
  have hfailed : (∃ trial ∈ trials, trial.failure?.isSome = true) ↔ trials.filterMap Trial.line? ≠ [] := by
    rw [ne_eq, hlines]
    simp [Option.isSome_iff_ne_none]
  have hpassed : (invocation.isCheck = true ∧ (∀ trial ∈ trials, trial.failure? = none) ∧
      ∃ result ∈ trials.filterMap Trial.result?, result.diagnostics ≠ []) ↔
      trials.filterMap Trial.line? = [] ∧ violated = true := by
    rw [hlines, hviolated]
    exact and_left_comm
  -- without a line no trial has failed, and the violations decide
  by_cases hnil : trials.filterMap Trial.line? = []
  · rw [if_pos hnil] at hexit
    refine ⟨?_, ?_, ?_, _, forall₂_tells hcontained, hshows⟩
    · rw [hfailed, hexit]
      cases violated <;> simp [hnil]
    · rw [hpassed, hexit]
      cases violated <;> simp [hnil]
    · rw [hexit]
      cases violated <;> simp
  · rw [if_neg hnil] at hexit
    refine ⟨?_, ?_, ?_, _, forall₂_tells hcontained, hshows⟩
    · rw [hfailed, hexit]
      simp [hnil]
    · rw [hpassed, hexit]
      simp [hnil]
    · omega

theorem outcome_bind_pure {α β : Type} (action : Action α) (f : α → β) (fs : FileSystem) :
    (runOn (action >>= fun a => pure (f a)) fs).1 = (runOn action fs).1.map f := by
  rw [runOn_bind]
  generalize runOn action fs = run
  obtain ⟨outcome, fs'⟩ := run
  cases outcome with
  | ok a => rfl
  | error failure => rfl

/-! ## Checking and fixing files -/

section

variable {surroundings : Surroundings} {choices : Choices} {filename : String} {format : Report.Format}

/-- A report is printed, or its documents are read back. -/
theorem reports_report (scans : Scans) : Invocation.Reports (surroundings.terminal.hasColor .standardError)
    scans.results scans.errors (report surroundings.terminal format scans) format := by
  cases format with
  | json =>
    refine ⟨rfl, _, Report.parse?_json scans.results, ?_⟩
    rw [List.forall₂_map_right_iff, List.forall₂_same]
    exact fun result _ => Report.describes_resultJson result
  | text => exact ⟨rfl, _, rfl, Report.prints_text _ scans.results⟩

theorem ends_report {stdin : Bool} {trials : List Trial} (h : ∀ trial ∈ trials, trial.Contained)
    (hinput : stdin = true → ∀ trial ∈ trials, trial.failure? = none) :
    Ends surroundings (.check choices stdin filename format) trials
      (report surroundings.terminal format (({} : Scans).extend trials)) := by
  have hviolated : ((trials.filterMap Trial.result?).any fun result => !result.diagnostics.isEmpty) = true ↔
      (Invocation.check choices stdin filename format).isCheck = true ∧
        ∃ result ∈ trials.filterMap Trial.result?, result.diagnostics ≠ [] := by
    rw [List.any_eq_true]
    simp only [Invocation.isCheck, true_and, Bool.not_eq_true', List.isEmpty_eq_false_iff]
  refine Ends.of_exit h ?_ hviolated ?_
  · have hexit : (report surroundings.terminal format (({} : Scans).extend trials)).exit =
        if !(trials.filterMap Trial.line?).isEmpty then 2
        else if (trials.filterMap Trial.result?).any (fun result => !result.diagnostics.isEmpty) then 1 else 0 := by
      cases format with
      | json => rfl
      | text => rfl
    rw [hexit]
    cases trials.filterMap Trial.line? with
    | nil => rfl
    | cons line lines => rfl
  · have hlines : ¬ (stdin = true ∧ trials.filterMap Trial.line? ≠ []) := by
      rintro ⟨hstdin, hne⟩
      exact hne ((lines_eq_nil_iff h).mpr (hinput hstdin))
    rw [Invocation.Shows, if_neg hlines]
    exact reports_report (({} : Scans).extend trials)

theorem fixLine_eq (result : ScanResult) : fixLine result = Invocation.fixedLine result := by
  have hfixed : Wording.fixedFile result.filename = "fixed " ++ result.filename := rfl
  have hunchanged : Wording.unchangedFile result.filename = result.filename ++ " already in canonical order" := rfl
  have hending : " already in canonical order\n".toList = " already in canonical order".toList ++ "\n".toList := by
    decide +kernel
  rw [fixLine, Invocation.fixedLine, hfixed, hunchanged]
  cases result.fixed with
  | true =>
    simp only [if_true, String.toList_append]
    rfl
  | false => simp only [Bool.false_eq_true, if_false, String.toList_append, hending, List.append_assoc]

theorem ends_fix {trials : List Trial} (h : ∀ trial ∈ trials, trial.Contained) :
    Ends surroundings (.fix choices) trials
      { exit := if (({} : Scans).extend trials).errors.isEmpty then Settings.exitOk else Settings.exitError
        stdout := (({} : Scans).extend trials).results.flatMap fixLine
        stderr := (({} : Scans).extend trials).errors.flatten } := by
  have hviolated : false = true ↔ (Invocation.fix choices).isCheck = true ∧
      ∃ result ∈ trials.filterMap Trial.result?, result.diagnostics ≠ [] := by
    simp [Invocation.isCheck]
  refine Ends.of_exit h ?_ hviolated ⟨?_, rfl⟩
  · show (if (trials.filterMap Trial.line?).isEmpty then 0 else 2) = _
    cases trials.filterMap Trial.line? with
    | nil => rfl
    | cons line lines => rfl
  · show (trials.filterMap Trial.result?).flatMap fixLine = _
    rw [funext fixLine_eq]

/-- A trial that is all that an invocation tries. -/
theorem ends_single {invocation : Invocation} {trial : Trial} {line : Text} {failure : Failure}
    (hfailure : trial.failure? = some failure) (hline : trial.line? = some line)
    (hshows : invocation.Shows surroundings [trial] [line] { exit := Settings.exitError, stderr := line }) :
    Ends surroundings invocation [trial] { exit := Settings.exitError, stderr := line } := by
  have hlines : [trial].filterMap Trial.line? = [line] := List.filterMap_cons_some hline
  have hresults : [trial].filterMap Trial.result? = [] := List.filterMap_cons_none (Trial.result?_eq_none hfailure)
  have hcontained : ∀ t ∈ [trial], t.Contained := by
    intro t ht
    rw [List.mem_singleton.mp ht]
    exact .inr ⟨line, Trial.tells_of_line? hline⟩
  have hviolated : false = true ↔ invocation.isCheck = true ∧
      ∃ result ∈ [trial].filterMap Trial.result?, result.diagnostics ≠ [] := by
    simp [hresults]
  refine Ends.of_exit hcontained ?_ hviolated ?_
  · rw [hlines]
    rfl
  · rw [hlines]
    exact hshows

end

/-! ## Runs of commands -/

/-- The trials of an invocation decide how its run ends. -/
structure Governs (surroundings : Surroundings) (invocation : Invocation) (trials : List Trial)
    (outcome : Except Failure Output) : Prop where
  ends_iff : (∃ output, outcome = .ok output) ↔ ∀ trial ∈ trials, trial.Contained
  ends : ∀ output, outcome = .ok output → Ends surroundings invocation trials output

section

variable {surroundings : Surroundings} {invocation : Invocation} {outcome : Except Failure Output}

theorem governs_of_gather {trials : List Trial} {f : Scans → Output} (houtcome : outcome = (gather {} trials).map f)
    (hends : (∀ trial ∈ trials, trial.Contained) →
      Ends surroundings invocation trials (f (({} : Scans).extend trials))) :
    Governs surroundings invocation trials outcome := by
  subst houtcome
  cases hgather : gather {} trials with
  | error failure =>
    have hnot : ¬ ∀ trial ∈ trials, trial.Contained := by
      intro hcontained
      have hok : gather {} trials = .ok (({} : Scans).extend trials) := gather_eq_ok_iff.mpr ⟨hcontained, rfl⟩
      rw [hgather] at hok
      simp at hok
    constructor
    · constructor
      · rintro ⟨output, houtput⟩
        simp [Except.map] at houtput
      · exact fun hcontained => absurd hcontained hnot
    · intro output houtput
      simp [Except.map] at houtput
  | ok gathered =>
    obtain ⟨hcontained, rfl⟩ := gather_eq_ok_iff.mp hgather
    constructor
    · exact ⟨fun _ => hcontained, fun _ => ⟨_, rfl⟩⟩
    · intro output houtput
      rw [← Except.ok.inj houtput]
      exact hends hcontained

theorem governs_of_passed {trial : Trial} {output : Output} (hfailure : trial.failure? = none)
    (hends : Ends surroundings invocation [trial] output) : Governs surroundings invocation [trial] (.ok output) := by
  have hcontained : ∀ t ∈ [trial], t.Contained := by simp [Trial.Contained, hfailure]
  constructor
  · exact ⟨fun _ => hcontained, fun _ => ⟨output, rfl⟩⟩
  · intro output' houtput
    rw [← Except.ok.inj houtput]
    exact hends

theorem governs_of_failed {trial : Trial} {failure : Failure} (hfailure : trial.failure? = some failure)
    (hshows : ∀ line, invocation.Shows surroundings [trial] [line] { exit := Settings.exitError, stderr := line }) :
    Governs surroundings invocation [trial]
      (match trial.line? with
      | some line => .ok { exit := Settings.exitError, stderr := line }
      | none => .error failure) := by
  have hcontained : (∀ t ∈ [trial], t.Contained) ↔ trial.line?.isSome = true := by
    rw [List.forall_mem_singleton, Trial.contained_iff]
    simp [hfailure]
  cases hline : trial.line? with
  | none =>
    constructor
    · rw [hcontained, hline]
      simp
    · intro output houtput
      simp at houtput
  | some line =>
    constructor
    · exact ⟨fun _ => hcontained.mpr (by rw [hline]; rfl), fun _ => ⟨_, rfl⟩⟩
    · intro output houtput
      rw [← Except.ok.inj houtput]
      exact ends_single hfailure hline (hshows line)

end

section

variable (surroundings : Surroundings) (choices : Choices) (filename : String) (format : Report.Format)
  (fs : FileSystem)

theorem checkStdin_eq [Stack] [Yaml.Reader] : checkStdin surroundings choices filename format =
    orReport (scanInput surroundings choices filename >>= fun result =>
      pure (report surroundings.terminal format { results := [result] })) := by
  unfold checkStdin scanInput
  simp only [bind_assoc]
  congr 1
  congr 1
  funext options
  congr 1
  funext config
  cases scan config filename surroundings.stdin with
  | error error => rfl
  | ok result => rfl

/-- What is scanned or reported of standard input. -/
theorem checkStdin_outcome [Stack] [Yaml.Reader] : (runOn (checkStdin surroundings choices filename format) fs).1 =
    match (runOn (scanInput surroundings choices filename) fs).1 with
    | .ok result => .ok (report surroundings.terminal format { results := [result] })
    | .error failure =>
      match (Trial.input (.error failure)).line? with
      | some line => .ok { exit := Settings.exitError, stderr := line }
      | none => .error failure := by
  rw [checkStdin_eq, orReport, runOn_tryCatch, runOn_bind]
  generalize runOn (scanInput surroundings choices filename) fs = run
  obtain ⟨outcome, fs'⟩ := run
  cases outcome with
  | ok result => rfl
  | error failure => cases failure <;> rfl

theorem classify_outcome [Yaml.Reader] : (runOn (Command.classify choices) fs).1 =
    match (runOn (settle choices) fs).1 with
    | .ok config => .ok { exit := Settings.exitOk, stdout := choices.operands.flatMap (classifyLine config) }
    | .error failure =>
      match (Trial.options (.error failure)).line? with
      | some line => .ok { exit := Settings.exitError, stderr := line }
      | none => .error failure := by
  unfold Command.classify settle
  rw [runOn_bind, runOn_tryCatch, runOn_bind, runOn_bind]
  generalize runOn (Options.resolveWith "." choices.optionsPath choices.aliases none) fs = run
  obtain ⟨outcome, fs'⟩ := run
  cases outcome with
  | ok options =>
    dsimp only [runOn_pure]
    unfold Options.configure
    cases Configuration.ofEntries options with
    | ok config => rfl
    | error cause => rfl
  | error failure => cases failure <;> rfl

omit fs in
theorem classifyLine_eq (config : Configuration) (path : String) :
    classifyLine config path = Invocation.groupLine config path := by
  simp only [classifyLine, Invocation.groupLine, String.toList_append, List.append_assoc]
  rfl

/-- How the run of an invocation ends is decided by what it tries. -/
theorem Invocation.governs [Stack] [Yaml.Reader] {invocation : Invocation} (hcommand : invocation.isCommand = true) :
    Governs surroundings invocation (invocation.trials surroundings fs) (runOn (invocation.run surroundings) fs).1 := by
  cases invocation with
  | help => simp [isCommand] at hcommand
  | version => simp [isCommand] at hcommand
  | refused program error => simp [isCommand] at hcommand
  | check choices stdin filename format =>
    cases stdin with
    | false =>
      apply governs_of_gather (f := report surroundings.terminal format)
      · show (runOn (scanPaths surroundings.clock (choices.request false) {} choices.operands >>= fun scans =>
          pure (report surroundings.terminal format scans)) fs).1 = _
        rw [outcome_bind_pure, scanPaths_outcome]
        rfl
      · exact fun hcontained => ends_report hcontained (by simp)
    | true =>
      show Governs surroundings _ [.input (runOn (scanInput surroundings choices filename) fs).1]
        (runOn (checkStdin surroundings choices filename format) fs).1
      rw [checkStdin_outcome]
      cases (runOn (scanInput surroundings choices filename) fs).1 with
      | ok result =>
        have hcontained : ∀ trial ∈ [Trial.input (.ok result)], trial.Contained := by
          simp [Trial.Contained, Trial.failure?]
        have hpassed : ∀ trial ∈ [Trial.input (.ok result)], trial.failure? = none := by simp [Trial.failure?]
        exact governs_of_passed rfl (ends_report hcontained fun _ => hpassed)
      | error failure => exact governs_of_failed rfl fun line => by simp [Shows]
  | fix choices =>
    apply governs_of_gather
    · show (runOn (scanPaths surroundings.clock (choices.request true) {} choices.operands >>= fun scans =>
        pure _) fs).1 = _
      rw [outcome_bind_pure, scanPaths_outcome]
      rfl
    · exact ends_fix
  | classify choices =>
    show Governs surroundings _ [.options (runOn (settle choices) fs).1] (runOn (Command.classify choices) fs).1
    rw [classify_outcome]
    cases (runOn (settle choices) fs).1 with
    | ok config =>
      apply governs_of_passed rfl
      have hcontained : ∀ trial ∈ [Trial.options (.ok config)], trial.Contained := by
        simp [Trial.Contained, Trial.failure?]
      have hviolated : false = true ↔ (Invocation.classify choices).isCheck = true ∧
          ∃ result ∈ [Trial.options (.ok config)].filterMap Trial.result?, result.diagnostics ≠ [] := by
        simp [Invocation.isCheck]
      refine Ends.of_exit hcontained rfl hviolated ⟨?_, rfl⟩
      rw [funext (classifyLine_eq config)]
      exact (List.append_nil _).symm
    | error failure => exact governs_of_failed rfl fun line => by simp [Shows, Trial.config?]

end

/-! ## Files that do not disturb each other -/

/-- A scan of a file, by itself, changes what stands at a place. -/
def Changes [Stack] [Yaml.Reader] (clock : Clock) (request : ScanRequest) (fs : FileSystem) (filename : String)
    (place : List String) : Prop :=
  (runOn (scanFile clock request filename) fs).2.fileAt? place ≠ fs.fileAt? place

/-- No scan of one of the files, by itself, brings a new entry into being or changes what a later one reads. -/
structure Independent [Stack] [Yaml.Reader] (clock : Clock) (request : ScanRequest) (files : List String)
    (fs : FileSystem) : Prop where
  shape : ∀ file ∈ files, (runOn (scanFile clock request file) fs).2.root.shape = fs.root.shape
  apart : files.Pairwise fun file later =>
    ∀ place, Reads request later fs place → ¬ Changes clock request fs file place

/-- What comes of a file by itself. -/
def alone [Stack] [Yaml.Reader] (clock : Clock) (request : ScanRequest) (fs : FileSystem) (filename : String) : Trial :=
  .file filename (runOn (scanFile clock request filename) fs).1

section

variable {clock : Clock} {request : ScanRequest} {fs : FileSystem}

/-- A scan in a state that earlier scans have left comes out as it would by itself, and what has changed then is what
each of them would change by itself. -/
theorem scanFile_after [Stack] [Yaml.Reader] {W : List String → Prop} {fs' : FileSystem} {filename : String}
    (hagree : FileSystem.AgreeOff W fs fs') (hreads : ∀ place, Reads request filename fs place → ¬ W place)
    (hshape : (runOn (scanFile clock request filename) fs).2.root.shape = fs.root.shape) :
    (runOn (scanFile clock request filename) fs').1 = (runOn (scanFile clock request filename) fs).1 ∧
      FileSystem.AgreeOff (fun place => W place ∨ Changes clock request fs filename place) fs
        (runOn (scanFile clock request filename) fs').2 := by
  have hparallel : Parallel W fs fs' (scanFile clock request filename) := parallel_scanFile hagree hreads
  obtain ⟨houtcome, hafter⟩ := hparallel
  refine ⟨houtcome, ?_, ?_, ?_⟩
  · rw [hafter.current]
    exact scanFile_current clock request filename fs
  · rw [hafter.shape, hshape]
  · intro place hplace
    rw [not_or] at hplace
    rw [hafter.file place hplace.1]
    exact Classical.not_not.mp hplace.2

theorem fileTrials_alone [Stack] [Yaml.Reader] {W : List String → Prop} {fs' : FileSystem} {files : List String}
    (hagree : FileSystem.AgreeOff W fs fs') (h : Independent clock request files fs)
    (hreads : ∀ file ∈ files, ∀ place, Reads request file fs place → ¬ W place) :
    (fileTrials clock request files fs').1 = files.map (alone clock request fs) ∧
      FileSystem.AgreeOff (fun place => W place ∨ ∃ file ∈ files, Changes clock request fs file place) fs
        (fileTrials clock request files fs').2 := by
  induction files generalizing W fs' with
  | nil =>
    refine ⟨rfl, hagree.mono ?_⟩
    intro place hplace
    exact .inl hplace
  | cons file rest ih =>
    obtain ⟨hlater, hrest⟩ := List.pairwise_cons.mp h.apart
    obtain ⟨houtcome, hafter⟩ := scanFile_after hagree (hreads file (by simp)) (h.shape file (by simp))
    have hindependent : Independent clock request rest fs :=
      ⟨fun later hmem => h.shape later (List.mem_cons_of_mem _ hmem), hrest⟩
    -- what a later file reads is not what this one or an earlier one has changed
    have hunread : ∀ later ∈ rest, ∀ place, Reads request later fs place →
        ¬ (W place ∨ Changes clock request fs file place) := by
      intro later hmem place hplace
      rw [not_or]
      exact ⟨hreads later (List.mem_cons_of_mem _ hmem) place hplace, hlater later hmem place hplace⟩
    obtain ⟨htrials, hagree'⟩ := ih hafter hindependent hunread
    constructor
    · rw [fileTrials, List.map_cons, ← htrials, alone, ← houtcome]
    · rw [fileTrials]
      apply hagree'.mono
      intro place hplace
      rcases hplace with (hplace | hplace) | ⟨later, hmem, hplace⟩
      · exact .inl hplace
      · exact .inr ⟨file, by simp, hplace⟩
      · exact .inr ⟨later, List.mem_cons_of_mem _ hmem, hplace⟩

/-- Checks that keep no log do not disturb each other. -/
theorem independent_of_unlogged [Stack] [Yaml.Reader] {files : List String} (hfix : request.writeFix = false)
    (hlog : ∀ file ∈ files, ∀ inspection, (runOn (inspect request file) fs).1 = .ok inspection →
      Options.logDirectory? inspection.options = none) : Independent clock request files fs := by
  have hsame : ∀ file ∈ files, (runOn (scanFile clock request file) fs).2 = fs :=
    fun file hmem => scanFile_unchanged hfix (hlog file hmem)
  constructor
  · intro file hmem
    rw [hsame file hmem]
  · apply List.pairwise_of_forall_mem_list
    intro file hmem _ _ place _ hchanges
    rw [Changes, hsame file hmem] at hchanges
    exact hchanges rfl

theorem ofPaths_cons {path : String} {paths files : List String}
    (h : (runOn (SourceFiles.ofPaths (path :: paths)) fs).1 = .ok files) :
    ∃ first rest, (runOn (SourceFiles.ofPath path) fs).1 = .ok first ∧
      (runOn (SourceFiles.ofPaths paths) fs).1 = .ok rest ∧ files = first ++ rest := by
  unfold SourceFiles.ofPaths at h ⊢
  rw [outcome_bind_pure] at h
  rw [outcome_bind_pure]
  rw [List.mapM_cons, runOn_bind] at h
  have hlooks := looks_ofPath path fs
  generalize runOn (SourceFiles.ofPath path) fs = run at h hlooks
  obtain ⟨outcome, fs'⟩ := run
  dsimp only at hlooks
  subst hlooks
  cases outcome with
  | error failure => simp [Except.map] at h
  | ok first =>
    dsimp only at h
    rw [outcome_bind_pure] at h
    cases hrest : (runOn (paths.mapM SourceFiles.ofPath) fs).1 with
    | error failure => simp [hrest, Except.map] at h
    | ok rest =>
      rw [hrest] at h
      exact ⟨first, rest.flatten, rfl, rfl, (Except.ok.inj h).symm⟩

theorem pathTrials_alone [Stack] [Yaml.Reader] {W : List String → Prop} {fs' : FileSystem} {paths files : List String}
    (hagree : FileSystem.AgreeOff W fs fs') (hfiles : (runOn (SourceFiles.ofPaths paths) fs).1 = .ok files)
    (h : Independent clock request files fs)
    (hreads : ∀ file ∈ files, ∀ place, Reads request file fs place → ¬ W place) :
    pathTrials clock request paths fs' = files.map (alone clock request fs) := by
  induction paths generalizing W fs' files with
  | nil =>
    obtain rfl : [] = files := Except.ok.inj hfiles
    rfl
  | cons path paths ih =>
    obtain ⟨first, rest, hfirst, hrest, rfl⟩ := ofPaths_cons hfiles
    obtain ⟨hpairFirst, hpairRest, hapart⟩ := List.pairwise_append.mp h.apart
    have hindependent : Independent clock request first fs :=
      ⟨fun file hmem => h.shape file (List.mem_append_left _ hmem), hpairFirst⟩
    have hindependent' : Independent clock request rest fs :=
      ⟨fun file hmem => h.shape file (List.mem_append_right _ hmem), hpairRest⟩
    obtain ⟨htrials, hafter⟩ :=
      fileTrials_alone hagree hindependent fun file hmem => hreads file (List.mem_append_left _ hmem)
    have hunread : ∀ file ∈ rest, ∀ place, Reads request file fs place →
        ¬ (W place ∨ ∃ earlier ∈ first, Changes clock request fs earlier place) := by
      rintro file hmem place hplace (hold | ⟨earlier, hearlier, hchanges⟩)
      · exact hreads file (List.mem_append_right _ hmem) place hplace hold
      · exact hapart earlier hearlier file hmem place hplace hchanges
    rw [pathTrials_cons, (parallel_ofPath path hagree).outcome, hfirst]
    dsimp only
    rw [htrials, ih hafter hrest hindependent' hunread, List.map_append]

end

/-! ## The command line -/

/-- A file fails for what stands in its way, and is scanned if nothing does and no log is kept; standard input fails for
what stands in the way of its text under the options of the current directory. -/
structure FailsByObstacles [Stack] [Yaml.Reader] (surroundings : Surroundings) : Prop where
  obstructed : ∀ request filename fs failure, FileObstacle request filename fs failure →
    alone surroundings.clock request fs filename = .file filename (.error failure)
  unobstructed : ∀ request filename fs, (∀ failure, ¬ FileObstacle request filename fs failure) →
    (∀ options, (runOn (request.optionsOf (Path.normalize filename)) fs).1 = .ok options →
      Options.logDirectory? options = none) →
    ∃ result, alone surroundings.clock request fs filename = .file filename (.ok result)
  input : ∀ choices filename fs failure, (runOn (scanInput surroundings choices filename) fs).1 = .error failure ↔
    TextObstacle (choices.request false) "." filename surroundings.stdin fs failure

theorem failsByObstacles [Stack] [Yaml.Reader] (surroundings : Surroundings) : FailsByObstacles surroundings := by
  refine ⟨?_, ?_, ?_⟩
  · intro request filename fs failure h
    rw [alone, h.scanFile_error]
  · intro request filename fs h hlog
    obtain ⟨result, hresult⟩ := exists_result_of_unobstructed surroundings.clock h hlog
    exact ⟨result, by rw [alone, hresult]⟩
  · intro choices filename fs failure
    have hinput : scanInput surroundings choices filename =
        scanUnder (choices.request false) "." filename surroundings.stdin (fun _ result => result) := rfl
    rw [hinput]
    exact textObstacle_iff

/-- For arguments that name a command, the run ends with an exit code exactly if there is a line about every failure.
Then the exit code is 2 exactly if something failed, 1 exactly if a check found violations and nothing failed, and
otherwise 0, and the lines and the results are shown. Every file is tried, and as long as the files do not disturb each
other, each of them comes out as it would by itself. What stands in the way of a file decides about its failure. -/
theorem run_contained [Stack] [Yaml.Reader] (surroundings : Surroundings) (arguments : List String) (fs : FileSystem)
    (hcommand : (Invocation.ofArguments arguments).isCommand = true) :
    Governs surroundings (Invocation.ofArguments arguments) ((Invocation.ofArguments arguments).trials surroundings fs)
      (runOn (run surroundings arguments) fs).1 ∧
    (∀ request operands files, (Invocation.ofArguments arguments).request? = some (request, operands) →
      (runOn (SourceFiles.ofPaths operands) fs).1 = .ok files → Independent surroundings.clock request files fs →
      (Invocation.ofArguments arguments).trials surroundings fs = files.map (alone surroundings.clock request fs)) ∧
    FailsByObstacles surroundings := by
  refine ⟨Invocation.governs surroundings fs hcommand, ?_, failsByObstacles surroundings⟩
  intro request operands files hrequest hfiles h
  have hagree : FileSystem.AgreeOff (fun _ => False) fs fs := ⟨rfl, rfl, fun _ _ => rfl⟩
  have htrials : pathTrials surroundings.clock request operands fs = files.map (alone surroundings.clock request fs) :=
    pathTrials_alone hagree hfiles h fun _ _ _ _ hnot => hnot
  generalize Invocation.ofArguments arguments = invocation at hrequest ⊢
  cases invocation with
  | help => simp [Invocation.request?] at hrequest
  | version => simp [Invocation.request?] at hrequest
  | refused program error => simp [Invocation.request?] at hrequest
  | classify choices => simp [Invocation.request?] at hrequest
  | check choices stdin filename format =>
    cases stdin with
    | true => simp [Invocation.request?] at hrequest
    | false =>
      obtain ⟨rfl, rfl⟩ := Prod.mk.inj (Option.some.inj hrequest)
      exact htrials
  | fix choices =>
    obtain ⟨rfl, rfl⟩ := Prod.mk.inj (Option.some.inj hrequest)
    exact htrials

/-- A directory with a file whose imports are not in order. -/
def disorderlyDirectory : FileSystem where
  root := .directory [("b.ts", .file "import './b'\nimport 'a'\n".toUTF8)]
  current := []

/-- Surroundings without a terminal. -/
def plainSurroundings : Surroundings where
  clock := ⟨"", 0⟩
  terminal := { noColor := none, stderrIsTerminal := false }
  stdin := []

theorem request?_disorderly : (Invocation.ofArguments ["check", "missing.ts", "b.ts"]).request? =
    some ({}, ["missing.ts", "b.ts"]) := by
  have hfields : (Invocation.ofArguments ["check", "missing.ts", "b.ts"]).request?.map (fun asked =>
      (asked.1.optionsPath, asked.1.aliases, asked.1.byFullPath, asked.1.writeFix, asked.2)) =
      some ("", [], none, false, ["missing.ts", "b.ts"]) := by
    decide +kernel
  obtain ⟨⟨⟨optionsPath, aliases, byFullPath, writeFix⟩, operands⟩, hrequest, hfields⟩ :=
    Option.map_eq_some_iff.mp hfields
  obtain ⟨rfl, rfl, rfl, rfl, rfl⟩ : optionsPath = "" ∧ aliases = [] ∧ byFullPath = none ∧ writeFix = false ∧
      operands = ["missing.ts", "b.ts"] := by
    simpa using hfields
  exact hrequest

section

open ImportOrder.Runtime

/-- A missing file is reported, and the file behind it is checked as if it were the only one. -/
theorem run_contained_disorderly :
    ∃ output, (runOn (run plainSurroundings ["check", "missing.ts", "b.ts"]) disorderlyDirectory).1 = .ok output ∧
      output.exit = 2 ∧
      (Invocation.ofArguments ["check", "missing.ts", "b.ts"]).trials plainSurroundings disorderlyDirectory =
        [alone plainSurroundings.clock {} disorderlyDirectory "missing.ts",
          alone plainSurroundings.clock {} disorderlyDirectory "b.ts"] := by
  obtain ⟨⟨hiff, hends⟩, halone, -⟩ :=
    run_contained plainSurroundings ["check", "missing.ts", "b.ts"] disorderlyDirectory (by decide +kernel)
  have hfiles : (runOn (SourceFiles.ofPaths ["missing.ts", "b.ts"]) disorderlyDirectory).1 =
      .ok ["missing.ts", "b.ts"] := by
    have heval : (runOn (SourceFiles.ofPaths ["missing.ts", "b.ts"]) disorderlyDirectory).1.toOption =
        some ["missing.ts", "b.ts"] := by
      decide +kernel
    cases houtcome : (runOn (SourceFiles.ofPaths ["missing.ts", "b.ts"]) disorderlyDirectory).1 with
    | error failure => simp [houtcome, Except.toOption] at heval
    | ok files => simpa [houtcome, Except.toOption] using heval
  have hunlogged : ∀ file ∈ ["missing.ts", "b.ts"], ∀ inspection,
      (runOn (inspect {} file) disorderlyDirectory).1 = .ok inspection →
        Options.logDirectory? inspection.options = none := by
    have heval : ∀ file ∈ ["missing.ts", "b.ts"], ((runOn (inspect {} file) disorderlyDirectory).1.toOption.bind
        fun inspection => Options.logDirectory? inspection.options) = none := by
      decide +kernel
    intro file hmem inspection hinspect
    simpa [hinspect, Except.toOption] using heval file hmem
  have htrials := halone _ _ _ request?_disorderly hfiles (independent_of_unlogged rfl hunlogged)
  have hcontained : ((alone plainSurroundings.clock {} disorderlyDirectory "missing.ts").line?.isSome = true ∧
      (alone plainSurroundings.clock {} disorderlyDirectory "missing.ts").failure?.isSome = true) ∧
      (alone plainSurroundings.clock {} disorderlyDirectory "b.ts").failure?.isNone = true := by
    decide +kernel
  obtain ⟨output, houtput⟩ := hiff.mpr (by
    rw [htrials]
    simp [Trial.contained_iff, hcontained.1.1, Option.isNone_iff_eq_none.mp hcontained.2])
  refine ⟨output, houtput, ?_, htrials⟩
  rw [(hends output houtput).error_iff, htrials]
  exact ⟨_, by simp, hcontained.1.2⟩

end

end ImportOrder.Command
