import ImportOrder.Command.Run
import ImportOrder.Proofs.Header
import ImportOrder.Proofs.Positions
import ImportOrder.Proofs.Stages

/-!
# What stands in the way of a scan

A scan fails where its file cannot be read or decoded, where the options cannot be settled, and where the text has a
part that is not read to its end or more open templates than the stack has room for. Of some of these failures the
commands tell in a line, which is spelled out here: that a file cannot be read and what the system says, that a source
cannot be parsed and where it breaks off, or what is wrong with which options file.
-/

namespace ImportOrder

open ImportOrder.Action

/-! ## Obstacles -/

/-- The options of a path, as they are found and overridden. -/
def ScanRequest.optionsOf [Yaml.Reader] (request : ScanRequest) (path : String) : Action (List (Value × Value)) :=
  Options.resolveWith path request.optionsPath request.aliases request.byFullPath

/-- The configuration that a path is scanned under. -/
def ScanRequest.Configures [Yaml.Reader] (request : ScanRequest) (path : String) (fs : FileSystem)
    (config : Configuration) : Prop :=
  ∃ options, (runOn (request.optionsOf path) fs).1 = .ok options ∧ Configuration.ofEntries options = .ok config

/-- What stands in the way of scanning a text under the options of a path. -/
inductive TextObstacle [Stack] [Yaml.Reader] (request : ScanRequest) (path filename : String) (text : Text)
    (fs : FileSystem) : Failure → Prop
  | options {failure : Failure} : (runOn (request.optionsOf path) fs).1 = .error failure →
      TextObstacle request path filename text fs failure
  | aliases {options : List (Value × Value)} {cause : NotIterable} :
      (runOn (request.optionsOf path) fs).1 = .ok options → Configuration.ofEntries options = .error cause →
      TextObstacle request path filename text fs (.aliases cause)
  | part {config : Configuration} {error : SourceError} (hpart : error.part ≠ .nesting) :
      request.Configures path fs config → Document.parse text = .error error →
      TextObstacle request path filename text fs (.source ⟨if filename = "" then "<stdin>" else filename, error⟩ hpart)
  | nesting {config : Configuration} {error : SourceError} : request.Configures path fs config →
      Document.parse text = .error error → error.part = .nesting → TextObstacle request path filename text fs .tooDeep

/-- What stands in the way of scanning a file. -/
inductive FileObstacle [Stack] [Yaml.Reader] (request : ScanRequest) (filename : String) (fs : FileSystem) :
    Failure → Prop
  | path {refusal : Refusal} : fs.locate (Path.normalize filename) = .error refusal →
      FileObstacle request filename fs (.refused refusal (Path.normalize filename))
  | missing {place : List String} : fs.locate (Path.normalize filename) = .ok place → fs.root.kindAt? place = none →
      FileObstacle request filename fs (.refused .notFound (Path.normalize filename))
  | directory {place : List String} : fs.locate (Path.normalize filename) = .ok place →
      fs.root.kindAt? place = some .directory →
      FileObstacle request filename fs (.refused .isDirectory (Path.normalize filename))
  | undecodable {place : List String} {content : ByteArray} : fs.locate (Path.normalize filename) = .ok place →
      fs.root.kindAt? place = some (.file content) → String.fromUTF8? content = none →
      FileObstacle request filename fs (.undecodable (Path.normalize filename))
  | text {place : List String} {content : ByteArray} {text : String} {failure : Failure} :
      fs.locate (Path.normalize filename) = .ok place → fs.root.kindAt? place = some (.file content) →
      String.fromUTF8? content = some text →
      TextObstacle request (Path.normalize filename) filename (Text.unifyNewlines text.toList) fs failure →
      FileObstacle request filename fs failure

section

variable {request : ScanRequest} {path filename : String} {text : Text} {fs : FileSystem} {failure : Failure}

theorem Failure.ofParse_nesting {error : ParseError} (h : error.error.part = .nesting) : ofParse error = .tooDeep :=
  dif_pos h

theorem Failure.ofParse_part {error : ParseError} (h : error.error.part ≠ .nesting) :
    ofParse error = .source error h :=
  dif_neg h

theorem scan_error [Stack] {config : Configuration} {error : SourceError} (h : Document.parse text = .error error) :
    scan config filename text = .error ⟨if filename = "" then "<stdin>" else filename, error⟩ := by
  unfold scan
  rw [h]
  rfl

/-- Scans a text under the options of a path, and makes something of the result. -/
def scanUnder [Stack] [Yaml.Reader] {α : Type} (request : ScanRequest) (path filename : String) (text : Text)
    (next : List (Value × Value) → ScanResult → α) : Action α := do
  let options ← request.optionsOf path
  let config ← Options.configure options
  match scan config filename text with
  | .error error => throw (.ofParse error)
  | .ok result => return next options result

section

variable [Stack] [Yaml.Reader] {α : Type} {next : List (Value × Value) → ScanResult → α}

/-- The options are found first, then they make a configuration, and the text is scanned last. -/
theorem outcome_scanUnder :
    (runOn (scanUnder request path filename text next) fs).1 =
      match (runOn (request.optionsOf path) fs).1 with
      | .error failure => .error failure
      | .ok options =>
        match Configuration.ofEntries options with
        | .error cause => .error (.aliases cause)
        | .ok config =>
          match scan config filename text with
          | .error error => .error (.ofParse error)
          | .ok result => .ok (next options result) := by
  unfold scanUnder
  rw [runOn_bind]
  generalize runOn (request.optionsOf path) fs = run
  obtain ⟨outcome, fs₁⟩ := run
  cases outcome with
  | error failure => rfl
  | ok options =>
    dsimp only
    rw [runOn_bind]
    unfold Options.configure
    cases Configuration.ofEntries options with
    | error cause => rfl
    | ok config =>
      dsimp only [runOn_pure]
      cases scan config filename text with
      | error error => rfl
      | ok result => rfl

theorem ScanRequest.Configures.scanUnder_error {config : Configuration} {error : SourceError}
    (h : request.Configures path fs config) (hparse : Document.parse text = .error error) :
    (runOn (scanUnder request path filename text next) fs).1 =
      .error (.ofParse ⟨if filename = "" then "<stdin>" else filename, error⟩) := by
  obtain ⟨options, hoptions, hconfig⟩ := h
  rw [outcome_scanUnder, hoptions]
  dsimp only
  rw [hconfig]
  dsimp only
  rw [scan_error hparse]

theorem TextObstacle.of_parse {config : Configuration} {error : SourceError}
    (h : request.Configures path fs config) (hparse : Document.parse text = .error error) :
    TextObstacle request path filename text fs
      (.ofParse ⟨if filename = "" then "<stdin>" else filename, error⟩) := by
  by_cases hpart : error.part = .nesting
  · rw [Failure.ofParse_nesting hpart]
    exact .nesting h hparse hpart
  · rw [Failure.ofParse_part hpart]
    exact .part hpart h hparse

theorem TextObstacle.scanUnder_error (h : TextObstacle request path filename text fs failure) :
    (runOn (scanUnder request path filename text next) fs).1 = .error failure := by
  cases h with
  | options hoptions => rw [outcome_scanUnder, hoptions]
  | aliases hoptions hcause =>
    rw [outcome_scanUnder, hoptions]
    dsimp only
    rw [hcause]
  | part hpart hconfigures hparse =>
    rw [hconfigures.scanUnder_error hparse, Failure.ofParse_part hpart]
  | nesting hconfigures hparse hpart =>
    rw [hconfigures.scanUnder_error hparse, Failure.ofParse_nesting hpart]

/-- Scanning a text under the options of a path fails exactly for an obstacle. -/
theorem textObstacle_iff : (runOn (scanUnder request path filename text next) fs).1 = .error failure ↔
    TextObstacle request path filename text fs failure := by
  refine ⟨fun h => ?_, TextObstacle.scanUnder_error⟩
  rw [outcome_scanUnder] at h
  split at h
  · rename_i failure' hoptions
    exact .options (hoptions.trans (congrArg _ (Except.error.inj h)))
  · rename_i options hoptions
    split at h
    · rename_i cause hcause
      rw [← Except.error.inj h]
      exact .aliases hoptions hcause
    · rename_i config hconfig
      cases hparse : Document.parse text with
      | ok document => simp [scan_of_parse hparse] at h
      | error error =>
        rw [scan_error hparse] at h
        rw [← Except.error.inj h]
        exact .of_parse ⟨options, hoptions, hconfig⟩ hparse

end

/-- A file is inspected by reading its text and scanning it under the options of its path. -/
theorem inspect_eq [Stack] [Yaml.Reader] : inspect request filename = readText (Path.normalize filename) >>= fun text =>
    scanUnder request (Path.normalize filename) filename text (fun options result => ⟨text, options, result⟩) :=
  rfl

theorem FileObstacle.inspect_error [Stack] [Yaml.Reader] (h : FileObstacle request filename fs failure) :
    (runOn (inspect request filename) fs).1 = .error failure := by
  rw [inspect_eq]
  unfold readText
  simp only [bind_assoc]
  rw [runOn_bind, runOn_readBytes]
  cases h with
  | path hplace => rw [hplace]
  | missing hplace hkind => simp only [hplace, hkind]
  | directory hplace hkind => simp only [hplace, hkind]
  | undecodable hplace hkind htext =>
    simp only [hplace, hkind, htext]
    rfl
  | text hplace hkind htext hobstacle =>
    simp only [hplace, hkind, htext]
    exact hobstacle.scanUnder_error

/-- The inspection of a file fails exactly for an obstacle. -/
theorem fileObstacle_iff [Stack] [Yaml.Reader] :
    (runOn (inspect request filename) fs).1 = .error failure ↔ FileObstacle request filename fs failure := by
  refine ⟨fun h => ?_, FileObstacle.inspect_error⟩
  rw [inspect_eq] at h
  unfold readText at h
  simp only [bind_assoc] at h
  rw [runOn_bind, runOn_readBytes] at h
  cases hplace : fs.locate (Path.normalize filename) with
  | error refusal =>
    simp only [hplace, Except.error.injEq] at h
    rw [← h]
    exact .path hplace
  | ok place =>
    cases hkind : fs.root.kindAt? place with
    | none =>
      simp only [hplace, hkind, Except.error.injEq] at h
      rw [← h]
      exact .missing hplace hkind
    | some kind =>
      cases kind with
      | directory =>
        simp only [hplace, hkind, Except.error.injEq] at h
        rw [← h]
        exact .directory hplace hkind
      | file content =>
        cases htext : String.fromUTF8? content with
        | none =>
          simp only [hplace, hkind, htext] at h
          rw [← Except.error.inj h]
          exact .undecodable hplace hkind htext
        | some text =>
          simp only [hplace, hkind, htext] at h
          exact .text hplace hkind htext (textObstacle_iff.mp h)

/-- What stands in the way of a file keeps it from being scanned. -/
theorem FileObstacle.scanFile_error [Stack] [Yaml.Reader] (clock : Clock)
    (h : FileObstacle request filename fs failure) :
    (runOn (scanFile clock request filename) fs).1 = .error failure := by
  have hinspect := h.inspect_error
  rw [scanFile_eq, runOn_bind]
  generalize runOn (inspect request filename) fs = run at hinspect ⊢
  obtain ⟨outcome, fs₁⟩ := run
  dsimp only at hinspect
  rw [hinspect]

theorem optionsOf_of_inspect [Stack] [Yaml.Reader] {inspection : Inspection} {fs' : FileSystem}
    (h : runOn (inspect request filename) fs = (.ok inspection, fs')) :
    (runOn (request.optionsOf (Path.normalize filename)) fs).1 = .ok inspection.options := by
  obtain ⟨source, fs₁, hread, hrest⟩ := runOn_bind_ok_iff.mp h
  obtain rfl := (looks_readText _).eq_of_runOn hread
  obtain ⟨options, fs₂, hoptions, hrest⟩ := runOn_bind_ok_iff.mp hrest
  obtain ⟨config, fs₃, -, hrest⟩ := runOn_bind_ok_iff.mp hrest
  rw [ScanRequest.optionsOf, hoptions]
  split at hrest
  · simp [runOn_throw] at hrest
  · rw [← Except.ok.inj (Prod.mk.inj hrest).1]

/-- Where nothing stands in the way and no log is kept, a file is scanned. -/
theorem exists_result_of_unobstructed [Stack] [Yaml.Reader] (clock : Clock)
    (h : ∀ failure, ¬ FileObstacle request filename fs failure)
    (hlog : ∀ options, (runOn (request.optionsOf (Path.normalize filename)) fs).1 = .ok options →
      Options.logDirectory? options = none) :
    ∃ result, (runOn (scanFile clock request filename) fs).1 = .ok result := by
  cases houtcome : (runOn (scanFile clock request filename) fs).1 with
  | ok result => exact ⟨result, rfl⟩
  | error failure =>
    have hrun : runOn (scanFile clock request filename) fs =
        (.error failure, (runOn (scanFile clock request filename) fs).2) := Prod.ext houtcome rfl
    rcases scanFile_error_cases hrun with hinspect | ⟨inspection, place, content, hinspect, -, -, hfailed⟩
    · exact absurd (fileObstacle_iff.mp (congrArg Prod.fst hinspect)) (h failure)
    · unfold Inspection.log at hfailed
      simp [hlog _ (optionsOf_of_inspect hinspect), runOn_pure] at hfailed

end

/-! ## What is said of failures -/

/-- The number and the words of the error that the system meets a path with. A path with a NUL does not get there. -/
def Refusal.systemError? : Refusal → Option (Nat × String)
  | .notFound => some (2, "No such file or directory")
  | .alreadyExists => some (17, "File exists")
  | .notDirectory => some (20, "Not a directory")
  | .isDirectory => some (21, "Is a directory")
  | .nameTooLong => some (36, "File name too long")
  | .nulInPath => none

/-- A path between quotes: as it is, where all its characters can be shown and none is a quote or a backslash. -/
def Quotes (path : String) (t : Text) : Prop :=
  ∃ quote inner, (quote = '\'' ∨ quote = '"') ∧ t = quote :: inner ++ [quote] ∧
    ((∀ c ∈ path.toList, 0x20 ≤ c.toNat ∧ c.toNat < 0x7f ∧ c ≠ '\'' ∧ c ≠ '"' ∧ c ≠ '\\') → inner = path.toList)

/-- What a part that is not read to its end is called. -/
def Source.Part.words : Source.Part → String
  | .comment => "comment"
  | .string => "string literal"
  | .template | .nesting => "template literal"
  | .declaration => "import declaration"
  | .attributes => "import attributes"

/-- What a fault of options is about: the option, or a key that is none. -/
def OptionFault.subject : OptionFault → String
  | .notMap _ => "Options "
  | .unknownKey _ => "Unknown option: "
  | .aliasPrefixType _ => "'alias-prefix' "
  | .aliasesType _ | .aliasEntry _ => "'aliases' "
  | .byFullPathType _ => "'alphabetical-by-full-path' "
  | .loggingType _ => "'logging' "
  | .unknownLoggingKey _ => "Unknown logging option: "
  | .loggingEnabledType _ => "'logging.enabled' "
  | .loggingDirectory _ => "'logging.directory' "

/-- The line about a source that cannot be parsed, or about an options file that cannot be used. -/
inductive Failure.Tells : Failure → Text → Prop
  | source {error : ParseError} {hpart : error.error.part ≠ .nesting} : Tells (.source error hpart)
      ("  Failed to parse ".toList ++ error.filename.toList ++ ": unterminated ".toList ++
        error.error.part.words.toList ++ " at offset ".toList ++ Text.decimal error.error.offset ++ ['\n'])
  | options {path : String} {faults : List OptionFault} {parts : List Text} :
      List.Forall₂ (fun fault part => fault.subject.toList <+: part) faults parts → Tells (.options path faults)
        ("  Invalid options in ".toList ++ path.toList ++ ": ".toList ++ "; ".toList.intercalate parts ++ ['\n'])
  | yaml {path reason : String} : Tells (.yaml path reason)
      ("  Invalid options in ".toList ++ path.toList ++ ": ".toList ++ reason.toList ++ ['\n'])

/-- The line about a file that cannot be scanned. -/
inductive Failure.TellsOf (filename : String) : Failure → Text → Prop
  | system {refusal : Refusal} {path words : String} {number : Nat} {quoted : Text} :
      refusal.systemError? = some (number, words) → Quotes path quoted → TellsOf filename (.refused refusal path)
        ("  Cannot read ".toList ++ filename.toList ++ ": [Errno ".toList ++ Text.decimal number ++ "] ".toList ++
          words.toList ++ ": ".toList ++ quoted ++ ['\n'])
  | other {failure : Failure} {line : Text} : failure.Tells line → TellsOf filename failure line

theorem quoteFor_eq (t : Text) : Quoted.quoteFor t = '\'' ∨ Quoted.quoteFor t = '"' := by
  unfold Quoted.quoteFor
  split
  · exact .inr rfl
  · exact .inl rfl

theorem escape_plain {quote c : Char} (hquote : quote = '\'' ∨ quote = '"')
    (h : 0x20 ≤ c.toNat ∧ c.toNat < 0x7f ∧ c ≠ '\'' ∧ c ≠ '"' ∧ c ≠ '\\') : Quoted.escape quote c = [c] := by
  obtain ⟨hfirst, hlast, hsingle, hdouble, hback⟩ := h
  have hne : ∀ d : Char, d.toNat < 0x20 → c ≠ d := by
    rintro d hd rfl
    omega
  have hmark : c ≠ quote := by
    rcases hquote with rfl | rfl
    · exact hsingle
    · exact hdouble
  have hprinted : isPrintable c = true := by
    rw [isPrintable, if_pos (by omega)]
    simp [hfirst, hlast]
  rw [Quoted.escape, if_neg (by simp [hmark, hback]), if_neg (hne _ (by decide)), if_neg (hne _ (by decide)),
    if_neg (hne _ (by decide)), if_pos hprinted]

theorem quotes_ofString (path : String) : Quotes path (Quoted.ofString path).toList := by
  refine ⟨Quoted.quoteFor path.toList, path.toList.flatMap (Quoted.escape (Quoted.quoteFor path.toList)),
    quoteFor_eq _, ?_, ?_⟩
  · simp [Quoted.ofString, Quoted.encode]
  · intro hplain
    have hescape : ∀ c ∈ path.toList, Quoted.escape (Quoted.quoteFor path.toList) c = [c] :=
      fun c hc => escape_plain (quoteFor_eq _) (hplain c hc)
    rw [List.flatMap_congr hescape, List.flatMap_singleton']

theorem systemError?_eq (refusal : Refusal) : refusal ≠ .nulInPath →
    ∃ number words, refusal.systemError? = some (number, words) ∧
      refusal.description.toList = "[Errno ".toList ++ Text.decimal number ++ "] ".toList ++ words.toList := by
  cases refusal with
  | nulInPath => exact fun h => absurd rfl h
  | _ => exact fun _ => ⟨_, _, rfl, by decide +kernel⟩

theorem subject_message (fault : OptionFault) : fault.subject.toList <+: fault.message.toList := by
  have hopening : ∃ front rest, fault.message = front ++ rest ∧ fault.subject.toList <+: front.toList := by
    cases fault <;> refine ⟨_, _, rfl, ?_⟩ <;> simp only [OptionFault.subject] <;> decide +kernel
  obtain ⟨front, rest, hmessage, hsubject⟩ := hopening
  rw [hmessage, String.toList_append]
  exact hsubject.trans (List.prefix_append _ _)

theorem toList_toString_nat (n : Nat) : (toString n).toList = Text.decimal n := by
  rw [← Text.toList_toString]
  rfl

theorem message_source {error : ParseError} (hpart : error.error.part ≠ .nesting) :
    error.message.toList = "Failed to parse ".toList ++ error.filename.toList ++ ": unterminated ".toList ++
      error.error.part.words.toList ++ " at offset ".toList ++ Text.decimal error.error.offset := by
  have hname : error.error.part.name = error.error.part.words := by
    cases error.error.part <;> rfl
  have hcolon : ": unterminated ".toList = ": ".toList ++ "unterminated ".toList := by decide +kernel
  have hmessage : error.message = "Failed to parse " ++ error.filename ++ ": " ++ error.error.message := rfl
  rw [hmessage, SourceError.message, if_neg hpart, hname]
  simp only [String.toList_append, toList_toString_nat, hcolon, List.append_assoc]

namespace Command

theorem toList_errorLine (message : String) : errorLine message = "  ".toList ++ message.toList ++ ['\n'] := by
  simp only [errorLine, String.toList_append]
  rfl

theorem forall₂_subject (faults : List OptionFault) :
    List.Forall₂ (fun (fault : OptionFault) part => fault.subject.toList <+: part) faults
      ((faults.map OptionFault.message).map String.toList) := by
  rw [List.map_map, List.forall₂_map_right_iff, List.forall₂_same]
  exact fun fault _ => subject_message fault

/-- What a command reports of a failure that every command reports is the line about it. -/
theorem tells_of_reported {filename : String} {failure : Failure} {line : Text}
    (h : reported? filename failure = some line) (hrefused : ∀ refusal path, failure ≠ .refused refusal path) :
    failure.Tells line := by
  have hopening : "  Invalid options in ".toList = "  ".toList ++ "Invalid options in ".toList := by decide +kernel
  have hopening' : "  Failed to parse ".toList = "  ".toList ++ "Failed to parse ".toList := by decide +kernel
  cases failure with
  | refused refusal path => exact absurd rfl (hrefused refusal path)
  | undecodable | scalar | tooDeep | aliases => simp [reported?] at h
  | source error hpart =>
    obtain rfl : errorLine error.message = line := Option.some.inj h
    rw [toList_errorLine, message_source hpart]
    have htells : (Failure.source error hpart).Tells _ := .source
    simpa only [hopening', List.append_assoc] using htells
  | options path faults =>
    obtain rfl : errorLine (Failure.options path faults).message = line := Option.some.inj h
    have hmessage : (Failure.options path faults).message =
        "Invalid options in " ++ path ++ ": " ++ "; ".intercalate (faults.map OptionFault.message) := rfl
    have htells : (Failure.options path faults).Tells _ := .options (forall₂_subject faults)
    rw [toList_errorLine, hmessage]
    simpa only [String.toList_append, String.toList_intercalate, hopening, List.append_assoc] using htells
  | yaml path reason =>
    obtain rfl : errorLine (Failure.yaml path reason).message = line := Option.some.inj h
    have hmessage : (Failure.yaml path reason).message = "Invalid options in " ++ path ++ ": " ++ reason := rfl
    have htells : (Failure.yaml path reason).Tells _ := .yaml
    rw [toList_errorLine, hmessage]
    simpa only [String.toList_append, hopening, List.append_assoc] using htells

/-- What a command reports is the line about the failure. -/
theorem tellsOf_of_reported {filename : String} {failure : Failure} {line : Text}
    (h : reported? filename failure = some line) : failure.TellsOf filename line := by
  by_cases hrefused : ∃ refusal path, failure = .refused refusal path
  · obtain ⟨refusal, path, rfl⟩ := hrefused
    have hnul : refusal ≠ .nulInPath := by
      rintro rfl
      simp [reported?] at h
    obtain ⟨number, words, hsystem, hdescription⟩ := systemError?_eq refusal hnul
    have hopening : "  Cannot read ".toList = "  ".toList ++ "Cannot read ".toList := by decide +kernel
    have herrno : ": [Errno ".toList = ": ".toList ++ "[Errno ".toList := by decide +kernel
    have hline : errorLine (Wording.fileError filename (Failure.refused refusal path).message) = line := by
      cases refusal with
      | nulInPath => exact absurd rfl hnul
      | _ => exact Option.some.inj h
    have hmessage : Wording.fileError filename (Failure.refused refusal path).message =
        "Cannot read " ++ filename ++ ": " ++ (refusal.description ++ ": " ++ Quoted.ofString path) := rfl
    have htells : (Failure.refused refusal path).TellsOf filename _ := .system hsystem (quotes_ofString path)
    rw [← hline, toList_errorLine, hmessage]
    simpa only [String.toList_append, hdescription, hopening, herrno, List.append_assoc] using htells
  · exact .other (tells_of_reported h fun refusal path heq => hrefused ⟨refusal, path, heq⟩)

/-- Where there is a line about a failure, a command reports it. -/
theorem isSome_reported_of_tellsOf {filename : String} {failure : Failure} {line : Text}
    (h : failure.TellsOf filename line) : (reported? filename failure).isSome = true := by
  cases h with
  | @system refusal _ _ _ _ hsystem _ =>
    cases refusal with
    | nulInPath => simp [Refusal.systemError?] at hsystem
    | _ => rfl
  | other h => cases h <;> rfl

end Command

end ImportOrder
