import ImportOrder.Proofs.Frame
import ImportOrder.Proofs.FrontPaths

/-!
# The log as a store of lines

Scans that are logged in one directory, one after another, add a line each to one file and change nothing else: where
the first of them can be logged, all can, and the log then holds what it held before and the lines of the calls in their
order. A line is one JSON object in ASCII, without a line feed, from which all that was logged can be read.
-/

namespace ImportOrder

open ImportOrder.Action

/-! ## Lines of a source -/

namespace Text

/-- The characters that end a line when lines are counted. -/
def lineEnds : List Char :=
  ['\n', '\x0b', '\x0c', '\r', '\x1c', '\x1d', '\x1e', '\u0085', '\u2028', '\u2029']

/-- A line break before the given text: a carriage return and a line feed, or one character that ends lines and is not
the first half of such a pair. -/
def IsBreak (ending rest : Text) : Prop :=
  ending = ['\r', '\n'] ∨ ∃ c ∈ lineEnds, ending = [c] ∧ ¬(c = '\r' ∧ rest.head? = some '\n')

/-- The lines of a text, without their breaks. Nothing behind the last break is no line. -/
inductive SplitsInto : Text → List Text → Prop where
  | nil : SplitsInto [] []
  | last {line : Text} (hne : line ≠ []) (hline : ∀ c ∈ line, c ∉ lineEnds) : SplitsInto line [line]
  | cons (line : Text) {ending rest : Text} {lines : List Text} (hline : ∀ c ∈ line, c ∉ lineEnds)
      (hending : IsBreak ending rest) (hrest : SplitsInto rest lines) :
      SplitsInto (line ++ ending ++ rest) (line :: lines)

theorem isLineEnd_iff {c : Char} : isLineEnd c = true ↔ c ∈ lineEnds := by
  constructor
  · intro h
    simp only [isLineEnd, Bool.or_eq_true, decide_eq_true_eq, beq_iff_eq] at h
    have hcode : c = Char.ofNat c.toNat := (Char.ofNat_toNat c).symm
    have hmem : c.toNat ∈ lineEnds.map Char.toNat := by
      simp only [lineEnds, List.map_cons, List.map_nil, List.mem_cons]
      have hcodes : Char.toNat '\n' = 0x0a ∧ Char.toNat '\x0b' = 0x0b ∧ Char.toNat '\x0c' = 0x0c ∧
          Char.toNat '\r' = 0x0d ∧ Char.toNat '\x1c' = 0x1c ∧ Char.toNat '\x1d' = 0x1d ∧ Char.toNat '\x1e' = 0x1e ∧
          Char.toNat '\u0085' = 0x85 ∧ Char.toNat '\u2028' = 0x2028 ∧ Char.toNat '\u2029' = 0x2029 := by decide
      omega
    obtain ⟨d, hd, hnat⟩ := List.mem_map.mp hmem
    rwa [← Char.toNat_inj.mp hnat]
  · intro h
    have hall : lineEnds.all isLineEnd = true := by decide
    exact List.all_eq_true.mp hall c h

/-- One character that is no half of a pair ends a line or goes on with it. -/
theorem countLines_cons {c : Char} {rest : Text} (h : ¬(c = '\r' ∧ rest.head? = some '\n')) (begun : Bool) :
    countLines begun (c :: rest) = if isLineEnd c then 1 + countLines false rest else countLines true rest := by
  rw [countLines]
  rintro rest rfl rfl
  exact h ⟨rfl, rfl⟩

theorem countLines_append {line : Text} (h : ∀ c ∈ line, c ∉ lineEnds) (begun : Bool) (rest : Text) :
    countLines begun (line ++ rest) = countLines (begun || !line.isEmpty) rest := by
  induction line generalizing begun with
  | nil => simp
  | cons c line ih =>
    obtain ⟨hc, hline⟩ := List.forall_mem_cons.mp h
    have hreturn : c ≠ '\r' := by
      rintro rfl
      exact hc (by decide)
    rw [List.cons_append, countLines_cons (fun hpair => hreturn hpair.1), if_neg (by rwa [isLineEnd_iff]), ih hline]
    simp

theorem countLines_break {ending rest : Text} (h : IsBreak ending rest) (begun : Bool) :
    countLines begun (ending ++ rest) = 1 + countLines false rest := by
  rcases h with rfl | ⟨c, hc, rfl, hpair⟩
  · rfl
  · rw [List.singleton_append, countLines_cons hpair, if_pos (isLineEnd_iff.mpr hc)]

/-- Counting lines counts the lines of the text. -/
theorem SplitsInto.countLines_eq {t : Text} {lines : List Text} (h : SplitsInto t lines) :
    countLines false t = lines.length := by
  induction h with
  | nil => rfl
  | last hne hline =>
    rename_i line
    have hcount := countLines_append hline false []
    rw [List.append_nil] at hcount
    rw [hcount]
    simp [hne, countLines]
  | cons line hline hending _ ih =>
    rw [List.append_assoc, countLines_append hline, countLines_break hending, ih, List.length_cons, Nat.add_comm]

/-- A character that ends no line goes to the first one. -/
theorem SplitsInto.exists_cons {c : Char} (hc : c ∉ lineEnds) {t : Text} {lines : List Text} (h : SplitsInto t lines) :
    ∃ lines', SplitsInto (c :: t) lines' := by
  cases h with
  | nil => exact ⟨_, .last (List.cons_ne_nil c []) (by simpa using hc)⟩
  | last hne hline => exact ⟨_, .last (List.cons_ne_nil c t) (List.forall_mem_cons.mpr ⟨hc, hline⟩)⟩
  | cons line hline hending hrest => exact ⟨_, .cons (c :: line) (List.forall_mem_cons.mpr ⟨hc, hline⟩) hending hrest⟩

theorem exists_splitsInto (t : Text) : ∃ lines, SplitsInto t lines := by
  match t with
  | [] => exact ⟨_, .nil⟩
  | c :: rest =>
    by_cases hpair : c = '\r' ∧ rest.head? = some '\n'
    · -- a pair is taken as a whole, or its line feed would count as an empty line
      obtain ⟨rfl, hhead⟩ := hpair
      obtain ⟨rest, rfl⟩ := List.head?_eq_some_iff.mp hhead
      obtain ⟨lines, hrest⟩ := exists_splitsInto rest
      exact ⟨_, .cons [] (by simp) (.inl rfl) hrest⟩
    · obtain ⟨lines, hrest⟩ := exists_splitsInto rest
      by_cases hc : c ∈ lineEnds
      · exact ⟨_, .cons [] (by simp) (.inr ⟨c, hc, rfl, hpair⟩) hrest⟩
      · exact hrest.exists_cons hc
termination_by t.length

end Text

/-! ## Calls of the logger -/

/-- A scan to be logged and what the clock says about it. -/
structure LogCall where
  clock : Clock
  entry : LogEntry

namespace LogCall

/-- Logs a scan. -/
def run (directory : String) (call : LogCall) : Action Unit :=
  logScan call.clock directory call.entry

/-- The line of a call without its line feed. -/
def body (call : LogCall) : Text :=
  Json.write .compact 0 (call.entry.toValue call.clock)

/-- The hash of a source as it is logged: the first eight bytes of the SHA-256 digest of its UTF-8, in two hexadecimal
digits each. -/
def hashOf (source : Text) : String :=
  "sha256:" ++ String.ofList (((Sha256.digest (String.ofList source).toUTF8.toList).take 8).flatMap fun byte =>
    [Nat.digitChar (byte.toNat / 16), Nat.digitChar (byte.toNat % 16)])

theorem take_flatMap_pair {α β : Type} (f g : α → β) (n : Nat) (l : List α) :
    (l.flatMap fun a => [f a, g a]).take (2 * n) = (l.take n).flatMap fun a => [f a, g a] := by
  induction l generalizing n with
  | nil => simp
  | cons a l ih =>
    cases n with
    | zero => rfl
    | succ n =>
      rw [List.flatMap_cons, List.take_succ_cons, List.flatMap_cons, ← ih n]
      rfl

theorem contentHash_eq (source : Text) : LogEntry.contentHash source = hashOf source := by
  rw [LogEntry.contentHash, hashOf, Sha256.hexDigest, ← take_flatMap_pair]
  rfl

/-- A line of the log tells of a call: it is ASCII without a line feed, and the JSON value that it stands for holds
whatever was logged. -/
structure Tells (call : LogCall) (line : Text) : Prop where
  ascii : ∀ c ∈ line, Json.Printed c
  feedless : '\n' ∉ line
  decoded : ∃ lines, call.entry.source.SplitsInto lines ∧
    Json.parse? (String.ofList line) = some (.map (Json.textKeys [
      ("timestamp", .text call.clock.timestamp),
      ("event", .text (if call.entry.fixed then "fix" else "scan")),
      ("file", .text call.entry.file),
      ("status", .text call.entry.status),
      ("violations", .list call.entry.violations),
      ("code_length_lines", .int lines.length),
      ("code_hash", .text (hashOf call.entry.source)),
      ("scan_ms", .int call.clock.elapsed)]))

theorem tells_body {call : LogCall} (h : ∀ v ∈ call.entry.violations, Json.Plain v) : call.Tells call.body := by
  have hplain := LogEntry.plain_toValue h call.clock
  refine ⟨hplain.printed_write 0, hplain.lineFeed_not_mem_write 0, ?_⟩
  obtain ⟨lines, hlines⟩ := Text.exists_splitsInto call.entry.source
  have hparse := Json.parse?_write_append hplain .compact (t := []) (by simp [Json.EndsValue]) rfl
  rw [List.append_nil] at hparse
  refine ⟨lines, hlines, ?_⟩
  rw [body, hparse, LogEntry.toValue, Report.object_eq, hlines.countLines_eq, contentHash_eq]

end LogCall

/-- Logs scans one after another. -/
def logScans (directory : String) : List LogCall → Action Unit
  | [] => pure ()
  | call :: calls => do
    call.run directory
    logScans directory calls

/-! ## The place of the log -/

namespace FileSystem

/-- The path of the log in a directory leads to a place where a file is or can be made. -/
structure LogAt (fs : FileSystem) (directory : String) (log : List String) : Prop where
  located : fs.locate (logPath directory) = .ok log
  not_directory : fs.root.kindAt? log ≠ some .directory

/-- The log has a place, or would have one if some more directories were there. -/
structure HasRoom (fs : FileSystem) (directory : String) : Prop where
  start : fs.root.kindAt? (fs.startOf directory) = some .directory
  goal : ∃ goal log, SameFiles fs goal ∧ goal.LogAt directory log

variable {fs : FileSystem} {directory : String} {log : List String}

theorem logPath_split (hne : directory ≠ "") : ∃ n, Joins directory.toList n ∧
    logPath directory = String.ofList (directory.toList ++ (List.replicate n '/' ++ Settings.logFilename.toList)) := by
  have hfront : directory.toList ≠ [] := by rwa [ne_eq, String.toList_eq_nil_iff]
  unfold logPath
  split
  · rename_i hslash
    refine ⟨0, ⟨hfront, .inr (List.getLast?_eq_some_iff.mp hslash)⟩, ?_⟩
    rw [← String.toList_inj]
    simp
  · refine ⟨1, ⟨hfront, .inl Nat.zero_lt_one⟩, ?_⟩
    rw [← String.toList_inj]
    simp

/-- The log lies in the directory. -/
theorem LogAt.exists_directory (h : fs.LogAt directory log) (hne : directory ≠ "") :
    ∃ place, fs.locate directory = .ok place ∧ fs.root.kindAt? place = some .directory := by
  obtain ⟨n, hjoins, hpath⟩ := logPath_split hne
  have hlocated := h.located
  rw [hpath] at hlocated
  have hfront := locate_front hjoins hlocated
  rwa [String.ofList_toList] at hfront

/-- Once the directory is there, the log is where it would be with more directories. -/
theorem LogAt.of_within {goal : FileSystem} (h : goal.LogAt directory log) (hwithin : SameFiles fs goal)
    (hne : directory ≠ "") {place : List String} (hplace : fs.locate directory = .ok place)
    (hdirectory : fs.root.kindAt? place = some .directory) : fs.LogAt directory log := by
  obtain ⟨n, hjoins, hpath⟩ := logPath_split hne
  have hname : '/' ∉ Settings.logFilename.toList := by decide
  have hlocated := h.located
  rw [hpath] at hlocated
  rw [← String.ofList_toList (s := directory)] at hplace
  refine ⟨?_, fun hkind => h.not_directory (hwithin.directory _ hkind)⟩
  rw [hpath]
  exact (locate_of_joined hwithin hjoins hname hlocated hplace hdirectory).1

/-- The log stays where it is when it is written. -/
theorem LogAt.write (h : fs.LogAt directory log) (content : ByteArray) :
    (fs.write log content).LogAt directory log := by
  have hvacant := vacant_of_locate h.located h.not_directory
  refine ⟨locate_write hvacant h.not_directory h.located, ?_⟩
  rw [FileSystem.write, Tree.kindAt?_put hvacant (Tree.isBare_file content), if_pos rfl]
  simp [Tree.kind]

end FileSystem

section

variable {fs : FileSystem} {directory : String} {log : List String} {call : LogCall}

/-- Where the log has a place, a call adds its line to it. -/
theorem LogCall.runOn_run (hne : directory ≠ "") (h : fs.LogAt directory log) (call : LogCall) :
    runOn (call.run directory) fs =
      (.ok (), fs.write log ((fs.fileAt? log).getD ByteArray.empty ++ (call.body ++ ['\n']).bytes)) := by
  obtain ⟨place, hplace, hdirectory⟩ := h.exists_directory hne
  obtain ⟨bound, hbound⟩ := Nat.exists_eq_succ_of_ne_zero (mt String.length_eq_zero_iff.mp hne)
  rw [LogCall.run, logScan_of_ne hne, hbound, runOn_bind, runOn_makeDirectories_of_directory bound hplace hdirectory]
  exact runOn_appendText_of_locate h.located h.not_directory _

/-- Where the log has room, its place is made. -/
theorem runOn_makeDirectories_hasRoom (hne : directory ≠ "") (h : fs.HasRoom directory) :
    ∃ fs₁ log, runOn (makeDirectories true directory.length directory) fs = (.ok (), fs₁) ∧
      fs₁.LogAt directory log := by
  obtain ⟨goal, log, hwithin, hlog⟩ := h.goal
  obtain ⟨place, hplace, hdirectory⟩ := hlog.exists_directory hne
  obtain ⟨fs₁, hrun, hmade⟩ := runOn_makeDirectories_within hwithin h.start hplace hdirectory le_rfl
  exact ⟨fs₁, log, hrun, hlog.of_within hmade.within hne hmade.located hmade.directory⟩

/-- A first call finds or makes a place for the log, or there is no room for it, and then no file is changed. -/
theorem LogCall.run_cases (hne : directory ≠ "") (call : LogCall) (fs : FileSystem) :
    (∃ failure fs', runOn (call.run directory) fs = (.error failure, fs') ∧ FileSystem.SameFiles fs fs' ∧
      ¬fs.HasRoom directory) ∨
    ∃ fs₁ log, FileSystem.SameFiles fs fs₁ ∧ fs₁.LogAt directory log ∧
      runOn (call.run directory) fs = runOn (call.run directory) fs₁ := by
  have hrun : ∀ fs, runOn (call.run directory) fs = runOn (makeDirectories true directory.length directory >>= fun _ =>
      appendText (logPath directory) (call.entry.line call.clock)) fs := by
    intro fs
    rw [run, logScan_of_ne hne]
  cases houtcome : runOn (call.run directory) fs with
  | mk outcome fs' =>
    cases outcome with
    | error failure =>
      refine .inl ⟨failure, fs', rfl, logScan_error houtcome, ?_⟩
      intro hroom
      obtain ⟨fs₁, log, hmake, hlog⟩ := runOn_makeDirectories_hasRoom hne hroom
      have happend := runOn_appendText_of_locate hlog.located hlog.not_directory (call.entry.line call.clock)
      rw [hrun, runOn_bind, hmake] at houtcome
      dsimp only at houtcome
      rw [happend] at houtcome
      simp at houtcome
    | ok =>
      -- what the call has made for the log is there for the same call from the start
      rw [hrun] at houtcome
      obtain ⟨_, fs₁, hmake, happend⟩ := runOn_bind_ok_iff.mp houtcome
      have hsame := sameFiles_makeDirectories true directory.length directory fs
      rw [hmake] at hsame
      rcases runOn_appendText (logPath directory) (call.entry.line call.clock) fs₁ with
        ⟨failure, hfail⟩ | ⟨log, hlog, -, hnot, hok⟩
      · simp [hfail] at happend
      · refine .inr ⟨fs₁, log, hsame, ⟨hlog, hnot⟩, ?_⟩
        rw [runOn_run hne ⟨hlog, hnot⟩, ← happend, hok]
        rfl

end

/-! ## Runs of calls -/

section

variable {fs : FileSystem} {directory : String} {log : List String}

/-- The state of the files after calls: the log holds their lines behind what it held, and no other file differs. -/
structure FileSystem.HasAppended (fs fs' : FileSystem) (directory : String) (log : List String) (lines : List Text) :
    Prop where
  at_log : fs'.LogAt directory log
  content : (fs'.fileAt? log).getD ByteArray.empty =
    (fs.fileAt? log).getD ByteArray.empty ++ Text.bytes (lines.flatMap (· ++ ['\n']))
  others : ∀ q, q ≠ log → fs'.fileAt? q = fs.fileAt? q

theorem FileSystem.HasAppended.of_sameFiles {fs₁ fs' : FileSystem} {lines : List Text}
    (h : fs₁.HasAppended fs' directory log lines) (hsame : SameFiles fs fs₁) :
    fs.HasAppended fs' directory log lines := by
  refine ⟨h.at_log, ?_, ?_⟩
  · rw [h.content, hsame.file]
  · intro q hq
    rw [h.others q hq, hsame.file]

theorem logScans_hasAppended (hne : directory ≠ "") (h : fs.LogAt directory log) (calls : List LogCall) :
    ∃ fs', runOn (logScans directory calls) fs = (.ok (), fs') ∧
      fs.HasAppended fs' directory log (calls.map LogCall.body) := by
  induction calls generalizing fs with
  | nil => exact ⟨fs, rfl, h, by simp [Text.bytes], fun _ _ => rfl⟩
  | cons call calls ih =>
    have hrun := LogCall.runOn_run hne h call
    generalize hcontent : (fs.fileAt? log).getD ByteArray.empty ++ (call.body ++ ['\n']).bytes = content at hrun
    have hfiles : ∀ q, (fs.write log content).fileAt? q = if q = log then some content else fs.fileAt? q :=
      FileSystem.fileAt?_write (FileSystem.vacant_of_locate h.located h.not_directory)
    obtain ⟨fs', hrest, happended⟩ := ih (h.write _)
    refine ⟨fs', ?_, happended.at_log, ?_, ?_⟩
    · rw [logScans, runOn_bind, hrun]
      exact hrest
    · rw [happended.content, hfiles, if_pos rfl, Option.getD_some, ← hcontent, List.map_cons, List.flatMap_cons,
        Text.bytes_append _ (List.flatMap _ _), ByteArray.append_assoc]
    · intro q hq
      rw [happended.others q hq, hfiles, if_neg hq]

/-- A run of calls goes as after the directories for the log have been made. -/
theorem runOn_logScans_cons {call : LogCall} {fs₁ : FileSystem} (h : runOn (call.run directory) fs =
    runOn (call.run directory) fs₁) (calls : List LogCall) :
    runOn (logScans directory (call :: calls)) fs = runOn (logScans directory (call :: calls)) fs₁ := by
  rw [logScans, runOn_bind, runOn_bind, h]

end

/-- Calls of the logger for one directory. Either there is no room for a log, and then the first call is refused and no
file is changed; or every call succeeds, and after any number of them the log holds what it held before and the lines of
these calls, each telling of its call. -/
theorem logScans_store {directory : String} (hne : directory ≠ "") {calls : List LogCall}
    (hplain : ∀ call ∈ calls, ∀ v ∈ call.entry.violations, Json.Plain v) (fs : FileSystem) :
    (∃ failure fs', FileSystem.SameFiles fs fs' ∧ ¬fs.HasRoom directory ∧
      ∀ n, 0 < n → n ≤ calls.length → runOn (logScans directory (calls.take n)) fs = (.error failure, fs')) ∨
    ∃ log lines, List.Forall₂ LogCall.Tells calls lines ∧ ∀ n, 0 < n → n ≤ calls.length → ∃ fs',
      runOn (logScans directory (calls.take n)) fs = (.ok (), fs') ∧
        fs.HasAppended fs' directory log (lines.take n) := by
  cases calls with
  | nil => exact .inr ⟨[], [], .nil, fun n hn hle => absurd hle (Nat.not_le.mpr hn)⟩
  | cons call calls =>
    rcases call.run_cases hne fs with ⟨failure, fs', hrun, hsame, hnowhere⟩ | ⟨fs₁, log, hsame, hlog, hrun⟩
    · refine .inl ⟨failure, fs', hsame, hnowhere, ?_⟩
      intro n hn _
      obtain ⟨n, rfl⟩ := Nat.exists_eq_succ_of_ne_zero hn.ne'
      rw [List.take_succ_cons, logScans, runOn_bind, hrun]
    · refine .inr ⟨log, (call :: calls).map LogCall.body, ?_, ?_⟩
      · rw [List.forall₂_map_right_iff, List.forall₂_same]
        intro call hcall
        exact LogCall.tells_body (hplain call hcall)
      · intro n hn _
        obtain ⟨n, rfl⟩ := Nat.exists_eq_succ_of_ne_zero hn.ne'
        obtain ⟨fs', hok, happended⟩ := logScans_hasAppended hne hlog ((call :: calls).take (n + 1))
        refine ⟨fs', ?_, ?_⟩
        · rw [← hok, List.take_succ_cons]
          exact runOn_logScans_cons hrun _
        · rw [← List.map_take]
          exact happended.of_sameFiles hsame

/-- Names, a status and modules with quotes, line breaks, a line separator and control characters in them, and sources
whose lines end in several ways. -/
def oddCalls : List LogCall := [
  ⟨⟨"2024-05-06T07:08:09Z", 12⟩,
    { file := "a\"b\n.ts", status := "passed", violations := [], source := "x\r\ny\u2028z".toList, fixed := false }⟩,
  ⟨⟨"2024-05-06T07:08:10Z", 0⟩,
    { file := "\u2028\x00", status := "re\njected", fixed := true, source := [],
      violations := [Report.object [("line", .int 3), ("kind", .text "order"), ("module", .text "\\\x1b\r\n")],
        .real Value.infinity] }⟩]

/-- A tree without files and directories. -/
def bareTree : FileSystem where
  root := .directory []
  current := []

theorem logScans_store_oddCalls : ∃ log lines fs', List.Forall₂ LogCall.Tells oddCalls lines ∧
    runOn (logScans "logs/day" oddCalls) bareTree = (.ok (), fs') ∧ bareTree.HasAppended fs' "logs/day" log lines := by
  have hplain : ∀ call ∈ oddCalls, ∀ v ∈ call.entry.violations, Json.Plain v := by
    have hsummary : Json.Plain (Report.object [("line", .int 3), ("kind", .text "order"),
        ("module", .text "\\\x1b\r\n")]) := by
      rw [Report.object_eq]
      exact .map (by simp) (by simp [Json.Plain.int, Json.Plain.text])
    have hinfinite : Json.Plain (.real Value.infinity) := .real _ rfl
    simp [oddCalls, hsummary, hinfinite]
  have heval : (runOn (logScans "logs/day" oddCalls) bareTree).1.toOption = some () := by decide +kernel
  have hne : "logs/day" ≠ "" := by decide
  rcases logScans_store hne hplain bareTree with
    ⟨failure, fs', -, -, hrun⟩ | ⟨log, lines, htells, hrun⟩
  · have hfail := hrun 2 (by decide) (by decide)
    rw [List.take_of_length_le (by decide)] at hfail
    simp [hfail, Except.toOption] at heval
  · obtain ⟨fs', hok, happended⟩ := hrun 2 (by decide) (by decide)
    rw [List.take_of_length_le (by decide)] at hok
    rw [List.take_of_length_le (by rw [← htells.length_eq]; decide)] at happended
    exact ⟨log, lines, fs', htells, hok, happended⟩

end ImportOrder
