import ImportOrder.Proofs.FlagUses
import ImportOrder.Proofs.Rewriting
import ImportOrder.Runtime

/-!
# Standard input in place of a file

A file of the current directory and standard input are checked under the same options: the search for an options file
begins in the current directory for both of them. They part at the line breaks: those of a file are made line feeds
when it is read, those of standard input stay as they are. So a check of standard input, under the name of the file,
ends like the check of the file, whatever flags are given to both, if standard input holds the text of the file as the
file is read. That is the text itself where it has no carriage returns.
-/

namespace ImportOrder

open ImportOrder.Action

/-! ## Plain names -/

/-- A name that a file or directory can have. -/
structure PlainName (name : String) : Prop where
  ne_empty : name ≠ ""
  ne_point : name ≠ "."
  ne_points : name ≠ ".."
  no_slash : '/' ∉ name.toList
  no_nul : '\x00' ∉ name.toList

instance : DecidablePred PlainName := fun name =>
  decidable_of_iff (name ≠ "" ∧ name ≠ "." ∧ name ≠ ".." ∧ '/' ∉ name.toList ∧ '\x00' ∉ name.toList)
    ⟨fun ⟨hempty, hpoint, hpoints, hslash, hnul⟩ => ⟨hempty, hpoint, hpoints, hslash, hnul⟩,
      fun h => ⟨h.ne_empty, h.ne_point, h.ne_points, h.no_slash, h.no_nul⟩⟩

namespace Text

theorem splitOn_append_cons {sep : Char} {t : Text} (h : sep ∉ t) (rest : Text) :
    splitOn sep (t ++ sep :: rest) = t :: splitOn sep rest := by
  rw [splitOn_append, splitOn_of_not_mem h, List.singleton_append]

end Text

namespace Path

/-- A plain name is a path of one name. -/
theorem names_of_plain {name : String} (h : PlainName name) : names name = [name] := by
  rw [names, Text.splitOn_of_not_mem h.no_slash, List.map_singleton, String.ofList_toList]

theorem head_of_plain {name : String} (h : PlainName name) : name.toList.head? ≠ some '/' := by
  intro hhead
  exact h.no_slash (List.mem_of_head? hhead)

theorem ofString_of_plain {name : String} (h : PlainName name) : ofString name = ⟨"", [name]⟩ := by
  have hanchor : anchorOf name = "" := by
    have hhead := head_of_plain h
    unfold anchorOf
    split
    · simp_all
    · simp_all
    · simp_all
    · rfl
  have hkept : (name != "" && name != ".") = true := by simp [h.ne_empty, h.ne_point]
  have hparts : [name].filter (fun name => name != "" && name != ".") = [name] := by simp [hkept]
  rw [ofString, hanchor, names_of_plain h, hparts]

/-- A plain name is spelled normally. -/
theorem normalize_of_plain {name : String} (h : PlainName name) : normalize name = name := by
  rw [normalize, ofString_of_plain h, render, if_neg (by simp)]
  simp

/-- Names that are joined by slashes are the names of the path. -/
theorem names_intercalate {parts : List String} (hne : parts ≠ []) (h : ∀ name ∈ parts, '/' ∉ name.toList) :
    names ("/".intercalate parts) = parts := by
  induction parts with
  | nil => exact absurd rfl hne
  | cons name parts ih =>
    rw [List.forall_mem_cons] at h
    cases parts with
    | nil =>
      rw [String.intercalate_singleton, names, Text.splitOn_of_not_mem h.1, List.map_singleton, String.ofList_toList]
    | cons next parts =>
      have hrest := ih (List.cons_ne_nil next parts) h.2
      rw [names] at hrest
      have htext : (name ++ "/" ++ "/".intercalate (next :: parts)).toList =
          name.toList ++ '/' :: ("/".intercalate (next :: parts)).toList := by
        rw [String.toList_append, String.toList_append, List.append_assoc]
        rfl
      rw [String.intercalate_cons_cons, names, htext, Text.splitOn_append_cons h.1, List.map_cons, hrest,
        String.ofList_toList]

/-- The names of a place are between the slashes of its spelling, behind the first slash. -/
theorem names_absolute {place : List String} (h : ∀ name ∈ place, PlainName name) :
    names (absolute place) = "" :: if place = [] then [""] else place := by
  have hjoin : names ("/".intercalate place) = if place = [] then [""] else place := by
    split
    · rename_i hplace
      rw [hplace]
      rfl
    · rename_i hplace
      exact names_intercalate hplace fun name hname => (h name hname).no_slash
  have htext : (absolute place).toList = [] ++ '/' :: ("/".intercalate place).toList := by
    rw [absolute, String.toList_append]
    rfl
  rw [names, htext, Text.splitOn_append_cons (List.not_mem_nil), List.map_cons, ← hjoin]
  rfl

theorem utf8ByteSize_absolute (place : List String) (name : String) :
    (absolute place).utf8ByteSize ≤ (absolute (place ++ [name])).utf8ByteSize := by
  unfold absolute
  by_cases hplace : place = []
  · rw [hplace, String.intercalate_nil, String.append_empty, String.utf8ByteSize_append]
    exact Nat.le_add_right _ _
  · rw [String.intercalate_append_of_ne_nil hplace (List.cons_ne_nil name []), String.utf8ByteSize_append,
      String.utf8ByteSize_append, String.utf8ByteSize_append, String.utf8ByteSize_append]
    omega

end Path

/-! ## Places below the current directory -/

namespace FileSystem

variable {fs : FileSystem}

/-- Plain names lead to an entry that exists, unless one of them is too long. -/
theorem walk_of_plain {start place : List String} (hplain : ∀ name ∈ place, PlainName name) {tree : Tree}
    (h : fs.root.get? (start ++ place) = some tree) :
    fs.walk start place =
      if ∀ name ∈ place, name.utf8ByteSize ≤ nameLimit then .ok (start ++ place) else .error .nameTooLong := by
  induction place generalizing start with
  | nil => simp [walk]
  | cons name place ih =>
    rw [List.forall_mem_cons] at hplain
    have hstart : ∃ entries, fs.root.get? start = some (.directory entries) := by
      rw [Tree.get?_append] at h
      obtain ⟨found, hfound, hbelow⟩ := Option.bind_eq_some_iff.mp h
      cases found with
      | file content => simp [Tree.get?_file_cons] at hbelow
      | directory entries => exact ⟨entries, hfound⟩
    obtain ⟨entries, hstart⟩ := hstart
    have hstays : ¬ (name = "" ∨ name = ".") := not_or.mpr ⟨hplain.1.ne_empty, hplain.1.ne_point⟩
    rw [walk, hstart]
    dsimp only
    rw [if_neg hstays, if_neg hplain.1.ne_points]
    by_cases hlong : nameLimit < name.utf8ByteSize
    · have hnot : ¬ ∀ other ∈ name :: place, other.utf8ByteSize ≤ nameLimit := by
        intro hshort
        exact Nat.not_lt.mpr (hshort name List.mem_cons_self) hlong
      rw [if_pos hlong, if_neg hnot]
    · rw [if_neg hlong, ih hplain.2 (by rwa [List.append_assoc, List.singleton_append]), List.append_assoc,
        List.singleton_append]
      simp [Nat.not_lt.mp hlong]

theorem not_mem_absolute {place : List String} (hplain : ∀ name ∈ place, PlainName name) :
    (Path.absolute place).toList.contains '\x00' = false := by
  have hjoin : '\x00' ∉ ("/".intercalate place).toList := by
    induction place with
    | nil => simp
    | cons name place ih =>
      rw [List.forall_mem_cons] at hplain
      cases place with
      | nil =>
        rw [String.intercalate_singleton]
        exact hplain.1.no_nul
      | cons next place =>
        rw [String.intercalate_cons_cons, String.toList_append, String.toList_append, List.mem_append, List.mem_append,
          not_or, not_or]
        exact ⟨⟨hplain.1.no_nul, by decide⟩, ih hplain.2⟩
  rw [Path.absolute, String.toList_append, List.contains_eq_mem, decide_eq_false_iff_not, List.mem_append, not_or]
  exact ⟨by decide, hjoin⟩

/-- The spelling of a place is followed name by name, unless it is too long. -/
theorem locate_absolute {place : List String} (hplain : ∀ name ∈ place, PlainName name)
    (hroot : fs.root.isDirectory = true) : fs.locate (Path.absolute place) =
      if pathLimit ≤ (Path.absolute place).utf8ByteSize then .error .nameTooLong else fs.walk [] place := by
  have hne : Path.absolute place ≠ "" := by
    rw [Path.absolute, ne_eq, String.append_eq_empty_iff]
    exact fun hboth => absurd hboth.1 (by decide)
  have hstart : fs.startOf (Path.absolute place) = [] := by
    rw [startOf, Path.absolute, String.toList_append]
    rfl
  have hwalk : fs.walk [] (Path.names (Path.absolute place)) = fs.walk [] place := by
    obtain ⟨entries, hentries⟩ : ∃ entries, fs.root = .directory entries := by
      cases hkind : fs.root with
      | file content => simp [hkind, Tree.isDirectory] at hroot
      | directory entries => exact ⟨entries, rfl⟩
    have hstay : ∀ names, fs.walk [] ("" :: names) = fs.walk [] names := by
      intro names
      rw [walk, Tree.get?_nil, hentries]
      rfl
    rw [Path.names_absolute hplain, hstay]
    by_cases hplace : place = []
    · rw [if_pos hplace, hplace, hstay]
    · rw [if_neg hplace]
  rw [locate, if_neg hne, not_mem_absolute hplain, if_neg Bool.false_ne_true, hstart, hwalk]

/-- The spelling of a place leads to it. -/
theorem lookUp_absolute {place : List String} (hplain : ∀ name ∈ place, PlainName name) {tree : Tree}
    (h : fs.root.get? place = some tree) (hroot : fs.root.isDirectory = true) :
    fs.lookUp (Path.absolute place) =
      if (Path.absolute place).utf8ByteSize < pathLimit ∧ ∀ name ∈ place, name.utf8ByteSize ≤ nameLimit then
        .ok (some tree)
      else .error .nameTooLong := by
  rw [lookUp, locate_absolute hplain hroot, walk_of_plain hplain (by rwa [List.nil_append])]
  by_cases hpath : (Path.absolute place).utf8ByteSize < pathLimit
  · rw [if_neg (Nat.not_le.mpr hpath)]
    by_cases hnames : ∀ name ∈ place, name.utf8ByteSize ≤ nameLimit
    · rw [if_pos hnames, if_pos ⟨hpath, hnames⟩, List.nil_append]
      exact congrArg Except.ok h
    · rw [if_neg hnames, if_neg fun hboth => hnames hboth.2]
  · rw [if_pos (Nat.not_lt.mp hpath), if_neg fun hboth => hpath hboth.1]

theorem resolve_of_plain {name : String} (h : PlainName name) : fs.resolve name = fs.current ++ [name] := by
  rw [resolve, startOf, if_neg (Path.head_of_plain h), Path.names_of_plain h, Path.follow, if_neg h.ne_points,
    if_neg (not_or.mpr ⟨h.ne_empty, h.ne_point⟩), Path.follow]

theorem resolve_point (fs : FileSystem) : fs.resolve "." = fs.current := rfl

end FileSystem

/-! ## The options of a file and of standard input -/

/-- The search begins at a directory, or else above what the path names. -/
theorem Options.runOn_searchStart {path : String} {fs : FileSystem} {found : Option Tree}
    (hnul : path.toList.contains '\x00' = false) (h : fs.lookUp (Path.absolute (fs.resolve path)) = .ok found) :
    runOn (searchStart path) fs =
      (.ok (if (found.map Tree.isDirectory).getD false then fs.resolve path else (fs.resolve path).dropLast), fs) := by
  unfold searchStart
  rw [hnul, if_neg Bool.false_ne_true]
  show runOn (get >>= fun _ => _) fs = _
  rw [runOn_get_bind, runOn_bind, runOn_lookUp, h]
  cases found with
  | none => rfl
  | some tree =>
    cases tree with
    | file content => rfl
    | directory entries => rfl

/-- A file of the current directory. -/
structure FileSystem.HoldsHere (fs : FileSystem) (name : String) (content : ByteArray) : Prop where
  current : ∀ directory ∈ fs.current, PlainName directory
  plain : PlainName name
  entry : fs.root.get? (fs.current ++ [name]) = some (.file content)

namespace FileSystem.HoldsHere

variable {fs : FileSystem} {name : String} {content : ByteArray} (h : fs.HoldsHere name content)

include h

theorem exists_directory : ∃ entries, fs.root.get? fs.current = some (.directory entries) := by
  have hentry := h.entry
  rw [Tree.get?_append] at hentry
  obtain ⟨found, hfound, hbelow⟩ := Option.bind_eq_some_iff.mp hentry
  cases found with
  | file content => simp [Tree.get?_file_cons] at hbelow
  | directory entries => exact ⟨entries, hfound⟩

theorem isDirectory_root : fs.root.isDirectory = true := by
  obtain ⟨entries, hdirectory⟩ := h.exists_directory
  cases hroot : fs.root with
  | directory entries => rfl
  | file content =>
    rw [hroot] at hdirectory
    cases hcurrent : fs.current with
    | nil => simp [hcurrent] at hdirectory
    | cons first rest => simp [hcurrent, Tree.get?_file_cons] at hdirectory

theorem forall_plain : ∀ part ∈ fs.current ++ [name], PlainName part := by
  intro part hmem
  rcases List.mem_append.mp hmem with hmem | hmem
  · exact h.current part hmem
  · rw [List.mem_singleton.mp hmem]
    exact h.plain

/-- The name leads to the file, unless it is too long. -/
theorem locate_cases : fs.locate name = .ok (fs.current ++ [name]) ∨ fs.locate name = .error .nameTooLong := by
  have hnul : name.toList.contains '\x00' = false := by simpa using h.plain.no_nul
  have hplain : ∀ part ∈ [name], PlainName part := fun part hmem => h.forall_plain part (List.mem_append_right _ hmem)
  rw [FileSystem.locate, if_neg h.plain.ne_empty, hnul, if_neg Bool.false_ne_true, FileSystem.startOf,
    if_neg (Path.head_of_plain h.plain), Path.names_of_plain h.plain, FileSystem.walk_of_plain hplain h.entry]
  split
  · exact .inr rfl
  · split
    · exact .inl rfl
    · exact .inr rfl

/-- The search for options begins in the current directory for a file of it. -/
theorem runOn_searchStart {start : List String} {fs' : FileSystem}
    (hrun : runOn (Options.searchStart name) fs = (.ok start, fs')) :
    runOn (Options.searchStart ".") fs = (.ok start, fs') := by
  obtain ⟨entries, hdirectory⟩ := h.exists_directory
  have hnul : name.toList.contains '\x00' = false := by simpa using h.plain.no_nul
  have hfile := FileSystem.lookUp_absolute h.forall_plain h.entry h.isDirectory_root
  have hhere := FileSystem.lookUp_absolute h.current hdirectory h.isDirectory_root
  rw [← FileSystem.resolve_of_plain h.plain] at hfile
  by_cases hshort : (Path.absolute (fs.resolve name)).utf8ByteSize < pathLimit ∧
      ∀ part ∈ fs.resolve name, part.utf8ByteSize ≤ nameLimit
  · -- What is short enough with the name of the file is so without it.
    have hlength := Path.utf8ByteSize_absolute fs.current name
    rw [← FileSystem.resolve_of_plain h.plain] at hlength
    have hparts : ∀ part ∈ fs.current, part.utf8ByteSize ≤ nameLimit := by
      intro part hmem
      apply hshort.2
      rw [FileSystem.resolve_of_plain h.plain]
      exact List.mem_append_left _ hmem
    rw [if_pos hshort] at hfile
    rw [if_pos ⟨by omega, hparts⟩, ← FileSystem.resolve_point fs] at hhere
    rw [Options.runOn_searchStart hnul hfile, FileSystem.resolve_of_plain h.plain] at hrun
    rw [Options.runOn_searchStart (by decide) hhere, FileSystem.resolve_point, ← hrun]
    show (Except.ok fs.current, fs) = (Except.ok (fs.current ++ [name]).dropLast, fs)
    rw [List.dropLast_concat]
  · rw [if_neg hshort] at hfile
    unfold Options.searchStart at hrun
    rw [hnul, if_neg Bool.false_ne_true] at hrun
    obtain ⟨found, fs₁, hfound, -⟩ := runOn_bind_ok_iff.mp ((runOn_get_bind fs _).symm.trans hrun)
    rw [runOn_lookUp, hfile] at hfound
    simp at hfound

theorem runOn_resolveWith [Yaml.Reader] {optionsPath : String} {aliases : List String} {byFullPath : Option Bool}
    {options : List (Value × Value)} {fs' : FileSystem}
    (hrun : runOn (Options.resolveWith name optionsPath aliases byFullPath) fs = (.ok options, fs')) :
    runOn (Options.resolveWith "." optionsPath aliases byFullPath) fs = (.ok options, fs') := by
  unfold Options.resolveWith at hrun ⊢
  obtain ⟨loaded, fs₁, hload, hrest⟩ := runOn_bind_ok_iff.mp hrun
  refine runOn_bind_ok_iff.mpr ⟨loaded, fs₁, ?_, hrest⟩
  unfold Options.resolve at hload ⊢
  by_cases hnamed : (optionsPath != "") = true
  · rw [if_pos hnamed] at hload ⊢
    exact hload
  · rw [if_neg hnamed] at hload ⊢
    obtain ⟨place, fs₂, hfind, hload⟩ := runOn_bind_ok_iff.mp hload
    refine runOn_bind_ok_iff.mpr ⟨place, fs₂, ?_, hload⟩
    unfold Options.find at hfind ⊢
    obtain ⟨start, fs₃, hstart, hfind⟩ := runOn_bind_ok_iff.mp hfind
    exact runOn_bind_ok_iff.mpr ⟨start, fs₃, h.runOn_searchStart hstart, hfind⟩

end FileSystem.HoldsHere

/-! ## The two checks -/

namespace Command

section

variable {fs : FileSystem} {name : String} {content : ByteArray} (h : fs.HoldsHere name content)

include h

/-- A file of the current directory stands for itself. -/
theorem ofPath_here {files : List String} (hfiles : (runOn (SourceFiles.ofPath name) fs).1 = .ok files) :
    files = [name] := by
  have hrender : (Path.ofString name).render = name := Path.normalize_of_plain h.plain
  unfold SourceFiles.ofPath at hfiles
  dsimp only at hfiles
  rw [hrender, runOn_bind, runOn_lookUp, FileSystem.lookUp] at hfiles
  rcases h.locate_cases with hlocate | hlocate
  · rw [hlocate] at hfiles
    dsimp only at hfiles
    rw [h.entry] at hfiles
    exact (Except.ok.inj hfiles).symm
  · rw [hlocate] at hfiles
    simp at hfiles

/-- What is read from a file is scanned in the same way from standard input, under the name of the file. -/
theorem scanInput_of_inspect [Stack] [Yaml.Reader] {choices : Choices} {surroundings : Surroundings} {text : String}
    {inspection : Inspection} (htext : String.fromUTF8? content = some text)
    (hstdin : surroundings.stdin = Text.unifyNewlines text.toList)
    (hinspect : runOn (inspect (choices.request false) name) fs = (.ok inspection, fs)) :
    (runOn (scanInput surroundings choices name) fs).1 = .ok inspection.result := by
  unfold inspect at hinspect
  rw [Path.normalize_of_plain h.plain] at hinspect
  obtain ⟨source, fs₁, hread, hinspect⟩ := runOn_bind_ok_iff.mp hinspect
  obtain ⟨options, fs₂, hoptions, hinspect⟩ := runOn_bind_ok_iff.mp hinspect
  obtain ⟨config, fs₃, hconfig, hinspect⟩ := runOn_bind_ok_iff.mp hinspect
  obtain rfl := (looks_readText name).eq_of_runOn hread
  -- standard input holds what is read from the file
  have hsource : source = surroundings.stdin := by
    obtain ⟨place, read, decoded, hplace, hkind, hdecoded, hsource⟩ := readText_ok hread
    have hhere : place = fs₁.current ++ [name] := by
      rcases h.locate_cases with hlocate | hlocate
      · exact Except.ok.inj (hplace.symm.trans hlocate)
      · simp [hlocate] at hplace
    have hcontent : read = content := by
      rw [hhere, Tree.kindAt?, h.entry] at hkind
      exact (Tree.Kind.file.inj (Option.some.inj hkind)).symm
    rw [hcontent, htext] at hdecoded
    rw [hsource, hstdin, Option.some.inj hdecoded]
  have hinput : runOn (scanInput surroundings choices name) fs₁ = (.ok inspection.result, fs₁) := by
    refine runOn_bind_ok_iff.mpr ⟨options, fs₂, h.runOn_resolveWith hoptions, ?_⟩
    refine runOn_bind_ok_iff.mpr ⟨config, fs₃, hconfig, ?_⟩
    rw [← hsource]
    cases hscan : scan config name source with
    | error error => simp [hscan, runOn_throw] at hinspect
    | ok result =>
      rw [hscan] at hinspect
      obtain ⟨hinspection, rfl⟩ := Prod.mk.inj hinspect
      rw [← Except.ok.inj hinspection]
      rfl
  rw [hinput]

/-- A check of a file that reports no failure reports the result of its scan. -/
theorem check_file_ok [Stack] [Yaml.Reader] {surroundings : Surroundings} {choices : Choices} {format : Report.Format}
    {output : Output}
    (hrun : (runOn (Invocation.run surroundings (.check { choices with operands := [name] } false "" format)) fs).1 =
      .ok output) (hexit : output.exit ≠ Settings.exitError) :
    ∃ result, (runOn (scanFile surroundings.clock (choices.request false) name) fs).1 = .ok result ∧
      output = report surroundings.terminal format { results := [result] } := by
  replace hrun : (runOn (scanPaths surroundings.clock (choices.request false) {} [name] >>= fun scans =>
      pure (report surroundings.terminal format scans)) fs).1 = .ok output := hrun
  rw [outcome_bind_pure, scanPaths_outcome, pathTrials_cons] at hrun
  -- there is one trial, that of the file, and a failure of it would have set the exit code
  cases hfiles : (runOn (SourceFiles.ofPath name) fs).1 with
  | error failure =>
    rw [hfiles] at hrun
    simp [gather, Trial.failure?, Trial.line?, Except.map] at hrun
  | ok files =>
    rw [hfiles, ofPath_here h hfiles] at hrun
    replace hrun : (gather {} [.file name (runOn (scanFile surroundings.clock (choices.request false) name) fs).1]).map
        (report surroundings.terminal format) = .ok output := hrun
    cases hscan : (runOn (scanFile surroundings.clock (choices.request false) name) fs).1 with
    | ok result =>
      rw [hscan] at hrun
      exact ⟨result, rfl, (Except.ok.inj hrun).symm⟩
    | error failure =>
      rw [hscan, gather_failed rfl] at hrun
      cases hline : (Trial.file name (.error failure)).line? with
      | none =>
        rw [hline] at hrun
        simp [Except.map] at hrun
      | some line =>
        rw [hline] at hrun
        rw [← Except.ok.inj hrun] at hexit
        cases format with
        | json => exact absurd rfl hexit
        | text => exact absurd rfl hexit

/-- A check of standard input, under the name of a file of the current directory, ends like the check of the file,
with the same exit code and the same text on both streams, when it holds the text of the file with every line break
made a line feed; where there are no other line breaks, that is all that the file holds. -/
theorem run_checkInput [Stack] [Yaml.Reader] {text : String} {surroundings : Surroundings}
    {before after : List FlagUse} {output : Output} (hdash : name.toList.head? ≠ some '-')
    (htext : String.fromUTF8? content = some text)
    (hrun : (runOn (run surroundings (checkFile before after name)) fs).1 = .ok output)
    (hexit : output.exit ≠ Settings.exitError) :
    (runOn (run { surroundings with stdin := Text.unifyNewlines text.toList } (checkInput before after name)) fs).1 =
      .ok output ∧
    ('\r' ∉ text.toList →
      (runOn (run { surroundings with stdin := text.toList } (checkInput before after name)) fs).1 = .ok output) := by
  have hunified : (runOn (run { surroundings with stdin := Text.unifyNewlines text.toList }
      (checkInput before after name)) fs).1 = .ok output := by
    unfold run at hrun ⊢
    rcases ofArguments_file_input hdash with ⟨program, error, hrefused⟩ | ⟨choices, format, hfile, hinput⟩
    · rw [hrefused] at hrun
      rw [← Except.ok.inj hrun] at hexit
      exact absurd rfl hexit
    · rw [hfile] at hrun
      rw [hinput]
      obtain ⟨result, hscan, rfl⟩ := check_file_ok h hrun hexit
      obtain ⟨inspection, _, _, hinspect, -, -, -, rfl⟩ := scanFile_ok_cases (Prod.ext hscan rfl)
      have hscanned : (runOn (scanInput { surroundings with stdin := Text.unifyNewlines text.toList }
          { choices with operands := [] } name) fs).1 = .ok inspection.result :=
        scanInput_of_inspect h htext rfl hinspect
      show (runOn (checkStdin { surroundings with stdin := Text.unifyNewlines text.toList }
        { choices with operands := [] } name format) fs).1 = _
      rw [checkStdin_outcome, hscanned]
      rfl
  refine ⟨hunified, fun hplain => ?_⟩
  rw [Text.unifyNewlines_eq_self_iff.mpr hplain] at hunified
  exact hunified

end

section

open ImportOrder.Runtime

/-- Both checks of a file that is not in order report its violations. -/
theorem run_checkInput_disorderly :
    ∃ output, (runOn (run plainSurroundings ["check", "--format=json", "b.ts", "--alias", "@app/"])
        disorderlyDirectory).1 = .ok output ∧ output.exit = 1 ∧
      (runOn (run { plainSurroundings with stdin := "import './b'\nimport 'a'\n".toList }
        ["check", "--format=json", "--stdin", "--filename", "b.ts", "--alias", "@app/"])
          disorderlyDirectory).1 = .ok output := by
  have hplain : PlainName "b.ts" := by constructor <;> decide
  have hhere : disorderlyDirectory.HoldsHere "b.ts" "import './b'\nimport 'a'\n".toUTF8 :=
    ⟨by simp [disorderlyDirectory], hplain, rfl⟩
  have hexit : (runOn (run plainSurroundings (checkFile [.joined .reportFormat "json"] [.apart .aliasName "@app/"]
      "b.ts")) disorderlyDirectory).1.toOption.map Output.exit = some 1 := by
    decide +kernel
  cases hrun : (runOn (run plainSurroundings (checkFile [.joined .reportFormat "json"] [.apart .aliasName "@app/"]
      "b.ts")) disorderlyDirectory).1 with
  | error failure => simp [hrun, Except.toOption] at hexit
  | ok output =>
    rw [hrun] at hexit
    have hviolated : output.exit = 1 := Option.some.inj hexit
    exact ⟨output, hrun, hviolated,
      (run_checkInput hhere (by decide) (by decide +kernel) hrun (by rw [hviolated]; decide)).2 (by decide)⟩

/-- A directory with a file whose lines end in a carriage return and a line feed. -/
def returnedDirectory : FileSystem where
  root := .directory [("a.ts", .file "import './b'\r\nimport 'a'\r\n".toUTF8)]
  current := []

/-- Both checks of that file find its violation, but not at the same offset: there is one character more before it where
the line breaks stay as they are. -/
theorem run_checkInput_returned :
    let checked := (runOn (run plainSurroundings ["check", "a.ts", "--format", "json"]) returnedDirectory).1.toOption
    let read := (runOn (run { plainSurroundings with stdin := "import './b'\r\nimport 'a'\r\n".toList }
      ["check", "--stdin", "--filename", "a.ts", "--format", "json"]) returnedDirectory).1.toOption
    checked.map Output.exit = some 1 ∧ read.map Output.exit = some 1 ∧
      checked.map Output.stdout ≠ read.map Output.stdout := by
  decide +kernel

end

end Command

end ImportOrder
