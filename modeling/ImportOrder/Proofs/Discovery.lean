import ImportOrder.Proofs.StandardInput
import Mathlib.Algebra.GroupWithZero.Nat
import Mathlib.Data.List.Induction
import ImportOrder.Runtime

/-!
# The search for an options file

The options of a path are those of the nearest directory that holds an options file, counted upwards from the path if it
is a directory and from what it lies in if not. Only three things can get in the way, and all of them are about the
path: a NUL character in it, a name or a whole that is too long where it has to be looked up, and an options file in the
first of the directories whose own path would be too long. So nothing matters to the result but what the search looks
at.
-/

namespace ImportOrder

open ImportOrder.Action

/-! ## Places that paths name -/

theorem Path.plain_follow {place names : List String} (hplace : ∀ name ∈ place, PlainName name)
    (hnames : ∀ name ∈ names, '/' ∉ name.toList ∧ '\x00' ∉ name.toList) :
    ∀ name ∈ follow place names, PlainName name := by
  induction names generalizing place with
  | nil => exact hplace
  | cons name names ih =>
    obtain ⟨hname, hnames⟩ := List.forall_mem_cons.mp hnames
    rw [follow]
    split
    · exact ih (fun other hother => hplace other ((List.dropLast_sublist place).subset hother)) hnames
    · rename_i hpoints
      split
      · exact ih hplace hnames
      · rename_i hstays
        rw [not_or] at hstays
        apply ih _ hnames
        intro other hother
        rcases List.mem_append.mp hother with hother | hother
        · exact hplace other hother
        · rw [List.mem_singleton.mp hother]
          exact ⟨hstays.1, hstays.2, hpoints, hname.1, hname.2⟩

/-- The size of a spelling: every name of the place counts with the slash before it. -/
theorem Path.utf8ByteSize_absolute_concat (place : List String) (name : String) :
    (absolute (place ++ [name])).utf8ByteSize =
      (place.map fun other => other.utf8ByteSize + 1).sum + name.utf8ByteSize + 1 := by
  have hslash : "/".utf8ByteSize = 1 := by decide
  have hjoin : ("/".intercalate (place ++ [name])).utf8ByteSize =
      (place.map fun other => other.utf8ByteSize + 1).sum + name.utf8ByteSize := by
    induction place with
    | nil => simp
    | cons first place ih =>
      obtain ⟨second, rest, hrest⟩ := List.exists_cons_of_ne_nil (l := place ++ [name]) (by simp)
      rw [List.cons_append, hrest, String.intercalate_cons_cons, ← hrest, String.utf8ByteSize_append,
        String.utf8ByteSize_append, ih, hslash, List.map_cons, List.sum_cons]
      omega
  rw [absolute, String.utf8ByteSize_append, hjoin, hslash]
  omega

namespace FileSystem

variable {fs : FileSystem} {path : String} {start place : List String}

theorem plain_resolve (hcurrent : ∀ name ∈ fs.current, PlainName name) (hnul : '\x00' ∉ path.toList) :
    ∀ name ∈ fs.resolve path, PlainName name := by
  apply Path.plain_follow
  · unfold startOf
    split
    · simp
    · exact hcurrent
  · intro name hname
    obtain ⟨piece, hpiece, rfl⟩ := List.mem_map.mp hname
    have hchars := Text.of_mem_splitOn hpiece
    rw [String.toList_ofList]
    exact ⟨fun hslash => (hchars _ hslash).1 rfl, fun hmem => hnul (hchars _ hmem).2⟩

/-! ## Names that are too long -/

/-- On the way along names from a place, one that is too long has to be looked up in a directory. -/
def MeetsLongName (fs : FileSystem) (start place : List String) : Prop :=
  ∃ front name rest, place = front ++ name :: rest ∧ fs.root.kindAt? (start ++ front) = some .directory ∧
    nameLimit < name.utf8ByteSize

/-- A place cannot be looked up: its spelling is too long, or a name on the way to it is. -/
def Refuses (fs : FileSystem) (place : List String) : Prop :=
  pathLimit ≤ (Path.absolute place).utf8ByteSize ∨ fs.MeetsLongName [] place

theorem meetsLongName_cons {name : String} (hstart : fs.root.kindAt? start = some .directory) :
    fs.MeetsLongName start (name :: place) ↔
      nameLimit < name.utf8ByteSize ∨ fs.MeetsLongName (start ++ [name]) place := by
  constructor
  · rintro ⟨front, other, rest, hsplit, hdirectory, hlong⟩
    cases front with
    | nil =>
      rw [List.nil_append, List.cons.injEq] at hsplit
      rw [hsplit.1]
      exact .inl hlong
    | cons first front =>
      rw [List.cons_append, List.cons.injEq] at hsplit
      obtain ⟨rfl, rfl⟩ := hsplit
      refine .inr ⟨front, other, rest, rfl, ?_, hlong⟩
      rwa [List.append_assoc, List.singleton_append]
  · rintro (hlong | ⟨front, other, rest, rfl, hdirectory, hlong⟩)
    · exact ⟨[], name, place, rfl, by rwa [List.append_nil], hlong⟩
    · refine ⟨name :: front, other, rest, rfl, ?_, hlong⟩
      rwa [List.append_assoc, List.singleton_append] at hdirectory

/-- A directory lies below directories only. -/
theorem directory_of_append {below : List String} (h : fs.root.kindAt? (start ++ below) = some .directory) :
    fs.root.kindAt? start = some .directory := by
  obtain ⟨entries, hentries⟩ := Tree.kindAt?_eq_directory_iff.mp h
  rw [Tree.get?_append] at hentries
  obtain ⟨found, hfound, hbelow⟩ := Option.bind_eq_some_iff.mp hentries
  cases found with
  | directory others => exact Tree.kindAt?_eq_directory_iff.mpr ⟨others, hfound⟩
  | file content =>
    cases below with
    | nil => simp at hbelow
    | cons name below => simp [Tree.get?_file_cons] at hbelow

/-- What following plain names comes to. -/
theorem walk_plain_cases (fs : FileSystem) (start : List String) (hplain : ∀ name ∈ place, PlainName name) :
    (fs.MeetsLongName start place ∧ fs.walk start place = .error .nameTooLong) ∨
    (¬fs.MeetsLongName start place ∧ fs.walk start place = .ok (start ++ place)) ∨
    (¬fs.MeetsLongName start place ∧ fs.root.get? (start ++ place) = none ∧
      ∃ refusal, refusal ≠ .nameTooLong ∧ fs.walk start place = .error refusal) := by
  induction place generalizing start with
  | nil =>
    refine .inr (.inl ⟨?_, by rw [walk, List.append_nil]⟩)
    rintro ⟨front, name, rest, hsplit, -⟩
    simp at hsplit
  | cons name place ih =>
    obtain ⟨hname, hplace⟩ := List.forall_mem_cons.mp hplain
    have hnot : fs.root.kindAt? start ≠ some .directory → ¬fs.MeetsLongName start (name :: place) := by
      rintro hstart ⟨front, -, -, -, hdirectory, -⟩
      exact hstart (directory_of_append hdirectory)
    -- a step needs a directory at its start; below anything else nothing stands
    rw [walk]
    cases hget : fs.root.get? start with
    | none =>
      refine .inr (.inr ⟨hnot (by simp [Tree.kindAt?, hget]), ?_, .notFound, by decide, rfl⟩)
      rw [Tree.get?_append, hget, Option.bind_none]
    | some found =>
      cases found with
      | file content =>
        refine .inr (.inr ⟨hnot (by simp [Tree.kindAt?, hget, Tree.kind]), ?_, .notDirectory, by decide, rfl⟩)
        rw [Tree.get?_append, hget, Option.bind_some, Tree.get?_file_cons]
      | directory entries =>
        have hstart := Tree.kindAt?_eq_directory_iff.mpr ⟨entries, hget⟩
        dsimp only
        rw [if_neg (not_or.mpr ⟨hname.ne_empty, hname.ne_point⟩), if_neg hname.ne_points, meetsLongName_cons hstart]
        by_cases hlong : nameLimit < name.utf8ByteSize
        · rw [if_pos hlong]
          exact .inl ⟨.inl hlong, rfl⟩
        · have hrest := ih (start ++ [name]) hplace
          rw [List.append_assoc, List.singleton_append] at hrest
          rw [if_neg hlong, or_iff_right hlong]
          exact hrest

/-- A place that can be looked up by its spelling is found as it stands. -/
theorem lookUp_absolute_cases (hplain : ∀ name ∈ place, PlainName name) (hroot : fs.root.isDirectory = true) :
    (fs.Refuses place ∧ fs.lookUp (Path.absolute place) = .error .nameTooLong) ∨
      (¬fs.Refuses place ∧ fs.lookUp (Path.absolute place) = .ok (fs.root.get? place)) := by
  rw [lookUp, locate_absolute hplain hroot, Refuses]
  by_cases hlong : pathLimit ≤ (Path.absolute place).utf8ByteSize
  · rw [if_pos hlong]
    exact .inl ⟨.inl hlong, rfl⟩
  · rw [if_neg hlong, or_iff_right hlong]
    rcases walk_plain_cases fs [] hplain with
      ⟨hmeets, hwalk⟩ | ⟨hmeets, hwalk⟩ | ⟨hmeets, hnone, refusal, hrefusal, hwalk⟩
    · rw [hwalk]
      exact .inl ⟨hmeets, rfl⟩
    · rw [hwalk]
      exact .inr ⟨hmeets, rfl⟩
    · rw [hwalk]
      rw [List.nil_append] at hnone
      refine .inr ⟨hmeets, ?_⟩
      cases refusal with
      | nameTooLong => exact absurd rfl hrefusal
      | _ => rw [hnone]

theorem locate_of_not_refuses (hplain : ∀ name ∈ place, PlainName name) (hroot : fs.root.isDirectory = true)
    (h : ¬fs.Refuses place) {tree : Tree} (hget : fs.root.get? place = some tree) :
    fs.locate (Path.absolute place) = .ok place := by
  rw [Refuses, not_or] at h
  rw [locate_absolute hplain hroot, if_neg h.1]
  rcases walk_plain_cases fs [] hplain with ⟨hmeets, -⟩ | ⟨-, hwalk⟩ | ⟨-, hnone, -⟩
  · exact absurd hmeets h.2
  · exact hwalk
  · rw [List.nil_append, hget] at hnone
    simp at hnone

end FileSystem

/-! ## The search -/

namespace Options

/-- Where the options file of a directory stands. -/
def fileIn (directory : List String) : List String :=
  directory ++ [Settings.optionsFilename]

/-- Where the search for the options of a path begins. -/
def startFor (fs : FileSystem) (path : String) : List String :=
  match fs.root.kindAt? (fs.resolve path) with
  | some .directory => fs.resolve path
  | _ => (fs.resolve path).dropLast

/-- Of the directories from a place upwards, the nearest with an options file, and what this file holds. -/
structure Nearest (fs : FileSystem) (start directory : List String) (content : ByteArray) : Prop where
  above : directory <+: start
  held : fs.fileAt? (fileIn directory) = some content
  nearest : ∀ deeper, deeper <+: start → directory.length < deeper.length → fs.fileAt? (fileIn deeper) = none

/-- What keeps options from being looked for. -/
inductive Obstacle (fs : FileSystem) (path : String) : Failure → Prop where
  /-- The path holds a NUL character. -/
  | nul (hnul : '\x00' ∈ path.toList) : Obstacle fs path (.refused .nulInPath path)
  /-- What the path names cannot be looked up. -/
  | start (hnul : '\x00' ∉ path.toList) (hrefuses : fs.Refuses (fs.resolve path)) :
      Obstacle fs path (.refused .nameTooLong (Path.absolute (fs.resolve path)))
  /-- An options file where the search begins could not be looked up. -/
  | first (hnul : '\x00' ∉ path.toList) (hrefuses : ¬fs.Refuses (fs.resolve path))
      (hlong : pathLimit ≤ (Path.absolute (fileIn (startFor fs path))).utf8ByteSize) :
      Obstacle fs path (.refused .nameTooLong (Path.absolute (fileIn (startFor fs path))))

/-- A file system in which paths can be followed: its root is a directory, and relative paths start from a place that
has a spelling. -/
structure Rooted (fs : FileSystem) : Prop where
  root : fs.root.isDirectory = true
  current : ∀ name ∈ fs.current, PlainName name

theorem plain_optionsFilename : PlainName Settings.optionsFilename := by
  decide

theorem upwards_nil : upwards [] = [[]] := rfl

theorem upwards_concat (place : List String) (name : String) :
    upwards (place ++ [name]) = (place ++ [name]) :: upwards place := by
  unfold upwards
  rw [List.length_append, List.length_singleton, List.range_succ_eq_map, List.map_cons, List.map_map]
  congr 1
  · rw [Nat.sub_zero, List.take_of_length_le (by simp)]
  · apply List.map_congr_left
    intro n _
    show (place ++ [name]).take (place.length + 1 - (n + 1)) = place.take (place.length - n)
    rw [Nat.add_sub_add_right, List.take_append_of_le_length (Nat.sub_le _ _)]

theorem exists_upwards_eq_cons (place : List String) : ∃ rest, upwards place = place :: rest := by
  rcases List.eq_nil_or_concat place with rfl | ⟨place, name, rfl⟩
  · exact ⟨[], rfl⟩
  · rw [List.concat_eq_append]
    exact ⟨_, upwards_concat place name⟩

section

variable {fs : FileSystem} {path : String} {start : List String}

theorem runOn_findIn_refused {directory : List String} {rest : List (List String)} {refusal : Refusal}
    (h : fs.lookUp (Path.absolute (fileIn directory)) = .error refusal) :
    runOn (findIn (directory :: rest)) fs = (.error (.refused refusal (Path.absolute (fileIn directory))), fs) := by
  show runOn (lookUp (Path.absolute (fileIn directory)) >>= fun _ => _) fs = _
  rw [runOn_bind, runOn_lookUp, h]

theorem runOn_findIn_cons {directory : List String} {rest : List (List String)}
    (h : fs.lookUp (Path.absolute (fileIn directory)) = .ok (fs.root.get? (fileIn directory))) :
    runOn (findIn (directory :: rest)) fs =
      match fs.fileAt? (fileIn directory) with
      | some _ => (.ok (some (fileIn directory)), fs)
      | none => runOn (findIn rest) fs := by
  show runOn (lookUp (Path.absolute (fileIn directory)) >>= fun _ => _) fs = _
  rw [runOn_bind, runOn_lookUp, h, FileSystem.fileAt?, Tree.fileAt?, Tree.kindAt?]
  cases fs.root.get? (fileIn directory) with
  | none => rfl
  | some tree =>
    cases tree with
    | file content => rfl
    | directory entries => rfl

/-- Looking into directories from a place upwards finds the nearest options file. -/
theorem runOn_findIn (h : ∀ directory, directory <+: start →
    fs.lookUp (Path.absolute (fileIn directory)) = .ok (fs.root.get? (fileIn directory))) :
    (∃ directory content, Nearest fs start directory content ∧
      runOn (findIn (upwards start)) fs = (.ok (some (fileIn directory)), fs)) ∨
    ((∀ directory, directory <+: start → fs.fileAt? (fileIn directory) = none) ∧
      runOn (findIn (upwards start)) fs = (.ok none, fs)) := by
  induction start using List.reverseRecOn with
  | nil =>
    rw [upwards_nil, runOn_findIn_cons (h [] List.prefix_rfl)]
    cases hfile : fs.fileAt? (fileIn []) with
    | none =>
      refine .inr ⟨?_, rfl⟩
      intro directory hdirectory
      rwa [List.prefix_nil.mp hdirectory]
    | some content =>
      refine .inl ⟨[], content, ⟨List.prefix_rfl, hfile, ?_⟩, rfl⟩
      intro deeper hdeeper hlength
      simp [List.prefix_nil.mp hdeeper] at hlength
  | append_singleton start name ih =>
    -- directories are looked into from the innermost, which is the last name of the place
    rw [upwards_concat, runOn_findIn_cons (h _ List.prefix_rfl)]
    cases hfile : fs.fileAt? (fileIn (start ++ [name])) with
    | some content =>
      refine .inl ⟨start ++ [name], content, ⟨List.prefix_rfl, hfile, ?_⟩, rfl⟩
      intro deeper hdeeper hlength
      exact absurd hdeeper.length_le (Nat.not_le.mpr hlength)
    | none =>
      dsimp only
      rcases ih fun directory hdirectory => h directory (hdirectory.trans (List.prefix_append _ _)) with
        ⟨directory, content, hnearest, hrun⟩ | ⟨hnone, hrun⟩
      · refine .inl ⟨directory, content, ⟨hnearest.above.trans (List.prefix_append _ _), hnearest.held, ?_⟩, hrun⟩
        intro deeper hdeeper hlength
        rcases List.prefix_concat_iff.mp hdeeper with rfl | hdeeper
        · exact hfile
        · exact hnearest.nearest deeper hdeeper hlength
      · refine .inr ⟨?_, hrun⟩
        intro directory hdirectory
        rcases List.prefix_concat_iff.mp hdirectory with rfl | hdirectory
        · exact hfile
        · exact hnone directory hdirectory

/-- There is one nearest options file. -/
theorem Nearest.unique {directory directory' : List String} {content content' : ByteArray}
    (h : Nearest fs start directory content) (h' : Nearest fs start directory' content') : directory = directory' := by
  have hle : ∀ {d d' : List String} {c c' : ByteArray}, Nearest fs start d c → Nearest fs start d' c' →
      d'.length ≤ d.length := by
    intro d d' c c' hd hd'
    by_contra hlt
    have hnone := hd.nearest d' hd'.above (Nat.not_le.mp hlt)
    rw [hd'.held] at hnone
    simp at hnone
  exact (List.prefix_of_prefix_length_le h.above h'.above (hle h' h)).eq_of_length
    (Nat.le_antisymm (hle h' h) (hle h h'))

/-! ## Without obstacles -/

theorem startFor_isPrefix (fs : FileSystem) (path : String) : startFor fs path <+: fs.resolve path := by
  unfold startFor
  split
  · exact List.prefix_rfl
  · exact List.dropLast_prefix _

/-- An options file in a directory on the way to a place meets no name that is too long, if the place meets none. -/
theorem not_meetsLongName_fileIn {place directory : List String} (h : ¬fs.MeetsLongName [] place)
    (hdirectory : directory <+: place) : ¬fs.MeetsLongName [] (fileIn directory) := by
  rintro ⟨front, name, rest, hsplit, hfront, hlong⟩
  rw [fileIn] at hsplit
  rcases List.eq_nil_or_concat rest with rfl | ⟨rest, last, rfl⟩
  · -- the name of the options file itself is short
    obtain ⟨-, hlast⟩ := List.append_inj' hsplit rfl
    rw [← (List.cons.inj hlast).1] at hlong
    exact absurd hlong (by decide)
  · rw [List.concat_eq_append, ← List.cons_append, ← List.append_assoc] at hsplit
    obtain ⟨rfl, -⟩ := List.append_inj' hsplit rfl
    obtain ⟨more, rfl⟩ := hdirectory
    exact h ⟨front, name, rest ++ more, by simp, hfront, hlong⟩

/-- Where nothing gets in the way, the options files that the search may come to can all be looked up. -/
theorem not_refuses_fileIn (hrefuses : ¬fs.Refuses (fs.resolve path))
    (hshort : (Path.absolute (fileIn (startFor fs path))).utf8ByteSize < pathLimit) {directory : List String}
    (hdirectory : directory <+: startFor fs path) : ¬fs.Refuses (fileIn directory) := by
  rw [FileSystem.Refuses, not_or] at hrefuses ⊢
  refine ⟨?_, not_meetsLongName_fileIn hrefuses.2 (hdirectory.trans (startFor_isPrefix fs path))⟩
  obtain ⟨more, hmore⟩ := hdirectory
  rw [fileIn, Path.utf8ByteSize_absolute_concat] at hshort ⊢
  rw [← hmore, List.map_append, List.sum_append] at hshort
  omega

theorem plain_fileIn (hrooted : Rooted fs) (hnul : '\x00' ∉ path.toList) {directory : List String}
    (hdirectory : directory <+: startFor fs path) : ∀ name ∈ fileIn directory, PlainName name := by
  intro name hname
  rcases List.mem_append.mp hname with hname | hname
  · exact FileSystem.plain_resolve hrooted.current hnul name
      ((hdirectory.trans (startFor_isPrefix fs path)).subset hname)
  · rw [List.mem_singleton.mp hname]
    exact plain_optionsFilename

theorem runOn_resolve [Yaml.Reader] (path : String) (fs : FileSystem) : runOn (resolve path "") fs =
    match runOn (find path) fs with
    | (.ok (some place), fs') => runOn (load (Path.absolute place)) fs'
    | (.ok none, fs') => (.ok [], fs')
    | (.error failure, fs') => (.error failure, fs') := by
  show runOn (find path >>= fun _ => _) fs = _
  rw [runOn_bind]
  cases runOn (find path) fs with
  | mk outcome fs' =>
    cases outcome with
    | error failure => rfl
    | ok found =>
      cases found with
      | none => rfl
      | some place => rfl

/-- The search begins where it is said to, if the path can be looked up. -/
theorem runOn_searchStart_of_lookUp (hnul : '\x00' ∉ path.toList)
    (h : fs.lookUp (Path.absolute (fs.resolve path)) = .ok (fs.root.get? (fs.resolve path))) :
    runOn (searchStart path) fs = (.ok (startFor fs path), fs) := by
  rw [runOn_searchStart (by simpa using hnul) h, startFor, Tree.kindAt?]
  cases fs.root.get? (fs.resolve path) with
  | none => rfl
  | some tree =>
    cases tree with
    | file content => rfl
    | directory entries => rfl

theorem runOn_searchStart_refused {refusal : Refusal} (hnul : '\x00' ∉ path.toList)
    (h : fs.lookUp (Path.absolute (fs.resolve path)) = .error refusal) :
    runOn (searchStart path) fs = (.error (.refused refusal (Path.absolute (fs.resolve path))), fs) := by
  rw [searchStart, if_neg (by simpa using hnul)]
  show runOn (get >>= fun _ => _) fs = _
  rw [runOn_get_bind, runOn_bind, runOn_lookUp, h]

/-- How looking for the options of a path ends when no options file is named: with the failure of an obstacle; or, if
there is none, with the options of the nearest options file, or with no options where there is no such file. -/
inductive Discovery [Yaml.Reader] (fs : FileSystem) (path : String) : Prop where
  | obstructed (failure : Failure) (hobstacle : Obstacle fs path failure)
      (hrun : runOn (resolve path "") fs = (.error failure, fs))
  | found (directory : List String) (content : ByteArray) (hfree : ∀ failure, ¬Obstacle fs path failure)
      (hnearest : Nearest fs (startFor fs path) directory content)
      (hlocate : fs.locate (Path.absolute (fileIn directory)) = .ok (fileIn directory))
      (hrun : runOn (resolve path "") fs = runOn (load (Path.absolute (fileIn directory))) fs)
  | absent (hfree : ∀ failure, ¬Obstacle fs path failure)
      (hnone : ∀ directory, directory <+: startFor fs path → fs.fileAt? (fileIn directory) = none)
      (hrun : runOn (resolve path "") fs = (.ok [], fs))

theorem discovery [Yaml.Reader] (hrooted : Rooted fs) (path : String) : Discovery fs path := by
  have hresolve := runOn_resolve path fs
  rw [find, runOn_bind] at hresolve
  by_cases hnul : '\x00' ∈ path.toList
  · apply Discovery.obstructed _ (.nul hnul)
    rw [hresolve, searchStart, if_pos (by simpa using hnul)]
    rfl
  have hplain := FileSystem.plain_resolve hrooted.current hnul
  rcases FileSystem.lookUp_absolute_cases hplain hrooted.root with ⟨hrefuses, hlookUp⟩ | ⟨hrefuses, hlookUp⟩
  · apply Discovery.obstructed _ (.start hnul hrefuses)
    rw [hresolve, runOn_searchStart_refused hnul hlookUp]
  rw [runOn_searchStart_of_lookUp hnul hlookUp] at hresolve
  dsimp only at hresolve
  by_cases hlong : pathLimit ≤ (Path.absolute (fileIn (startFor fs path))).utf8ByteSize
  · apply Discovery.obstructed _ (.first hnul hrefuses hlong)
    obtain ⟨rest, hrest⟩ := exists_upwards_eq_cons (startFor fs path)
    have hrefused := ((FileSystem.lookUp_absolute_cases (plain_fileIn hrooted hnul List.prefix_rfl)
      hrooted.root).resolve_right fun hboth => hboth.1 (.inl hlong)).2
    rw [hresolve, hrest, runOn_findIn_refused hrefused]
  have hfree : ∀ failure, ¬Obstacle fs path failure := by
    rintro failure (hmem | ⟨-, hrefused⟩ | ⟨-, -, hfirst⟩)
    · exact hnul hmem
    · exact hrefuses hrefused
    · exact hlong hfirst
  -- paths get shorter on the way up, and no name is met that has not been met on the way to the start
  have hlook : ∀ directory, directory <+: startFor fs path → ¬fs.Refuses (fileIn directory) ∧
      fs.lookUp (Path.absolute (fileIn directory)) = .ok (fs.root.get? (fileIn directory)) := by
    intro directory hdirectory
    have hnot := not_refuses_fileIn hrefuses (Nat.not_le.mp hlong) hdirectory
    exact (FileSystem.lookUp_absolute_cases (plain_fileIn hrooted hnul hdirectory) hrooted.root).resolve_left
      fun hboth => hnot hboth.1
  rcases runOn_findIn fun directory hdirectory => (hlook directory hdirectory).2 with
    ⟨directory, content, hnearest, hrun⟩ | ⟨hnone, hrun⟩
  · obtain ⟨tree, hget, -⟩ := Option.map_eq_some_iff.mp (Tree.fileAt?_eq_some_iff.mp hnearest.held)
    have hlocate := FileSystem.locate_of_not_refuses (plain_fileIn hrooted hnul hnearest.above) hrooted.root
      (hlook directory hnearest.above).1 hget
    exact .found directory content hfree hnearest hlocate (by rw [hresolve, hrun])
  · exact .absent hfree hnone (by rw [hresolve, hrun])

end

/-! ## What the search looks at -/

/-- Two file systems look the same to the search for the options of a path: relative paths start from the same place,
the path names a directory in both or in neither and is refused by both or by neither, the same directories on the way
up hold an options file, and the nearest such file holds the same. -/
structure SameSearch (fs fs' : FileSystem) (path : String) : Prop where
  current : fs'.current = fs.current
  directory : fs'.root.kindAt? (fs.resolve path) = some .directory ↔ fs.root.kindAt? (fs.resolve path) = some .directory
  refuses : fs'.Refuses (fs.resolve path) ↔ fs.Refuses (fs.resolve path)
  held : ∀ directory, directory <+: startFor fs path →
    ((fs'.fileAt? (fileIn directory)).isSome ↔ (fs.fileAt? (fileIn directory)).isSome)
  content : ∀ directory content, Nearest fs (startFor fs path) directory content →
    fs'.fileAt? (fileIn directory) = some content

section

variable {fs fs' : FileSystem} {path : String} {failure failure' : Failure}

theorem Obstacle.unique (h : Obstacle fs path failure) (h' : Obstacle fs path failure') : failure = failure' := by
  cases h with
  | nul hnul =>
    cases h' with
    | nul _ => rfl
    | start hnul' _ => exact absurd hnul hnul'
    | first hnul' _ _ => exact absurd hnul hnul'
  | start hnul hrefuses =>
    cases h' with
    | nul hnul' => exact absurd hnul' hnul
    | start _ _ => rfl
    | first _ hnot _ => exact absurd hrefuses hnot
  | first hnul hnot hlong =>
    cases h' with
    | nul hnul' => exact absurd hnul' hnul
    | start _ hrefuses => exact absurd hrefuses hnot
    | first _ _ _ => rfl

namespace SameSearch

variable (h : SameSearch fs fs' path)

include h

theorem resolve_eq : fs'.resolve path = fs.resolve path := by
  rw [FileSystem.resolve, FileSystem.resolve, FileSystem.startOf, FileSystem.startOf, h.current]

theorem startFor_eq : startFor fs' path = startFor fs path := by
  unfold startFor
  rw [h.resolve_eq]
  split
  · rename_i hkind
    rw [h.directory.mp hkind]
  · rename_i hkind
    split
    · rename_i hkind'
      exact absurd (h.directory.mpr hkind') hkind
    · rfl

theorem obstacle_iff : Obstacle fs' path failure ↔ Obstacle fs path failure := by
  have hresolve := h.resolve_eq
  have hstart := h.startFor_eq
  constructor
  · rintro (hnul | ⟨hnul, hrefuses⟩ | ⟨hnul, hrefuses, hlong⟩)
    · exact .nul hnul
    · rw [hresolve] at hrefuses ⊢
      exact .start hnul (h.refuses.mp hrefuses)
    · rw [hresolve, h.refuses] at hrefuses
      rw [hstart] at hlong ⊢
      exact .first hnul hrefuses hlong
  · rintro (hnul | ⟨hnul, hrefuses⟩ | ⟨hnul, hrefuses, hlong⟩)
    · exact .nul hnul
    · rw [← h.refuses, ← hresolve] at hrefuses
      rw [← hresolve]
      exact .start hnul hrefuses
    · rw [← h.refuses, ← hresolve] at hrefuses
      rw [← hstart] at hlong ⊢
      exact .first hnul hrefuses hlong

theorem fileAt?_eq_none {directory : List String} (hdirectory : directory <+: startFor fs path)
    (hnone : fs.fileAt? (fileIn directory) = none) : fs'.fileAt? (fileIn directory) = none := by
  have hheld := h.held directory hdirectory
  rw [hnone] at hheld
  simpa using hheld

theorem nearest {directory : List String} {content : ByteArray}
    (hnearest : Nearest fs (startFor fs path) directory content) :
    Nearest fs' (startFor fs' path) directory content := by
  rw [h.startFor_eq]
  refine ⟨hnearest.above, h.content directory content hnearest, ?_⟩
  intro deeper hdeeper hlength
  exact h.fileAt?_eq_none hdeeper (hnearest.nearest deeper hdeeper hlength)

end SameSearch

/-- What is loaded from a path depends on the content of the file alone. -/
theorem fst_runOn_load [Yaml.Reader] {place place' : List String} {content : ByteArray}
    (hplace : fs.locate path = .ok place)
    (hcontent : fs.fileAt? place = some content) (hplace' : fs'.locate path = .ok place')
    (hcontent' : fs'.fileAt? place' = some content) : (runOn (load path) fs).1 = (runOn (load path) fs').1 := by
  have hbytes : ∀ {fs : FileSystem} {place : List String}, fs.locate path = .ok place →
      fs.fileAt? place = some content → runOn (readBytes path) fs = (.ok content, fs) := by
    intro fs place hplace hcontent
    rw [runOn_readBytes, hplace]
    dsimp only
    rw [Tree.fileAt?_eq_some_iff.mp hcontent]
  unfold load readYaml readText
  simp only [bind_assoc, runOn_bind, hbytes hplace hcontent, hbytes hplace' hcontent']
  cases String.fromUTF8? content with
  | none => rfl
  | some text =>
    simp only [runOn_pure]
    split
    · rfl
    · rfl
    · rfl
    · rfl
    · split
      · rfl
      · split <;> rfl

theorem fst_runOn_resolve [Yaml.Reader] (hrooted : Rooted fs) (hrooted' : Rooted fs') (h : SameSearch fs fs' path) :
    (runOn (resolve path "") fs).1 = (runOn (resolve path "") fs').1 := by
  -- of the three ways in which a search ends, both file systems allow the same one
  cases discovery hrooted path with
  | obstructed failure hobstacle hrun =>
    cases discovery hrooted' path with
    | obstructed failure' hobstacle' hrun' => rw [hrun, hrun', hobstacle.unique (h.obstacle_iff.mp hobstacle')]
    | found _ _ hfree' => exact absurd (h.obstacle_iff.mpr hobstacle) (hfree' failure)
    | absent hfree' => exact absurd (h.obstacle_iff.mpr hobstacle) (hfree' failure)
  | found directory content hfree hnearest hlocate hrun =>
    have hnearest' := h.nearest hnearest
    cases discovery hrooted' path with
    | obstructed failure' hobstacle' => exact absurd (h.obstacle_iff.mp hobstacle') (hfree failure')
    | found directory' content' _ hother hlocate' hrun' =>
      obtain rfl := hnearest'.unique hother
      rw [hrun, hrun']
      exact fst_runOn_load hlocate hnearest.held hlocate' hnearest'.held
    | absent _ hnone' =>
      have hheld := hnearest'.held
      rw [hnone' directory hnearest'.above] at hheld
      simp at hheld
  | absent hfree hnone hrun =>
    cases discovery hrooted' path with
    | obstructed failure' hobstacle' => exact absurd (h.obstacle_iff.mp hobstacle') (hfree failure')
    | found directory' content' _ hother =>
      have habove := hother.above
      rw [h.startFor_eq] at habove
      have hheld := hother.held
      rw [h.fileAt?_eq_none habove (hnone directory' habove)] at hheld
      simp at hheld
    | absent _ _ hrun' => rw [hrun, hrun']

end

/-- Without a named options file the nearest one wins, and nothing else matters: unless an obstacle ends the search, the
options of a path are those of the nearest options file upwards from it, and two file systems that look the same to the
search give the same options or the same failure. -/
theorem resolve_nearest [Yaml.Reader] (path : String) : (∀ fs, Rooted fs → Discovery fs path) ∧
    ∀ fs fs', Rooted fs → Rooted fs' → SameSearch fs fs' path →
      (runOn (resolve path "") fs).1 = (runOn (resolve path "") fs').1 :=
  ⟨fun _ hrooted => discovery hrooted path, fun _ _ hrooted hrooted' h => fst_runOn_resolve hrooted hrooted' h⟩

/-- Directories in each other: the outermost holds the given text as its options, the next one a directory that bears
the name of an options file, the third valid options, and the innermost the given entries. -/
def nestedOptions (outermost : String) (innermost : List (String × Tree)) : FileSystem where
  root := .directory [
    (".import_groups.yaml", .file outermost.toUTF8),
    ("a", .directory [
      (".import_groups.yaml", .directory []),
      ("b", .directory [
        (".import_groups.yaml", .file "aliases: [x]\n".toUTF8),
        ("c", .directory innermost)])])]
  current := []

section

open ImportOrder.Runtime

/-- The options of a file in the innermost directory, which are the same whether the file is there or not and whatever
the outermost directory holds. -/
theorem resolve_nearest_nestedOptions : ∃ fs fs', fs = nestedOptions "aliases: [" [("d.ts", .file ByteArray.empty)] ∧
    fs' = nestedOptions "" [] ∧ Discovery fs "a/b/c/d.ts" ∧
    Nearest fs (startFor fs "a/b/c/d.ts") ["a", "b"] "aliases: [x]\n".toUTF8 ∧
    (runOn (resolve "a/b/c/d.ts" "") fs).1 = (runOn (resolve "a/b/c/d.ts" "") fs').1 := by
  have hrooted : ∀ outermost innermost, Rooted (nestedOptions outermost innermost) :=
    fun _ _ => ⟨rfl, by simp [nestedOptions]⟩
  have hresolve : ∀ outermost innermost,
      (nestedOptions outermost innermost).resolve "a/b/c/d.ts" = ["a", "b", "c", "d.ts"] := by
    intro _ _
    have hnames : Path.names "a/b/c/d.ts" = ["a", "b", "c", "d.ts"] := by decide +kernel
    rw [FileSystem.resolve, hnames]
    rfl
  have hrefuses : ∀ fs : FileSystem, ¬fs.Refuses ["a", "b", "c", "d.ts"] := by
    rintro fs (hlong | ⟨front, name, rest, hsplit, -, hlong⟩)
    · exact absurd hlong (by decide)
    · have hmem : name ∈ ["a", "b", "c", "d.ts"] := hsplit ▸ List.mem_append_right front List.mem_cons_self
      have hshort : ∀ name ∈ ["a", "b", "c", "d.ts"], name.utf8ByteSize ≤ nameLimit := by decide
      exact Nat.not_lt.mpr (hshort name hmem) hlong
  have habove : ∀ directory, directory <+: ["a", "b", "c"] →
      directory = [] ∨ directory = ["a"] ∨ directory = ["a", "b"] ∨ directory = ["a", "b", "c"] := by
    intro directory hdirectory
    simp only [List.prefix_cons_iff, List.prefix_nil] at hdirectory
    rcases hdirectory with rfl | ⟨_, rfl, rfl | ⟨_, rfl, rfl | ⟨_, rfl, rfl⟩⟩⟩ <;> simp
  have hstart : ∀ {fs : FileSystem}, fs.resolve "a/b/c/d.ts" = ["a", "b", "c", "d.ts"] →
      fs.root.kindAt? ["a", "b", "c", "d.ts"] ≠ some .directory → startFor fs "a/b/c/d.ts" = ["a", "b", "c"] := by
    intro fs hplace hnot
    rw [startFor, hplace]
    split
    · contradiction
    · rfl
  have hnot : ∀ {outermost innermost}, innermost = [("d.ts", .file ByteArray.empty)] ∨ innermost = [] →
      (nestedOptions outermost innermost).root.kindAt? ["a", "b", "c", "d.ts"] ≠ some .directory := by
    rintro outermost innermost (rfl | rfl) hkind
    · cases hkind
    · cases hkind
  have hnearest : ∀ {outermost innermost}, innermost = [("d.ts", .file ByteArray.empty)] ∨ innermost = [] →
      Nearest (nestedOptions outermost innermost) ["a", "b", "c"] ["a", "b"] "aliases: [x]\n".toUTF8 := by
    intro outermost innermost hinnermost
    refine ⟨by simp, rfl, ?_⟩
    intro deeper hdeeper hlength
    rcases habove deeper hdeeper with rfl | rfl | rfl | rfl
    · simp at hlength
    · simp at hlength
    · simp at hlength
    · rcases hinnermost with rfl | rfl <;> rfl
  refine ⟨_, _, rfl, rfl, (resolve_nearest "a/b/c/d.ts").1 _ (hrooted _ _), ?_,
    (resolve_nearest "a/b/c/d.ts").2 _ _ (hrooted _ _) (hrooted _ _) ⟨rfl, ?_, ?_, ?_, ?_⟩⟩
  · rw [hstart (hresolve _ _) (hnot (.inl rfl))]
    exact hnearest (.inl rfl)
  · rw [hresolve]
    exact iff_of_false (hnot (.inr rfl)) (hnot (.inl rfl))
  · rw [hresolve]
    exact iff_of_false (hrefuses _) (hrefuses _)
  · rw [hstart (hresolve _ _) (hnot (.inl rfl))]
    intro directory hdirectory
    rcases habove directory hdirectory with rfl | rfl | rfl | rfl <;> exact Iff.rfl
  · rw [hstart (hresolve _ _) (hnot (.inl rfl))]
    intro directory content hother
    obtain rfl := (hnearest (.inl rfl)).unique hother
    exact hother.held

/-- A name that no file can have. -/
def overlongName : String :=
  String.ofList (List.replicate 256 'n')

/-- A name that is too long is refused where it is looked up, although options that can be loaded stand beside it. -/
theorem resolve_overlongName : ∃ fs content, fs = nestedOptions "" [] ∧ Rooted fs ∧
    Nearest fs (startFor fs overlongName) [] content ∧
    (runOn (load (Path.absolute (fileIn []))) fs).1.toOption.isSome = true ∧
    runOn (resolve overlongName "") fs =
      (.error (.refused .nameTooLong (Path.absolute [overlongName])), fs) := by
  have hrooted : Rooted (nestedOptions "" []) := ⟨rfl, by simp [nestedOptions]⟩
  have hchars : ∀ c ∈ overlongName.toList, c = 'n' := by
    unfold overlongName
    generalize 256 = length
    rw [String.toList_ofList]
    exact fun c hc => List.eq_of_mem_replicate hc
  have hplain : PlainName overlongName :=
    ⟨by decide +kernel, by decide +kernel, by decide +kernel, fun hslash => absurd (hchars _ hslash) (by decide),
      fun hnul => absurd (hchars _ hnul) (by decide)⟩
  have hresolve : (nestedOptions "" []).resolve overlongName = [overlongName] :=
    FileSystem.resolve_of_plain hplain
  have hrefuses : (nestedOptions "" []).Refuses [overlongName] :=
    .inr ⟨[], overlongName, [], rfl, rfl, by decide +kernel⟩
  have hobstacle : Obstacle (nestedOptions "" []) overlongName
      (.refused .nameTooLong (Path.absolute [overlongName])) := by
    rw [← hresolve] at hrefuses ⊢
    exact .start hplain.no_nul hrefuses
  have hstart : startFor (nestedOptions "" []) overlongName = [] := by
    have hnone : ((nestedOptions "" []).root.get? [overlongName]).isNone = true := by decide +kernel
    rw [startFor, hresolve, Tree.kindAt?, Option.isNone_iff_eq_none.mp hnone]
    rfl
  refine ⟨_, "".toUTF8, rfl, hrooted, ?_, by decide +kernel, ?_⟩
  · rw [hstart]
    refine ⟨List.prefix_rfl, rfl, ?_⟩
    intro deeper hdeeper hlength
    simp [List.prefix_nil.mp hdeeper] at hlength
  · cases discovery hrooted overlongName with
    | obstructed failure hother hrun => rw [hrun, hobstacle.unique hother]
    | found _ _ hfree => exact absurd hobstacle (hfree _)
    | absent hfree => exact absurd hobstacle (hfree _)

end

end Options

end ImportOrder
