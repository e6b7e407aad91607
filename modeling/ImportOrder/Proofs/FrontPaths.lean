import ImportOrder.Proofs.Effects
import ImportOrder.Proofs.Gaps

/-!
# Front parts of paths

A path that leads somewhere leads through directories: cut before one of its slashes, it leads to one of them. So where
a path leads to a directory, the making of that directory with all above it finds everything in place and changes
nothing. Where a path would lead to a directory if only some more directories were there, the making of it succeeds and
makes none but those.
-/

namespace ImportOrder

/-! ## Following names in parts -/

namespace FileSystem

variable {fs fs' : FileSystem} {path : String} {place found : List String}

theorem walk_append (fs : FileSystem) (place names others : List String) :
    fs.walk place (names ++ others) = (fs.walk place names).bind (fs.walk · others) := by
  induction names generalizing place with
  | nil => rfl
  | cons name names ih =>
    rw [List.cons_append, walk_cons, walk_cons]
    cases fs.root.kindAt? place with
    | none => rfl
    | some kind =>
      cases kind with
      | file content => rfl
      | directory =>
        dsimp only
        split
        · exact ih _
        · split
          · exact ih _
          · split
            · rfl
            · exact ih _

theorem walk_append_ok_iff {names others : List String} :
    fs.walk place (names ++ others) = .ok found ↔ ∃ q, fs.walk place names = .ok q ∧ fs.walk q others = .ok found := by
  rw [walk_append]
  cases fs.walk place names with
  | error refusal => simp [Except.bind]
  | ok q => simp [Except.bind]

/-- Only in a directory can a name be looked up. -/
theorem directory_of_walk {name : String} {names : List String} (h : fs.walk place (name :: names) = .ok found) :
    fs.root.kindAt? place = some .directory := by
  rw [walk_cons] at h
  split at h
  · simp at h
  · simp at h
  · assumption

/-- To look up one name it matters only that it is done in a directory. -/
theorem walk_singleton (h : fs.root.kindAt? place = some .directory) (h' : fs'.root.kindAt? place = some .directory)
    (name : String) : fs.walk place [name] = fs'.walk place [name] := by
  rw [walk_cons, walk_cons, h, h']
  rfl

/-- Empty names stay in a directory. -/
theorem walk_blanks (h : fs.root.kindAt? place = some .directory) (n : Nat) (names : List String) :
    fs.walk place (List.replicate n "" ++ names) = fs.walk place names := by
  induction n with
  | zero => rfl
  | succ n ih =>
    rw [List.replicate_succ, List.cons_append, walk_cons, h]
    dsimp only
    rw [if_pos (.inl rfl), ih]

theorem eq_of_walk_blanks {n : Nat} (h : fs.walk place (List.replicate n "") = .ok found) : found = place := by
  cases n with
  | zero => exact (Except.ok.inj h).symm
  | succ n =>
    rw [← List.append_nil (List.replicate _ _), walk_blanks (directory_of_walk h)] at h
    exact (Except.ok.inj h).symm

/-- A path leads to a place if it can be asked for and its names can be followed. -/
theorem locate_ok_iff : fs.locate path = .ok place ↔
    path ≠ "" ∧ path.toList.contains '\x00' = false ∧ path.utf8ByteSize < pathLimit ∧
      fs.walk (fs.startOf path) (Path.names path) = .ok place := by
  unfold locate
  by_cases hempty : path = ""
  · simp [hempty]
  · rw [if_neg hempty]
    cases path.toList.contains '\x00' with
    | true => simp
    | false =>
      rw [if_neg Bool.false_ne_true]
      by_cases hlong : pathLimit ≤ path.utf8ByteSize
      · simp [hlong, Nat.not_lt.mpr hlong]
      · simp [hlong, hempty, Nat.not_le.mp hlong]

/-- Whether a path can be asked for is the same everywhere. -/
theorem locate_eq_walk (h : fs.locate path = .ok place) (fs' : FileSystem) :
    fs'.locate path = fs'.walk (fs'.startOf path) (Path.names path) := by
  obtain ⟨hne, hnul, hsize, -⟩ := locate_ok_iff.mp h
  rw [locate, if_neg hne, hnul, if_neg Bool.false_ne_true, if_neg (Nat.not_le.mpr hsize)]

/-! ## Cutting a path before a name -/

theorem startOf_append (fs : FileSystem) {front : Text} (hfront : front ≠ []) (rest : Text) :
    fs.startOf (String.ofList (front ++ rest)) = fs.startOf (String.ofList front) := by
  obtain ⟨c, chars, rfl⟩ := List.exists_cons_of_ne_nil hfront
  rw [startOf, startOf, String.toList_ofList, String.toList_ofList]
  rfl

theorem startOf_eq (h : fs'.current = fs.current) (path : String) : fs'.startOf path = fs.startOf path := by
  rw [startOf, startOf, h]

/-- What can be asked for can be asked for in parts. -/
theorem locate_of_walk_front {front rest : Text} (hfront : front ≠ [])
    (h : fs.locate (String.ofList (front ++ rest)) = .ok place)
    (hwalk : fs.walk (fs.startOf (String.ofList front)) (Path.names (String.ofList front)) = .ok found) :
    fs.locate (String.ofList front) = .ok found := by
  obtain ⟨-, hnul, hsize, -⟩ := locate_ok_iff.mp h
  refine locate_ok_iff.mpr ⟨?_, ?_, ?_, hwalk⟩
  · rwa [ne_eq, String.ofList_eq_empty_iff]
  · rw [String.toList_ofList] at hnul ⊢
    simp only [List.contains_eq_mem, List.mem_append, decide_eq_false_iff_not, not_or] at hnul ⊢
    exact hnul.1
  · rw [String.ofList_append, String.utf8ByteSize_append] at hsize
    exact Nat.lt_of_le_of_lt (Nat.le_add_right _ _) hsize

/-- The front of a path and a number of slashes behind it before the path goes on: there is at least one slash. -/
structure Joins (front : Text) (slashes : Nat) : Prop where
  ne_nil : front ≠ []
  slash : 0 < slashes ∨ ∃ inner, front = inner ++ ['/']

theorem names_append_slash (front rest : Text) : Path.names (String.ofList (front ++ '/' :: rest)) =
    Path.names (String.ofList front) ++ Path.names (String.ofList rest) := by
  simp only [Path.names, String.toList_ofList, Text.splitOn_append, List.map_append]

theorem names_replicate_append (n : Nat) (rest : Text) : Path.names (String.ofList (List.replicate n '/' ++ rest)) =
    List.replicate n "" ++ Path.names (String.ofList rest) := by
  simp only [Path.names, String.toList_ofList, Text.splitOn_replicate_append, List.map_append, List.map_replicate]

theorem names_append_replicate (front : Text) (n : Nat) :
    Path.names (String.ofList (front ++ List.replicate n '/')) =
      Path.names (String.ofList front) ++ List.replicate n "" := by
  cases n with
  | zero => simp
  | succ n =>
    have hrest : List.replicate n '/' = List.replicate n '/' ++ [] := (List.append_nil _).symm
    rw [List.replicate_succ, names_append_slash, hrest, names_replicate_append, List.replicate_succ']
    rfl

/-- The names of a path are those of its front and of the rest but for empty names at the seam. -/
theorem Joins.exists_names {front : Text} {n : Nat} (h : Joins front n) (rest : Text) : ∃ names k m,
    Path.names (String.ofList front) = names ++ List.replicate k "" ∧
      Path.names (String.ofList (front ++ (List.replicate n '/' ++ rest))) =
        names ++ (List.replicate m "" ++ Path.names (String.ofList rest)) := by
  cases n with
  | succ n =>
    refine ⟨Path.names (String.ofList front), 0, n, by simp, ?_⟩
    rw [List.replicate_succ, List.cons_append, names_append_slash, names_replicate_append]
  | zero =>
    obtain ⟨inner, rfl⟩ := h.slash.resolve_left (Nat.lt_irrefl 0)
    refine ⟨Path.names (String.ofList inner), 1, 0, names_append_replicate inner 1, ?_⟩
    rw [List.replicate_zero, List.nil_append, List.append_assoc, List.singleton_append, names_append_slash]
    rfl

/-- What follows the front of a path is followed from where the front leads. -/
theorem walk_joined {front : Text} {n : Nat} (hjoins : Joins front n) (rest : Text)
    (h : fs.walk place (Path.names (String.ofList front)) = .ok found)
    (hdirectory : fs.root.kindAt? found = some .directory) :
    fs.walk place (Path.names (String.ofList (front ++ (List.replicate n '/' ++ rest)))) =
      fs.walk found (Path.names (String.ofList rest)) := by
  obtain ⟨names, k, m, hfront, hpath⟩ := hjoins.exists_names rest
  rw [hfront] at h
  obtain ⟨q, hnames, hseam⟩ := walk_append_ok_iff.mp h
  obtain rfl := eq_of_walk_blanks hseam
  rw [hpath, walk_append, hnames]
  exact walk_blanks hdirectory m _

/-- The front of a path that leads somewhere leads to a directory. -/
theorem locate_front {front rest : Text} {n : Nat} (hjoins : Joins front n)
    (h : fs.locate (String.ofList (front ++ (List.replicate n '/' ++ rest))) = .ok place) :
    ∃ q, fs.locate (String.ofList front) = .ok q ∧ fs.root.kindAt? q = some .directory := by
  obtain ⟨names, k, m, hfront, hpath⟩ := hjoins.exists_names rest
  obtain ⟨-, -, -, hwalk⟩ := locate_ok_iff.mp h
  rw [startOf_append _ hjoins.ne_nil, hpath] at hwalk
  obtain ⟨q, hnames, hrest⟩ := walk_append_ok_iff.mp hwalk
  -- the rest has at least one name, and that is looked up where the front leads
  obtain ⟨name, others, hothers⟩ := List.exists_cons_of_ne_nil
    (List.append_ne_nil_of_right_ne_nil (List.replicate m "") (names_ne_nil (String.ofList rest)))
  rw [hothers] at hrest
  have hdirectory := directory_of_walk hrest
  refine ⟨q, locate_of_walk_front hjoins.ne_nil h ?_, hdirectory⟩
  rw [hfront, ← List.append_nil (List.replicate k "")]
  exact walk_append_ok_iff.mpr ⟨q, hnames, walk_blanks hdirectory k []⟩

/-- A path whose front leads to a directory leads to where it would lead if some more directories were there. -/
theorem locate_of_joined {goal : FileSystem} (hwithin : SameFiles fs goal) {front last : Text} {n : Nat}
    (hjoins : Joins front n) (hlast : '/' ∉ last)
    (h : goal.locate (String.ofList (front ++ (List.replicate n '/' ++ last))) = .ok place)
    (hfront : fs.locate (String.ofList front) = .ok found) (hdirectory : fs.root.kindAt? found = some .directory) :
    fs.locate (String.ofList (front ++ (List.replicate n '/' ++ last))) = .ok place ∧
      fs.walk found [String.ofList last] = .ok place := by
  have hnames : Path.names (String.ofList last) = [String.ofList last] := by
    rw [Path.names, String.toList_ofList, Text.splitOn_of_not_mem hlast, List.map_singleton]
  have hgoal := hwithin.directory _ hdirectory
  obtain ⟨-, -, -, hwalk⟩ := locate_ok_iff.mp hfront
  obtain ⟨-, -, -, hgoalWalk⟩ := locate_ok_iff.mp (locate_of_directories hwithin.current hwithin.directory hfront)
  obtain ⟨-, -, -, hplace⟩ := locate_ok_iff.mp h
  rw [startOf_append _ hjoins.ne_nil, walk_joined hjoins last hgoalWalk hgoal, hnames,
    walk_singleton hgoal hdirectory] at hplace
  refine ⟨?_, hplace⟩
  rw [locate_eq_walk h, startOf_append _ hjoins.ne_nil, walk_joined hjoins last hwalk hdirectory, hnames, hplace]

end FileSystem

namespace Action

open FileSystem

variable {fs fs' : FileSystem} {path : String} {place : List String}

theorem eq_replicate_slash {slashes : Text} (h : ∀ c ∈ slashes, (c == '/') = true) :
    slashes = List.replicate slashes.length '/' :=
  List.eq_replicate_of_mem fun c hc => by simpa using h c hc

/-- A path is cut behind its last slash, and behind it stands its last name. -/
theorem lastSlash_split (t : Text) : ∃ front last, (t.reverse.takeWhile (· != '/')).reverse = last ∧
    t.take (t.length - last.length) = front ∧ t = front ++ last ∧ '/' ∉ last ∧
    (front = [] ∨ ∃ inner, front = inner ++ ['/']) := by
  have hall := List.takeWhile_append_dropWhile (p := (· != '/')) (l := t.reverse)
  have hslash : '/' ∉ t.reverse.takeWhile (· != '/') := by
    intro hmem
    simpa using List.all_eq_true.mp List.all_takeWhile _ hmem
  have hhead := List.head?_dropWhile_not (· != '/') t.reverse
  generalize t.reverse.takeWhile (· != '/') = name at hall hslash
  generalize t.reverse.dropWhile (· != '/') = above at hall hhead
  obtain rfl : t = above.reverse ++ name.reverse := by
    rw [← List.reverse_append, hall, List.reverse_reverse]
  refine ⟨above.reverse, name.reverse, rfl, ?_, rfl, by simpa using hslash, ?_⟩
  · simp
  · cases above with
    | nil => exact .inl rfl
    | cons c inner =>
      obtain rfl : c = '/' := by simpa using hhead
      exact .inr ⟨inner.reverse, List.reverse_cons⟩

/-- A path that is cut before its last name consists of the front, the slashes that are dropped and the name. -/
theorem splitLast_split (path : String) : ∃ n, path.toList =
      (splitLast path).1.toList ++ (List.replicate n '/' ++ (splitLast path).2.toList) ∧
    '/' ∉ (splitLast path).2.toList ∧
    ((splitLast path).1 = "" ∧ n = 0 ∨ Joins (splitLast path).1.toList n) := by
  obtain ⟨front, last, hlast, hfront, hparts, hname, hslash⟩ := lastSlash_split path.toList
  unfold splitLast
  dsimp only
  rw [hlast, hfront]
  simp only [String.toList_ofList]
  rcases hslash with rfl | ⟨inner, rfl⟩
  · exact ⟨0, hparts, hname, .inl ⟨rfl, rfl⟩⟩
  · have hbare : Text.dropEndWhile (· == '/') (inner ++ ['/']) = Text.dropEndWhile (· == '/') inner := by
      simp [Text.dropEndWhile]
    rw [hbare]
    obtain ⟨slashes, hslashes, hinner⟩ := Text.dropEndWhile_split (· == '/') inner
    generalize Text.dropEndWhile (· == '/') inner = bare at hinner
    -- slashes alone are kept, and of others those at the end are dropped
    by_cases hempty : bare = []
    · subst hempty
      exact ⟨0, hparts, hname, .inr ⟨by simp, .inr ⟨inner, rfl⟩⟩⟩
    · have hisEmpty : bare.isEmpty = false := by simpa using hempty
      rw [hisEmpty, if_neg Bool.false_ne_true]
      refine ⟨slashes.length + 1, ?_, hname, .inr ⟨hempty, .inl (Nat.succ_pos _)⟩⟩
      rw [List.replicate_succ', ← eq_replicate_slash hslashes, hparts, hinner]
      simp

/-- Slashes at the end of a path do not count when it is cut. -/
theorem cutLast_eq (h : withoutEndSlashes path ≠ "") :
    cutLast path = splitLast (withoutEndSlashes path) ∧ (cutLast path).2 ≠ "" := by
  have hlast : ∀ {path : String} {c : Char} {chars : Text}, path.toList.reverse = c :: chars → c ≠ '/' →
      (splitLast path).2 ≠ "" := by
    intro path c chars hreverse hc
    simp [splitLast, hreverse, hc]
  cases hreverse : path.toList.reverse with
  | nil =>
    rw [withoutEndSlashes, Text.dropEndWhile, hreverse] at h
    exact absurd rfl h
  | cons c chars =>
    by_cases hc : c = '/'
    · subst hc
      -- the last name is empty, so the front is cut once more
      have hsplit : splitLast path = (withoutEndSlashes path, "") := by
        rw [withoutEndSlashes, ne_eq, String.ofList_eq_empty_iff] at h
        simp [splitLast, withoutEndSlashes, hreverse, h]
      have hne : (withoutEndSlashes path).toList.reverse ≠ [] := by simpa using h
      obtain ⟨d, others, hothers⟩ := List.exists_cons_of_ne_nil hne
      have hd : d ≠ '/' := by
        have hhead := List.head?_dropWhile_not (· == '/') path.toList.reverse
        rw [withoutEndSlashes, String.toList_ofList, Text.dropEndWhile, List.reverse_reverse] at hothers
        rw [hothers] at hhead
        simpa using hhead
      rw [cutLast, hsplit, if_pos rfl]
      exact ⟨rfl, hlast hothers hd⟩
    · have hbare : withoutEndSlashes path = path := by
        have hdrop : (c :: chars).dropWhile (· == '/') = c :: chars := by simp [hc]
        rw [withoutEndSlashes, Text.dropEndWhile, hreverse, hdrop, ← hreverse, List.reverse_reverse,
          String.ofList_toList]
      have hne := hlast hreverse hc
      rw [hbare, cutLast, if_neg hne]
      exact ⟨rfl, hne⟩

theorem barePath_split (path : String) : ∃ n, path.toList = (barePath path).toList ++ List.replicate n '/' := by
  unfold barePath
  split
  · exact ⟨0, by simp⟩
  · obtain ⟨slashes, hslashes, hparts⟩ := Text.dropEndWhile_split (· == '/') path.toList
    refine ⟨slashes.length, ?_⟩
    rw [withoutEndSlashes, String.toList_ofList, ← eq_replicate_slash hslashes, ← hparts]

theorem barePath_ne (h : path ≠ "") : (barePath path).toList ≠ [] := by
  rw [ne_eq, String.toList_eq_nil_iff]
  unfold barePath
  split
  · exact h
  · assumption

theorem startOf_barePath (fs : FileSystem) (h : path ≠ "") : fs.startOf (barePath path) = fs.startOf path := by
  obtain ⟨n, hparts⟩ := barePath_split path
  have hstart := startOf_append fs (barePath_ne h) (List.replicate n '/')
  rw [← hparts, String.ofList_toList, String.ofList_toList] at hstart
  exact hstart.symm

/-- A path leads where it leads without the slashes at its end. -/
theorem locate_barePath (h : fs.locate path = .ok place) : fs.locate (barePath path) = .ok place := by
  obtain ⟨n, hparts⟩ := barePath_split path
  have hne := barePath_ne (locate_ok_iff.mp h).1
  rw [← String.ofList_toList (s := path), hparts] at h
  obtain ⟨-, -, -, hwalk⟩ := locate_ok_iff.mp h
  rw [startOf_append _ hne, names_append_replicate] at hwalk
  obtain ⟨q, hbare, hslashes⟩ := walk_append_ok_iff.mp hwalk
  obtain rfl := eq_of_walk_blanks hslashes
  have hlocate := locate_of_walk_front hne h hbare
  rwa [String.ofList_toList] at hlocate

/-- A path that leads to a directory without the slashes at its end leads there. -/
theorem locate_of_barePath {found : List String} (h : fs.locate (barePath path) = .ok place)
    (hdirectory : fs.root.kindAt? place = some .directory) (hasked : fs'.locate path = .ok found) :
    fs.locate path = .ok place := by
  obtain ⟨n, hparts⟩ := barePath_split path
  have hne := barePath_ne (locate_ok_iff.mp hasked).1
  obtain ⟨-, -, -, hwalk⟩ := locate_ok_iff.mp h
  rw [locate_eq_walk hasked, ← String.ofList_toList (s := path), hparts, startOf_append _ hne, names_append_replicate,
    String.ofList_toList, walk_append, hwalk, ← List.append_nil (List.replicate _ _)]
  exact walk_blanks hdirectory n []

/-- The front of a path that leads somewhere leads to a directory. -/
theorem locate_splitLast (h : fs.locate path = .ok place) (hfront : (splitLast path).1 ≠ "") :
    ∃ q, fs.locate (splitLast path).1 = .ok q ∧ fs.root.kindAt? q = some .directory := by
  obtain ⟨n, hparts, -, ⟨hempty, -⟩ | hjoins⟩ := splitLast_split path
  · exact absurd hempty hfront
  · rw [← String.ofList_toList (s := path), hparts] at h
    have hlocate := locate_front hjoins h
    rwa [String.ofList_toList] at hlocate

/-- So does the front of a path that is cut without the slashes at its end. -/
theorem locate_cutLast (h : fs.locate path = .ok place) (hfront : (cutLast path).1 ≠ "") :
    ∃ q, fs.locate (cutLast path).1 = .ok q ∧ fs.root.kindAt? q = some .directory := by
  unfold cutLast at hfront ⊢
  split at hfront
  · rename_i hlast
    rw [if_pos hlast]
    have hinner : (splitLast path).1 ≠ "" := by
      intro hinner
      rw [hinner] at hfront
      exact hfront rfl
    obtain ⟨q, hq, -⟩ := locate_splitLast h hinner
    exact locate_splitLast hq hfront
  · rename_i hlast
    rw [if_neg hlast]
    exact locate_splitLast h hfront

/-! ## Making directories that are there -/

/-- Above a path that leads somewhere nothing has to be made. -/
theorem not_lacksParent (h : fs.locate path = .ok place) : lacksParent fs path = false := by
  unfold lacksParent
  by_cases hempty : (cutLast path).1 = ""
  · simp [hempty]
  · obtain ⟨q, hq, hdirectory⟩ := locate_cutLast h hempty
    obtain ⟨entries, hentries⟩ := Tree.kindAt?_eq_directory_iff.mp hdirectory
    have hfound : (fs.get? (cutLast path).1).isNone = false := by simp [FileSystem.get?, hq, hentries]
    rw [hfound, Bool.and_false]

theorem isDirectory_of_locate (h : fs.locate path = .ok place) (hdirectory : fs.root.kindAt? place = some .directory) :
    fs.isDirectory path = true := by
  obtain ⟨entries, hentries⟩ := Tree.kindAt?_eq_directory_iff.mp hdirectory
  simp [FileSystem.isDirectory, FileSystem.get?, h, hentries, Tree.isDirectory]

/-- A directory that is there is not made. -/
theorem runOn_makeLast_of_directory (h : fs.locate path = .ok place)
    (hdirectory : fs.root.kindAt? place = some .directory) : runOn (makeLast true path) fs = (.ok (), fs) := by
  have hexists : runOn (makeDirectory path) fs = (.error (.refused .alreadyExists path), fs) := by
    rw [runOn_makeDirectory, locate_barePath h]
    dsimp only
    rw [hdirectory]
  rw [makeLast, runOn_tryCatch, hexists]
  dsimp only
  rw [runOn_get_bind, isDirectory_of_locate h hdirectory]
  rfl

/-- Where a path leads to a directory, nothing is made. -/
theorem runOn_makeDirectories_of_directory (bound : Nat) (h : fs.locate path = .ok place)
    (hdirectory : fs.root.kindAt? place = some .directory) :
    runOn (makeDirectories true (bound + 1) path) fs = (.ok (), fs) := by
  rw [makeDirectories_succ, runOn_get_bind, not_lacksParent h, if_neg Bool.false_ne_true]
  exact runOn_makeLast_of_directory h hdirectory

end Action

/-! ## Making directories within another file system -/

/-- What stands where another file system, with more directories, has a directory. -/
theorem FileSystem.SameFiles.kind_eq {fs goal : FileSystem} (h : SameFiles fs goal) {place : List String}
    {kind : Tree.Kind} (hkind : fs.root.kindAt? place = some kind)
    (hdirectory : goal.root.kindAt? place = some .directory) : kind = .directory := by
  cases kind with
  | directory => rfl
  | file content =>
    have hfile := h.file place
    rw [FileSystem.fileAt?, FileSystem.fileAt?, Tree.fileAt?_eq_some_iff.mpr hkind, Tree.fileAt?, hdirectory] at hfile
    simp at hfile

namespace Action

open FileSystem

/-- A directory has been made for a path, and with it none but directories of the file system that is the goal. -/
structure MadeWithin (goal fs fs' : FileSystem) (path : String) (place : List String) : Prop where
  same : SameFiles fs fs'
  within : SameFiles fs' goal
  located : fs'.locate path = .ok place
  directory : fs'.root.kindAt? place = some .directory

variable {goal fs : FileSystem} {path : String} {place : List String}

/-- The last directory on the way can be made in the one above it. -/
theorem runOn_makeLast (hwithin : SameFiles fs goal) (h : goal.locate path = .ok place)
    (hdirectory : goal.root.kindAt? place = some .directory) (hbare : fs.locate (barePath path) = .ok place) :
    ∃ fs', runOn (makeLast true path) fs = (.ok (), fs') ∧ MadeWithin goal fs fs' path place := by
  cases hkind : fs.root.kindAt? place with
  | some kind =>
    obtain rfl := hwithin.kind_eq hkind hdirectory
    have hlocate := locate_of_barePath hbare hkind h
    exact ⟨fs, runOn_makeLast_of_directory hlocate hkind, Std.Refl.refl fs, hwithin, hlocate, hkind⟩
  | none =>
    have hvacant := vacant_of_locate hbare (by simp [hkind])
    have hmake := sameFiles_make hvacant hkind
    have hkinds : ∀ q, (fs.make place).root.kindAt? q = if q = place then some .directory else fs.root.kindAt? q :=
      Tree.kindAt?_put hvacant Tree.isBare_directory
    have hmade : (fs.make place).root.kindAt? place = some .directory := by rw [hkinds, if_pos rfl]
    refine ⟨fs.make place, ?_, hmake, ⟨hwithin.current, ?_, ?_⟩, ?_, hmade⟩
    · rw [makeLast, runOn_tryCatch, runOn_makeDirectory, hbare]
      dsimp only
      rw [hkind]
    · intro q
      rw [hwithin.file, hmake.file]
    · -- the only new directory is one of the goal
      intro q hq
      by_cases heq : q = place
      · rw [heq, hdirectory]
      · rw [hkinds, if_neg heq] at hq
        exact hwithin.directory q hq
    · exact locate_of_barePath (locate_of_directories hmake.current hmake.directory hbare) hmade h

/-- A path of slashes leads to where it starts from. -/
theorem locate_of_slashes (hstart : fs.root.kindAt? (fs.startOf path) = some .directory)
    (h : goal.locate path = .ok place) (hslashes : withoutEndSlashes path = "") :
    fs.locate path = .ok (fs.startOf path) := by
  obtain ⟨slashes, hall, hparts⟩ := Text.dropEndWhile_split (· == '/') path.toList
  rw [String.ofList_eq_empty_iff.mp hslashes, List.nil_append, eq_replicate_slash hall] at hparts
  have hpath : path = String.ofList ([] ++ List.replicate slashes.length '/') := by
    rw [List.nil_append, ← hparts, String.ofList_toList]
  rw [locate_eq_walk h]
  generalize fs.startOf path = start at hstart
  rw [hpath, names_append_replicate, walk_append]
  show fs.walk start (List.replicate 1 "" ++ []) >>= _ = _
  rw [walk_blanks hstart]
  show fs.walk start (List.replicate slashes.length "") = _
  rw [← List.append_nil (List.replicate _ _)]
  exact walk_blanks hstart _ []

/-- A path of one name leads to where it would lead with more directories. -/
theorem locate_of_bareName (hwithin : SameFiles fs goal) (hstart : fs.root.kindAt? (fs.startOf path) = some .directory)
    (h : goal.locate path = .ok place) (hfront : (splitLast path).1 = "") : fs.locate path = .ok place := by
  obtain ⟨n, hparts, hname, ⟨-, rfl⟩ | hjoins⟩ := splitLast_split path
  · rw [hfront, String.toList_empty, List.nil_append, List.replicate_zero, List.nil_append] at hparts
    have hnames : Path.names path = [path] := by
      have hslash : '/' ∉ path.toList := by
        rw [hparts]
        exact hname
      rw [Path.names, Text.splitOn_of_not_mem hslash, List.map_singleton, String.ofList_toList]
    obtain ⟨-, -, -, hwalk⟩ := locate_ok_iff.mp h
    rw [hnames, startOf_eq hwithin.current] at hwalk
    rw [locate_eq_walk h, hnames, walk_singleton hstart (hwithin.directory _ hstart), hwalk]
  · rw [hfront] at hjoins
    exact absurd rfl hjoins.ne_nil

/-- A path whose front leads to a directory leads to where it would lead with more directories. -/
theorem locate_of_splitLast (hwithin : SameFiles fs goal) (h : goal.locate path = .ok place)
    (hfront : (splitLast path).1 ≠ "") {above : List String} (habove : fs.locate (splitLast path).1 = .ok above)
    (hdirectory : fs.root.kindAt? above = some .directory) :
    fs.locate path = .ok place ∧ fs.walk above [(splitLast path).2] = .ok place := by
  obtain ⟨n, hparts, hname, ⟨hempty, -⟩ | hjoins⟩ := splitLast_split path
  · exact absurd hempty hfront
  · have hpath := congrArg String.ofList hparts
    rw [String.ofList_toList] at hpath
    rw [hpath] at h
    rw [← String.ofList_toList (s := (splitLast path).1)] at habove
    have hlocate := locate_of_joined hwithin hjoins hname h habove hdirectory
    rwa [← hpath, String.ofList_toList] at hlocate

/-- The front of a path starts from where the path starts from, and it is shorter. -/
theorem cutLast_front (fs : FileSystem) (hslashes : withoutEndSlashes path ≠ "") (hfront : (cutLast path).1 ≠ "") :
    fs.startOf (cutLast path).1 = fs.startOf path ∧ (cutLast path).1.length < path.length := by
  obtain ⟨hcut, hlast⟩ := cutLast_eq hslashes
  obtain ⟨n, hparts, -, ⟨hempty, -⟩ | hjoins⟩ := splitLast_split (withoutEndSlashes path)
  · rw [← hcut] at hempty
    exact absurd hempty hfront
  · rw [← hcut] at hparts hjoins
    obtain ⟨slashes, -, hpath⟩ := Text.dropEndWhile_split (· == '/') path.toList
    have hbare : Text.dropEndWhile (· == '/') path.toList = (withoutEndSlashes path).toList := by
      rw [withoutEndSlashes, String.toList_ofList]
    rw [hbare, hparts, List.append_assoc] at hpath
    constructor
    · have hstart := startOf_append fs hjoins.ne_nil
        (List.replicate n '/' ++ (cutLast path).2.toList ++ slashes)
      rw [← hpath, String.ofList_toList, String.ofList_toList] at hstart
      exact hstart.symm
    · have hpos : 0 < (cutLast path).2.toList.length := by
        rw [List.length_pos_iff, ne_eq, String.toList_eq_nil_iff]
        exact hlast
      have hlength := congrArg List.length hpath
      simp only [List.length_append, String.length_toList] at hlength hpos
      omega

theorem locate_of_cutLast (hwithin : SameFiles fs goal) (h : goal.locate path = .ok place)
    (hslashes : withoutEndSlashes path ≠ "") (hfront : (cutLast path).1 ≠ "") {above : List String}
    (habove : fs.locate (cutLast path).1 = .ok above) (hdirectory : fs.root.kindAt? above = some .directory) :
    fs.locate (barePath path) = .ok place ∧ fs.walk above [(cutLast path).2] = .ok place := by
  have hbarePath : barePath path = withoutEndSlashes path := if_neg hslashes
  have hbare := locate_barePath h
  rw [(cutLast_eq hslashes).1, ← hbarePath] at hfront habove ⊢
  exact locate_of_splitLast hwithin hbare hfront habove hdirectory

/-- Where nothing has to be made above a path, the directory above it is there. -/
theorem locate_cutLast_of_not_lacksParent (hwithin : SameFiles fs goal) (hlacks : lacksParent fs path = false)
    (hfront : (cutLast path).1 ≠ "") (hlast : (cutLast path).2 ≠ "") (habove : goal.locate (cutLast path).1 = .ok place)
    (hdirectory : goal.root.kindAt? place = some .directory) :
    fs.locate (cutLast path).1 = .ok place ∧ fs.root.kindAt? place = some .directory := by
  obtain ⟨tree, htree⟩ : ∃ tree, fs.get? (cutLast path).1 = some tree := by
    rw [lacksParent] at hlacks
    rw [← Option.isSome_iff_exists]
    simpa [hfront, hlast, Option.isSome_iff_ne_none] using hlacks
  unfold FileSystem.get? at htree
  split at htree
  · rename_i q hq
    have hgoal := locate_of_directories hwithin.current hwithin.directory hq
    obtain rfl : q = place := Except.ok.inj (hgoal.symm.trans habove)
    have hkind : fs.root.kindAt? q = some tree.kind := by rw [Tree.kindAt?, htree, Option.map_some]
    exact ⟨hq, hkind.trans (congrArg some (hwithin.kind_eq hkind hdirectory))⟩
  · simp at htree

/-- Where nothing has to be made above a path, only its last directory is made. -/
theorem runOn_makeDirectories_of_bare (bound : Nat) (hwithin : SameFiles fs goal) (h : goal.locate path = .ok place)
    (hdirectory : goal.root.kindAt? place = some .directory) (hlacks : lacksParent fs path = false)
    (hbare : fs.locate (barePath path) = .ok place) :
    ∃ fs', runOn (makeDirectories true (bound + 1) path) fs = (.ok (), fs') ∧ MadeWithin goal fs fs' path place := by
  rw [makeDirectories_succ, runOn_get_bind, hlacks, if_neg Bool.false_ne_true]
  exact runOn_makeLast hwithin h hdirectory hbare

/-- When the directory above a path has been made, its last directory is made as if that one had been there. -/
theorem MadeWithin.runOn_makeDirectories {fs₁ : FileSystem} {bound : Nat} {above : List String}
    (hmade : MadeWithin goal fs fs₁ (cutLast path).1 above)
    (hrun : runOn (makeDirectories true bound (cutLast path).1) fs = (.ok (), fs₁))
    (h : goal.locate path = .ok place) (hdirectory : goal.root.kindAt? place = some .directory)
    (hslashes : withoutEndSlashes path ≠ "") (hfront : (cutLast path).1 ≠ "") (hlacks : lacksParent fs path = true) :
    ∃ fs', runOn (makeDirectories true (bound + 1) path) fs = (.ok (), fs') ∧ MadeWithin goal fs fs' path place := by
  have hrunAbove : runOn (makeAbove true bound path) fs = (.ok (), fs₁) := by
    rw [makeAbove, runOn_tryCatch, hrun]
  obtain ⟨hbare, hplace⟩ := locate_of_cutLast hmade.within h hslashes hfront hmade.located hmade.directory
  rw [makeDirectories_succ, runOn_get_bind, hlacks, if_pos rfl, runOn_bind, hrunAbove]
  dsimp only
  split
  · -- a point at the end names the directory just made
    rename_i hpoint
    rw [hpoint, walk_cons, hmade.directory] at hplace
    obtain rfl : above = place := Except.ok.inj hplace
    exact ⟨fs₁, rfl, hmade.same, hmade.within, locate_of_barePath hbare hmade.directory h, hmade.directory⟩
  · obtain ⟨fs', hrun', hmade'⟩ := runOn_makeLast hmade.within h hdirectory hbare
    exact ⟨fs', hrun', Trans.trans hmade.same hmade'.same, hmade'.within, hmade'.located, hmade'.directory⟩

/-- Where a path would lead to a directory if some more directories were there, the making of it with all that are
missing above it succeeds. -/
theorem runOn_makeDirectories_within (hwithin : SameFiles fs goal)
    (hstart : fs.root.kindAt? (fs.startOf path) = some .directory) (h : goal.locate path = .ok place)
    (hdirectory : goal.root.kindAt? place = some .directory) {bound : Nat} (hbound : path.length ≤ bound) :
    ∃ fs', runOn (makeDirectories true bound path) fs = (.ok (), fs') ∧ MadeWithin goal fs fs' path place := by
  -- on the bound: the front of a path is shorter, and what is made for it lies within the goal
  induction bound generalizing path place with
  | zero =>
    have hempty : path = "" := String.length_eq_zero_iff.mp (Nat.le_zero.mp hbound)
    exact absurd hempty (locate_ok_iff.mp h).1
  | succ bound ih =>
    by_cases hslashes : withoutEndSlashes path = ""
    · -- slashes alone name the directory that the path starts from
      have hlocate := locate_of_slashes hstart h hslashes
      have hgoal := locate_of_directories hwithin.current hwithin.directory hlocate
      obtain rfl : fs.startOf path = place := Except.ok.inj (hgoal.symm.trans h)
      exact ⟨fs, runOn_makeDirectories_of_directory bound hlocate hstart, Std.Refl.refl fs, hwithin, hlocate, hstart⟩
    · obtain ⟨hcut, hlast⟩ := cutLast_eq hslashes
      have hbare := locate_barePath h
      have hbarePath : barePath path = withoutEndSlashes path := if_neg hslashes
      by_cases hfront : (cutLast path).1 = ""
      · -- a path of one name has nothing above it that could be missing
        have hlacks : lacksParent fs path = false := by
          rw [lacksParent, hfront]
          rfl
        rw [← startOf_barePath fs (locate_ok_iff.mp h).1] at hstart
        rw [hcut, ← hbarePath] at hfront
        exact runOn_makeDirectories_of_bare bound hwithin h hdirectory hlacks
          (locate_of_bareName hwithin hstart hbare hfront)
      · obtain ⟨above, habove, hinner⟩ := locate_cutLast h hfront
        obtain ⟨hstartFront, hlength⟩ := cutLast_front fs hslashes hfront
        cases hlacks : lacksParent fs path with
        | false =>
          obtain ⟨hq, hkind⟩ := locate_cutLast_of_not_lacksParent hwithin hlacks hfront hlast habove hinner
          exact runOn_makeDirectories_of_bare bound hwithin h hdirectory hlacks
            (locate_of_cutLast hwithin h hslashes hfront hq hkind).1
        | true =>
          rw [← hstartFront] at hstart
          have hfewer : (cutLast path).1.length ≤ bound := Nat.le_of_lt_succ (Nat.lt_of_lt_of_le hlength hbound)
          obtain ⟨fs₁, hrun, hmade⟩ := ih hstart habove hinner hfewer
          exact hmade.runOn_makeDirectories hrun h hdirectory hslashes hfront hlacks

end Action

end ImportOrder
