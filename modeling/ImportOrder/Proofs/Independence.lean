import ImportOrder.Command.Run
import ImportOrder.Proofs.Stages

/-!
# Scans that do not disturb each other

Where paths lead, which options file is found and which source files stand below a directory depends on the shape of a
tree only, that is, on its names and on which of them are directories. Of contents, a scan reads those of its target and
of its options file. So two runs of a scan go in step on file systems of one shape that agree at these two places,
whatever stands in other files.
-/

namespace ImportOrder

/-! ## Shapes -/

namespace Tree

mutual

/-- A tree with all its files emptied. -/
def shape : Tree → Tree
  | file _ => file ByteArray.empty
  | directory entries => directory (shapes entries)

/-- Entries with all files below them emptied. -/
def shapes : List (String × Tree) → List (String × Tree)
  | [] => []
  | (name, tree) :: rest => (name, shape tree) :: shapes rest

end

theorem shapes_eq_map (entries : List (String × Tree)) :
    shapes entries = entries.map fun entry => (entry.1, shape entry.2) := by
  induction entries with
  | nil => rw [shapes, List.map_nil]
  | cons entry entries ih => rw [shapes, ih, List.map_cons]

@[simp]
theorem isDirectory_shape (tree : Tree) : tree.shape.isDirectory = tree.isDirectory := by
  cases tree with
  | file content => rw [shape, isDirectory, isDirectory]
  | directory entries => rw [shape, isDirectory, isDirectory]

theorem lookup_shapes (entries : List (String × Tree)) (name : String) :
    (shapes entries).lookup name = (entries.lookup name).map shape := by
  induction entries with
  | nil => rfl
  | cons entry entries ih =>
    rw [shapes, List.lookup_cons, List.lookup_cons]
    split
    · rfl
    · exact ih

theorem get?_shape (tree : Tree) (place : List String) : tree.shape.get? place = (tree.get? place).map shape := by
  induction place generalizing tree with
  | nil => rw [get?_nil, get?_nil, Option.map_some]
  | cons name place ih =>
    cases tree with
    | file content => rw [shape, get?_file_cons, get?_file_cons, Option.map_none]
    | directory entries =>
      rw [shape, get?_cons, get?_cons, lookup_shapes]
      cases entries.lookup name with
      | none => rfl
      | some tree =>
        rw [Option.map_some, Option.bind_some, Option.bind_some]
        exact ih tree

/-- Entries of one shape are both missing, both files, or directories of one shape. -/
theorem shape_cases {found found' : Option Tree} (h : found'.map shape = found.map shape) :
    (found = none ∧ found' = none) ∨
      (∃ content content', found = some (file content) ∧ found' = some (file content')) ∨
      ∃ entries entries', found = some (directory entries) ∧ found' = some (directory entries') ∧
        shapes entries' = shapes entries := by
  cases found with
  | none =>
    rw [Option.map_none, Option.map_eq_none_iff] at h
    exact .inl ⟨rfl, h⟩
  | some tree =>
    rw [Option.map_some, Option.map_eq_some_iff] at h
    obtain ⟨tree', rfl, hshape⟩ := h
    cases tree with
    | file content =>
      cases tree' with
      | file content' => exact .inr (.inl ⟨content, content', rfl, rfl⟩)
      | directory entries' => simp [shape] at hshape
    | directory entries =>
      cases tree' with
      | file content' => simp [shape] at hshape
      | directory entries' =>
        rw [shape, shape, directory.injEq] at hshape
        exact .inr (.inr ⟨entries, entries', rfl, rfl, hshape⟩)

theorem shapes_setEntry (name : String) (tree : Tree) (entries : List (String × Tree)) :
    shapes (setEntry name tree entries) = setEntry name tree.shape (shapes entries) := by
  induction entries with
  | nil => simp only [setEntry, shapes]
  | cons entry entries ih =>
    rw [setEntry, shapes, setEntry]
    split
    · rw [shapes]
    · rw [shapes, ih]

theorem shape_put (tree : Tree) (place : List String) (new : Tree) :
    (tree.put place new).shape = tree.shape.put place new.shape := by
  induction place generalizing tree with
  | nil => rw [put, put]
  | cons name place ih =>
    cases tree with
    | file content => rw [put, shape, put]
    | directory entries =>
      rw [put_cons, shape, shape, put_cons, shapes_setEntry, ih, lookup_shapes]
      congr 3
      cases entries.lookup name with
      | none => rfl
      | some tree => rfl

end Tree

namespace SourceFiles

open ImportOrder.Tree

theorem sortByName_map {α β : Type} (f : α → β) (items : List (String × α)) :
    sortByName (items.map fun item => (item.1, f item.2)) = (sortByName items).map fun item => (item.1, f item.2) := by
  unfold sortByName
  symm
  apply List.map_mergeSort
  intro a _ b _
  rfl

theorem below_directory (size : Nat) (entries : List (String × Tree)) :
    below size (.directory entries) =
      ((sortByName entries).filterMap fun item =>
          if !item.2.isDirectory && isSource item.1 then some [item.1] else none) ++
        (sortByName (branches size entries)).flatMap fun item => item.2.map (item.1 :: ·) := by
  rw [below]

mutual

/-- Which source files stand below a directory depends on its shape. -/
theorem below_shape (size : Nat) (tree : Tree) : below size tree.shape = below size tree := by
  cases tree with
  | file content => rw [shape, below, below]
  | directory entries =>
    rw [shape, below_directory, below_directory, branches_shapes, shapes_eq_map, sortByName_map, List.filterMap_map]
    simp only [Function.comp_def, isDirectory_shape]

theorem branches_shapes (size : Nat) (entries : List (String × Tree)) :
    branches size (shapes entries) = branches size entries := by
  cases entries with
  | nil => rw [shapes]
  | cons entry entries =>
    obtain ⟨name, tree⟩ := entry
    rw [shapes, branches, branches, isDirectory_shape, below_shape _ tree, branches_shapes size entries]

end

end SourceFiles

/-! ## Two file systems -/

namespace FileSystem

/-- Two file systems have one shape, and the same contents except at some places. -/
structure AgreeOff (W : List String → Prop) (fs fs' : FileSystem) : Prop where
  current : fs'.current = fs.current
  shape : fs'.root.shape = fs.root.shape
  file : ∀ place, ¬ W place → fs'.fileAt? place = fs.fileAt? place

namespace AgreeOff

variable {W : List String → Prop} {fs fs' : FileSystem} (h : AgreeOff W fs fs')

include h

theorem mono {W' : List String → Prop} (hW : ∀ place, W place → W' place) : AgreeOff W' fs fs' :=
  ⟨h.current, h.shape, fun place hplace => h.file place fun hnot => hplace (hW place hnot)⟩

theorem get?_shape (place : List String) :
    (fs'.root.get? place).map Tree.shape = (fs.root.get? place).map Tree.shape := by
  rw [← Tree.get?_shape, ← Tree.get?_shape, h.shape]

/-- At each place both have nothing, a file, or a directory. -/
theorem kind_cases (place : List String) :
    (fs.root.kindAt? place = none ∧ fs'.root.kindAt? place = none) ∨
      (fs.root.kindAt? place = some .directory ∧ fs'.root.kindAt? place = some .directory) ∨
      ∃ content content', fs.root.kindAt? place = some (.file content) ∧
        fs'.root.kindAt? place = some (.file content') := by
  unfold Tree.kindAt?
  rcases Tree.shape_cases (h.get?_shape place) with
    ⟨hget, hget'⟩ | ⟨content, content', hget, hget'⟩ | ⟨entries, entries', hget, hget', -⟩
  · exact .inl ⟨by rw [hget, Option.map_none], by rw [hget', Option.map_none]⟩
  · exact .inr (.inr ⟨content, content', by rw [hget]; rfl, by rw [hget']; rfl⟩)
  · exact .inr (.inl ⟨by rw [hget]; rfl, by rw [hget']; rfl⟩)

theorem walk_eq (place names : List String) : fs'.walk place names = fs.walk place names := by
  induction names generalizing place with
  | nil => rw [walk, walk]
  | cons name names ih =>
    rw [walk_cons, walk_cons]
    rcases h.kind_cases place with ⟨hkind, hkind'⟩ | ⟨hkind, hkind'⟩ | ⟨content, content', hkind, hkind'⟩
    · rw [hkind, hkind']
    · rw [hkind, hkind']
      dsimp only
      rw [ih, ih, ih]
    · rw [hkind, hkind']

theorem startOf_eq (path : String) : fs'.startOf path = fs.startOf path := by
  rw [startOf, startOf, h.current]

theorem locate_eq (path : String) : fs'.locate path = fs.locate path := by
  rw [locate, locate, h.startOf_eq, h.walk_eq]

theorem isDirectory_eq (path : String) : fs'.isDirectory path = fs.isDirectory path := by
  unfold isDirectory get?
  rw [h.locate_eq]
  cases fs.locate path with
  | error refusal => rfl
  | ok place =>
    have hshape := congrArg (Option.map Tree.isDirectory) (h.get?_shape place)
    simp only [Option.map_map, Function.comp_def, Tree.isDirectory_shape] at hshape
    dsimp only
    rw [hshape]

theorem isNone_get?_eq (path : String) : (fs'.get? path).isNone = (fs.get? path).isNone := by
  unfold get?
  rw [h.locate_eq]
  cases fs.locate path with
  | error refusal => rfl
  | ok place =>
    have hshape := congrArg Option.isNone (h.get?_shape place)
    simpa using hshape

theorem lookUp_shape (path : String) :
    (fs'.lookUp path).map (Option.map Tree.shape) = (fs.lookUp path).map (Option.map Tree.shape) := by
  unfold lookUp
  rw [h.locate_eq]
  cases fs.locate path with
  | ok place => exact congrArg Except.ok (h.get?_shape place)
  | error refusal => cases refusal <;> rfl

/-- Where a path leads in both, and what stands there. -/
inductive Found (W : List String → Prop) (fs fs' : FileSystem) (path : String) : Prop
  | refused {refusal : Refusal} : fs.locate path = .error refusal → fs'.locate path = .error refusal →
      Found W fs fs' path
  | nothing {place : List String} : fs.locate path = .ok place → fs'.locate path = .ok place →
      fs.root.kindAt? place = none → fs'.root.kindAt? place = none → Found W fs fs' path
  | directory {place : List String} : fs.locate path = .ok place → fs'.locate path = .ok place →
      fs.root.kindAt? place = some .directory → fs'.root.kindAt? place = some .directory → Found W fs fs' path
  | file {place : List String} {content content' : ByteArray} : fs.locate path = .ok place →
      fs'.locate path = .ok place → fs.root.kindAt? place = some (.file content) →
      fs'.root.kindAt? place = some (.file content') → (¬ W place → content' = content) → Found W fs fs' path

theorem found (path : String) : Found W fs fs' path := by
  have hsame := h.locate_eq path
  cases hplace : fs.locate path with
  | error refusal => exact .refused hplace (hsame.trans hplace)
  | ok place =>
    rcases h.kind_cases place with ⟨hkind, hkind'⟩ | ⟨hkind, hkind'⟩ | ⟨content, content', hkind, hkind'⟩
    · exact .nothing hplace (hsame.trans hplace) hkind hkind'
    · exact .directory hplace (hsame.trans hplace) hkind hkind'
    · apply Found.file hplace (hsame.trans hplace) hkind hkind'
      intro hnot
      have hcontent := h.file place hnot
      rw [fileAt?, fileAt?, Tree.fileAt?_eq_some_iff.mpr hkind, Tree.fileAt?_eq_some_iff.mpr hkind'] at hcontent
      exact Option.some.inj hcontent

/-- Both may be written at a place, with one content unless the place is excepted. -/
theorem write {place : List String} {content content' : ByteArray} (hvacant : fs.root.Vacant place)
    (hvacant' : fs'.root.Vacant place) (hcontent : ¬ W place → content' = content) :
    AgreeOff W (fs.write place content) (fs'.write place content') := by
  refine ⟨h.current, ?_, ?_⟩
  · show (fs'.root.put place (.file content')).shape = (fs.root.put place (.file content)).shape
    rw [Tree.shape_put, Tree.shape_put, h.shape, Tree.shape, Tree.shape]
  · intro q hq
    rw [fileAt?_write hvacant, fileAt?_write hvacant', h.file q hq]
    by_cases hplace : q = place
    · rw [if_pos hplace, if_pos hplace, hcontent (hplace ▸ hq)]
    · rw [if_neg hplace, if_neg hplace]

theorem make {place : List String} (hvacant : fs.root.Vacant place) (hnone : fs.root.kindAt? place = none)
    (hvacant' : fs'.root.Vacant place) (hnone' : fs'.root.kindAt? place = none) :
    AgreeOff W (fs.make place) (fs'.make place) := by
  refine ⟨h.current, ?_, ?_⟩
  · show (fs'.root.put place (.directory [])).shape = (fs.root.put place (.directory [])).shape
    rw [Tree.shape_put, Tree.shape_put, h.shape]
  · intro q hq
    rw [(sameFiles_make hvacant hnone).file, (sameFiles_make hvacant' hnone').file, h.file q hq]

theorem resolve_eq (path : String) : fs'.resolve path = fs.resolve path := by
  rw [resolve, resolve, h.startOf_eq]

end AgreeOff

end FileSystem

/-! ## Runs in step -/

namespace Action

open FileSystem

variable {α β : Type} {W : List String → Prop} {fs fs' : FileSystem}

/-- The runs of an action on two file systems go in step: they end alike and leave file systems that still agree. -/
structure Parallel (W : List String → Prop) (fs fs' : FileSystem) (action : Action α) : Prop where
  outcome : (runOn action fs').1 = (runOn action fs).1
  agree : AgreeOff W (runOn action fs).2 (runOn action fs').2

namespace Parallel

theorem bind {action : Action α} {next : α → Action β} (h : Parallel W fs fs' action)
    (hnext : ∀ a fs₁ fs₁', runOn action fs = (.ok a, fs₁) → AgreeOff W fs₁ fs₁' → Parallel W fs₁ fs₁' (next a)) :
    Parallel W fs fs' (action >>= next) := by
  obtain ⟨houtcome, hagree⟩ := h
  have hleft := runOn_bind fs action next
  have hright := runOn_bind fs' action next
  generalize hrun : runOn action fs = run at houtcome hagree hleft
  generalize runOn action fs' = run' at houtcome hagree hright
  obtain ⟨result, fs₁⟩ := run
  obtain ⟨result', fs₁'⟩ := run'
  dsimp only at houtcome hagree
  subst houtcome
  cases result' with
  | ok a =>
    obtain ⟨houtcome', hagree'⟩ := hnext a fs₁ fs₁' hrun hagree
    constructor
    · rw [hleft, hright]
      exact houtcome'
    · rw [hleft, hright]
      exact hagree'
  | error failure =>
    constructor
    · rw [hleft, hright]
    · rw [hleft, hright]
      exact hagree

theorem handled {action : Action α} {handler : Failure → Action α} (h : Parallel W fs fs' action)
    (hhandler : ∀ failure fs₁ fs₁', AgreeOff W fs₁ fs₁' → Parallel W fs₁ fs₁' (handler failure)) :
    Parallel W fs fs' (tryCatch action handler) := by
  obtain ⟨houtcome, hagree⟩ := h
  have hleft := runOn_tryCatch fs action handler
  have hright := runOn_tryCatch fs' action handler
  generalize runOn action fs = run at houtcome hagree hleft
  generalize runOn action fs' = run' at houtcome hagree hright
  obtain ⟨result, fs₁⟩ := run
  obtain ⟨result', fs₁'⟩ := run'
  dsimp only at houtcome hagree
  subst houtcome
  cases result' with
  | ok a =>
    constructor
    · rw [hleft, hright]
    · rw [hleft, hright]
      exact hagree
  | error failure =>
    obtain ⟨houtcome', hagree'⟩ := hhandler failure fs₁ fs₁' hagree
    constructor
    · rw [hleft, hright]
      exact houtcome'
    · rw [hleft, hright]
      exact hagree'

theorem of_runs {action : Action α} {outcome : Except Failure α} {fs₁ fs₁' : FileSystem}
    (hleft : runOn action fs = (outcome, fs₁)) (hright : runOn action fs' = (outcome, fs₁'))
    (hagree : AgreeOff W fs₁ fs₁') : Parallel W fs fs' action := by
  constructor
  · rw [hleft, hright]
  · rw [hleft, hright]
    exact hagree

theorem get_bind {next : FileSystem → Action β} (hsame : next fs' = next fs) (h : Parallel W fs fs' (next fs)) :
    Parallel W fs fs' (get >>= next) := by
  have hright := runOn_get_bind fs' next
  rw [hsame] at hright
  constructor
  · rw [hright, runOn_get_bind fs next]
    exact h.outcome
  · rw [hright, runOn_get_bind fs next]
    exact h.agree

theorem pure (hagree : AgreeOff W fs fs') (a : α) : Parallel W fs fs' (Pure.pure a : Action α) :=
  ⟨rfl, hagree⟩

theorem throw (hagree : AgreeOff W fs fs') (failure : Failure) :
    Parallel W fs fs' (MonadExcept.throw failure : Action α) :=
  ⟨rfl, hagree⟩

end Parallel

theorem parallel_update (path : String) (f : ByteArray → ByteArray) (h : AgreeOff W fs fs') :
    Parallel W fs fs' (update path f) := by
  have hleft := runOn_update path f fs
  have hright := runOn_update path f fs'
  cases h.found path with
  | refused hplace hplace' =>
    simp only [hplace, hplace'] at hleft hright
    exact .of_runs hleft hright h
  | nothing hplace hplace' hkind hkind' =>
    have hvacant := vacant_of_locate hplace (by simp [hkind])
    have hvacant' := vacant_of_locate hplace' (by simp [hkind'])
    simp only [hplace, hplace', hkind, hkind'] at hleft hright
    exact .of_runs hleft hright (h.write hvacant hvacant' fun _ => rfl)
  | directory hplace hplace' hkind hkind' =>
    simp only [hplace, hplace', hkind, hkind'] at hleft hright
    exact .of_runs hleft hright h
  | file hplace hplace' hkind hkind' hsame =>
    have hvacant := vacant_of_locate hplace (by simp [hkind])
    have hvacant' := vacant_of_locate hplace' (by simp [hkind'])
    simp only [hplace, hplace', hkind, hkind'] at hleft hright
    exact .of_runs hleft hright (h.write hvacant hvacant' fun hnot => congrArg f (hsame hnot))

theorem parallel_makeDirectory (path : String) (h : AgreeOff W fs fs') : Parallel W fs fs' (makeDirectory path) := by
  have hleft := runOn_makeDirectory path fs
  have hright := runOn_makeDirectory path fs'
  cases h.found (barePath path) with
  | refused hplace hplace' =>
    simp only [hplace, hplace'] at hleft hright
    exact .of_runs hleft hright h
  | nothing hplace hplace' hkind hkind' =>
    have hvacant := vacant_of_locate hplace (by simp [hkind])
    have hvacant' := vacant_of_locate hplace' (by simp [hkind'])
    simp only [hplace, hplace', hkind, hkind'] at hleft hright
    exact .of_runs hleft hright (h.make hvacant hkind hvacant' hkind')
  | directory hplace hplace' hkind hkind' =>
    simp only [hplace, hplace', hkind, hkind'] at hleft hright
    exact .of_runs hleft hright h
  | file hplace hplace' hkind hkind' =>
    simp only [hplace, hplace', hkind, hkind'] at hleft hright
    exact .of_runs hleft hright h

theorem parallel_makeDirectories (existing : Bool) (bound : Nat) (path : String) (h : AgreeOff W fs fs') :
    Parallel W fs fs' (makeDirectories existing bound path) := by
  induction bound generalizing path fs fs' with
  | zero => exact parallel_makeDirectory path h
  | succ bound ih =>
    have hlast : ∀ {fs fs'}, AgreeOff W fs fs' → Parallel W fs fs' (makeLast existing path) := by
      intro fs fs' h
      apply (parallel_makeDirectory path h).handled
      intro failure fs₁ fs₁' h₁
      apply Parallel.get_bind (by rw [h₁.isDirectory_eq])
      split
      · exact .pure h₁ ()
      · exact .throw h₁ failure
    -- whether something is missing above shows in the shape of the entries
    have hlacks : lacksParent fs' path = lacksParent fs path := by
      rw [lacksParent, lacksParent, h.isNone_get?_eq]
    rw [makeDirectories_succ]
    apply Parallel.get_bind (by rw [hlacks])
    split
    · have habove : Parallel W fs fs' (makeAbove existing bound path) := by
        apply (ih _ h).handled
        intro failure fs₁ fs₁' h₁
        split
        · exact .pure h₁ ()
        · exact .throw h₁ _
      apply habove.bind
      intro _ fs₁ fs₁' _ h₁
      split
      · exact .pure h₁ ()
      · exact hlast h₁
    · exact hlast h

theorem parallel_logScan (clock : Clock) (directory : String) (entry : LogEntry) (h : AgreeOff W fs fs') :
    Parallel W fs fs' (logScan clock directory entry) := by
  by_cases hdirectory : directory = ""
  · rw [logScan, if_pos hdirectory]
    exact .pure h ()
  · rw [logScan_of_ne hdirectory]
    apply (parallel_makeDirectories true directory.length directory h).bind
    intro _ fs₁ fs₁' _ h₁
    exact parallel_update _ _ h₁

/-! ## Reading in step -/

theorem parallel_readText {path : String} (h : AgreeOff W fs fs')
    (hreads : ∀ place, fs.locate path = .ok place → ¬ W place) : Parallel W fs fs' (readText path) := by
  have hbytes : Parallel W fs fs' (readBytes path) := by
    have hleft := runOn_readBytes path fs
    have hright := runOn_readBytes path fs'
    cases h.found path with
    | refused hplace hplace' =>
      simp only [hplace, hplace'] at hleft hright
      exact .of_runs hleft hright h
    | nothing hplace hplace' hkind hkind' =>
      simp only [hplace, hplace', hkind, hkind'] at hleft hright
      exact .of_runs hleft hright h
    | directory hplace hplace' hkind hkind' =>
      simp only [hplace, hplace', hkind, hkind'] at hleft hright
      exact .of_runs hleft hright h
    | file hplace hplace' hkind hkind' hsame =>
      have hcontent := hsame (hreads _ hplace)
      simp only [hplace, hplace', hkind, hkind', hcontent] at hleft hright
      exact .of_runs hleft hright h
  apply hbytes.bind
  intro content fs₁ fs₁' _ h₁
  split
  · exact .pure h₁ _
  · exact .throw h₁ _

theorem runOn_lookUp (path : String) (fs : FileSystem) : runOn (lookUp path) fs =
    match fs.lookUp path with
    | .ok found => (.ok found, fs)
    | .error refusal => (.error (.refused refusal path), fs) := by
  unfold lookUp
  rw [runOn_get_bind]
  cases fs.lookUp path with
  | ok found => rfl
  | error refusal => rfl

/-- Looking up an entry goes in step with what comes next, if only the shape of the entry matters there. -/
theorem parallel_lookUp_bind {next : Option Tree → Action β} (path : String) (h : AgreeOff W fs fs')
    (hsame : ∀ found found', found'.map Tree.shape = found.map Tree.shape → next found' = next found)
    (hnext : ∀ found, Parallel W fs fs' (next found)) : Parallel W fs fs' (lookUp path >>= next) := by
  have hleft := runOn_bind fs (lookUp path) next
  have hright := runOn_bind fs' (lookUp path) next
  -- both lookups find an entry or both are refused, and what is found has the same shape
  have hshape := h.lookUp_shape path
  rw [runOn_lookUp] at hleft hright
  cases hfound : fs.lookUp path with
  | error refusal =>
    cases hfound' : fs'.lookUp path with
    | error refusal' =>
      rw [hfound, hfound'] at hshape
      rw [hfound] at hleft
      rw [hfound', Except.error.inj hshape] at hright
      exact .of_runs hleft hright h
    | ok found' =>
      rw [hfound, hfound'] at hshape
      simp [Except.map] at hshape
  | ok found =>
    cases hfound' : fs'.lookUp path with
    | error refusal' =>
      rw [hfound, hfound'] at hshape
      simp [Except.map] at hshape
    | ok found' =>
      rw [hfound, hfound'] at hshape
      rw [hfound] at hleft
      rw [hfound'] at hright
      dsimp only at hleft hright
      rw [hsame found found' (Except.ok.inj hshape)] at hright
      constructor
      · rw [hleft, hright]
        exact (hnext found).outcome
      · rw [hleft, hright]
        exact (hnext found).agree

end Action

namespace Options

open ImportOrder.Action FileSystem

variable {W : List String → Prop} {fs fs' : FileSystem}

theorem parallel_searchStart (path : String) (h : AgreeOff W fs fs') : Parallel W fs fs' (searchStart path) := by
  unfold searchStart
  split
  · exact .throw h _
  · apply Parallel.get_bind (by rw [h.resolve_eq])
    apply parallel_lookUp_bind _ h
    · intro found found' hshape
      rcases Tree.shape_cases hshape with ⟨rfl, rfl⟩ | ⟨content, content', rfl, rfl⟩ | ⟨entries, entries', rfl, rfl, -⟩
      · rfl
      · rfl
      · rfl
    · intro found
      split
      · exact .pure h _
      · exact .pure h _

theorem parallel_findIn (directories : List (List String)) (h : AgreeOff W fs fs') :
    Parallel W fs fs' (findIn directories) := by
  induction directories with
  | nil => exact .pure h _
  | cons directory directories ih =>
    apply parallel_lookUp_bind _ h
    · intro found found' hshape
      rcases Tree.shape_cases hshape with ⟨rfl, rfl⟩ | ⟨content, content', rfl, rfl⟩ | ⟨entries, entries', rfl, rfl, -⟩
      · rfl
      · rfl
      · rfl
    · intro found
      split
      · exact .pure h _
      · exact ih

theorem parallel_find (path : String) (h : AgreeOff W fs fs') : Parallel W fs fs' (find path) := by
  apply (parallel_searchStart path h).bind
  intro start fs₁ fs₁' _ h₁
  exact parallel_findIn (upwards start) h₁

theorem parallel_load [Yaml.Reader] {path : String} (h : AgreeOff W fs fs')
    (hreads : ∀ place, fs.locate path = .ok place → ¬ W place) : Parallel W fs fs' (load path) := by
  have hyaml : Parallel W fs fs' (readYaml path) := by
    apply (parallel_readText h hreads).bind
    intro source fs₁ fs₁' _ h₁
    exact .pure h₁ _
  apply hyaml.bind
  intro outcome fs₁ fs₁' _ h₁
  split
  · exact .throw h₁ _
  · exact .throw h₁ _
  · exact .throw h₁ _
  · exact .pure h₁ _
  · split
    · exact .pure h₁ _
    · split
      · exact .throw h₁ _
      · exact .throw h₁ _

/-- The place of the options file that a scan loads. -/
def LoadsAt (optionsPath path : String) (fs : FileSystem) (place : List String) : Prop :=
  if optionsPath = "" then
    ∃ found, (runOn (find path) fs).1 = .ok (some found) ∧ fs.locate (Path.absolute found) = .ok place
  else fs.locate (Path.normalize optionsPath) = .ok place

theorem parallel_resolve [Yaml.Reader] {path optionsPath : String} (h : AgreeOff W fs fs')
    (hreads : ∀ place, LoadsAt optionsPath path fs place → ¬ W place) :
    Parallel W fs fs' (resolve path optionsPath) := by
  unfold resolve
  split
  · rename_i hne
    apply parallel_load h
    intro place hplace
    apply hreads
    rw [LoadsAt, if_neg (by simpa using hne)]
    exact hplace
  · rename_i hempty
    apply (parallel_find path h).bind
    intro found fs₁ fs₁' hrun h₁
    cases found with
    | some found =>
      apply parallel_load h₁
      intro place hplace
      apply hreads
      rw [LoadsAt, if_pos (by simpa using hempty)]
      rw [(looks_find path).eq_of_runOn hrun] at hplace
      exact ⟨found, by rw [hrun], hplace⟩
    | none => exact .pure h₁ _

theorem parallel_resolveWith [Yaml.Reader] {path optionsPath : String} {aliases : List String}
    {byFullPath : Option Bool}
    (h : AgreeOff W fs fs') (hreads : ∀ place, LoadsAt optionsPath path fs place → ¬ W place) :
    Parallel W fs fs' (resolveWith path optionsPath aliases byFullPath) := by
  apply (parallel_resolve h hreads).bind
  intro options fs₁ fs₁' _ h₁
  split
  · exact .pure h₁ _
  · exact .throw h₁ _

end Options

/-! ## Scanning in step -/

section

open ImportOrder.Action FileSystem

variable {W : List String → Prop} {fs fs' : FileSystem}

/-- Relative paths start from the same place. -/
def FileSystem.SameCurrent (fs fs' : FileSystem) : Prop :=
  fs'.current = fs.current

instance : Std.Refl SameCurrent where
  refl _ := rfl

instance : Trans SameCurrent SameCurrent SameCurrent where
  trans h h' := Eq.trans h' h

/-- The places whose contents a scan reads: its target and its options file. -/
def Reads (request : ScanRequest) (filename : String) (fs : FileSystem) (place : List String) : Prop :=
  fs.locate (Path.normalize filename) = .ok place ∨
    Options.LoadsAt request.optionsPath (Path.normalize filename) fs place

theorem parallel_inspect [Stack] [Yaml.Reader] {request : ScanRequest} {filename : String} (h : AgreeOff W fs fs')
    (hreads : ∀ place, Reads request filename fs place → ¬ W place) :
    Parallel W fs fs' (inspect request filename) := by
  apply (parallel_readText h fun place hplace => hreads place (.inl hplace)).bind
  intro source fs₁ fs₁' hrun h₁
  obtain rfl := (looks_readText (Path.normalize filename)).eq_of_runOn hrun
  apply (Options.parallel_resolveWith h₁ fun place hplace => hreads place (.inr hplace)).bind
  intro options fs₂ fs₂' _ h₂
  have hconfig : Parallel W fs₂ fs₂' (Options.configure options) := by
    unfold Options.configure
    split
    · exact .pure h₂ _
    · exact .throw h₂ _
  apply hconfig.bind
  intro config fs₃ fs₃' _ h₃
  split
  · exact .throw h₃ _
  · exact .pure h₃ _

/-- Two scans of a file go in step if they read the same. -/
theorem parallel_scanFile [Stack] [Yaml.Reader] {clock : Clock} {request : ScanRequest} {filename : String}
    (h : AgreeOff W fs fs') (hreads : ∀ place, Reads request filename fs place → ¬ W place) :
    Parallel W fs fs' (scanFile clock request filename) := by
  rw [scanFile_eq]
  apply (parallel_inspect h hreads).bind
  intro inspection fs₁ fs₁' _ h₁
  have hamend : Parallel W fs₁ fs₁' (inspection.amend request filename) := by
    unfold Inspection.amend
    split
    · exact parallel_update _ _ h₁
    · exact .pure h₁ _
  apply hamend.bind
  intro _ fs₂ fs₂' _ h₂
  have hlog : Parallel W fs₂ fs₂' (inspection.log request filename clock) := by
    unfold Inspection.log
    split
    · exact parallel_logScan _ _ _ h₂
    · exact .pure h₂ _
  apply hlog.bind
  intro _ fs₃ fs₃' _ h₃
  exact .pure h₃ _

/-- The files that a path stands for depend on the shape only. -/
theorem parallel_ofPath (path : String) (h : AgreeOff W fs fs') : Parallel W fs fs' (SourceFiles.ofPath path) := by
  apply parallel_lookUp_bind _ h
  · intro found found' hshape
    rcases Tree.shape_cases hshape with
      ⟨rfl, rfl⟩ | ⟨content, content', rfl, rfl⟩ | ⟨entries, entries', rfl, rfl, hentries⟩
    · rfl
    · rfl
    · have hbelow : ∀ size, SourceFiles.below size (.directory entries') =
          SourceFiles.below size (.directory entries) := by
        intro size
        rw [← SourceFiles.below_shape, ← SourceFiles.below_shape size (.directory entries), Tree.shape, Tree.shape,
          hentries]
      dsimp only
      rw [hbelow]
  · intro found
    split
    · exact .pure h _
    · exact .pure h _

theorem current_of_sameFiles {α : Type} {action : Action α} (h : Keeps SameFiles action) : Keeps SameCurrent action :=
  fun fs => (h fs).current

theorem current_of_looks {α : Type} {action : Action α} (h : Looks action) : Keeps SameCurrent action :=
  fun fs => congrArg FileSystem.current (h fs).symm

theorem current_update (path : String) (f : ByteArray → ByteArray) : Keeps SameCurrent (update path f) := by
  intro fs
  rw [runOn_update]
  split
  · rfl
  · split
    · rfl
    · rfl
    · rfl

/-- A scan does not leave the directory that it is in. -/
theorem scanFile_current [Stack] [Yaml.Reader] (clock : Clock) (request : ScanRequest) (filename : String) :
    Keeps SameCurrent (scanFile clock request filename) := by
  rw [scanFile_eq]
  apply (current_of_looks (looks_inspect request filename)).bind
  intro inspection
  have hamend : Keeps SameCurrent (inspection.amend request filename) := by
    unfold Inspection.amend
    split
    · exact current_update _ _
    · exact .pure _
  have hlog : Keeps SameCurrent (inspection.log request filename clock) := by
    unfold Inspection.log logScan
    split
    · split
      · exact .pure _
      · exact (current_of_sameFiles (sameFiles_makeDirectories _ _ _)).bind fun _ => current_update _ _
    · exact .pure _
  exact hamend.bind fun _ => hlog.bind fun _ => .pure _

end

end ImportOrder
