import ImportOrder.FileScan
import ImportOrder.Proofs.Files

/-!
# What actions do to a file system

Most actions only look. The ones that change something are few: a file is written, or a directory is made where nothing
was. A scan looks at everything it needs before it changes anything; then it may write its target, and last of all it
adds to the log.
-/

namespace ImportOrder

/-! ## Running actions -/

namespace Action

variable {α β : Type}

/-- Runs an action on a file system: what comes of it, and the file system that it leaves. -/
def runOn (action : Action α) (fs : FileSystem) : Except Failure α × FileSystem :=
  action.run.run fs

section

variable (fs : FileSystem)

theorem runOn_pure (a : α) : runOn (pure a) fs = (.ok a, fs) := rfl

theorem runOn_throw (failure : Failure) : runOn (throw failure : Action α) fs = (.error failure, fs) := rfl

theorem runOn_bind (action : Action α) (next : α → Action β) :
    runOn (action >>= next) fs =
      match runOn action fs with
      | (.ok a, fs') => runOn (next a) fs'
      | (.error failure, fs') => (.error failure, fs') := by
  show (ExceptT.bindCont next (action.run.run fs).1).run (action.run.run fs).2 = _
  unfold runOn
  generalize action.run.run fs = outcome
  obtain ⟨result, fs'⟩ := outcome
  cases result with
  | ok a => rfl
  | error failure => rfl

theorem runOn_get_bind (next : FileSystem → Action β) : runOn (get >>= next) fs = runOn (next fs) fs := rfl

theorem runOn_tryCatch (action : Action α) (handler : Failure → Action α) :
    runOn (tryCatch action handler) fs =
      match runOn action fs with
      | (.ok a, fs') => (.ok a, fs')
      | (.error failure, fs') => runOn (handler failure) fs' := by
  unfold runOn
  rw [ExceptT.run_tryCatch, StateT.run_bind]
  generalize action.run.run fs = outcome
  obtain ⟨result, fs'⟩ := outcome
  cases result with
  | ok a => rfl
  | error failure => rfl

end

theorem runOn_bind_ok_iff {action : Action α} {next : α → Action β} {fs fs' : FileSystem} {b : β} :
    runOn (action >>= next) fs = (.ok b, fs') ↔
      ∃ a fs₁, runOn action fs = (.ok a, fs₁) ∧ runOn (next a) fs₁ = (.ok b, fs') := by
  rw [runOn_bind]
  split
  · rename_i a fs₁ hrun
    constructor
    · intro h
      exact ⟨a, fs₁, hrun, h⟩
    · rintro ⟨a', fs₁', hrun', h⟩
      obtain ⟨rfl, rfl⟩ : a = a' ∧ fs₁ = fs₁' := by simpa [hrun] using hrun'
      exact h
  · rename_i failure fs₁ hrun
    simp [hrun]

theorem runOn_bind_error_iff {action : Action α} {next : α → Action β} {fs fs' : FileSystem} {failure : Failure} :
    runOn (action >>= next) fs = (.error failure, fs') ↔ runOn action fs = (.error failure, fs') ∨
      ∃ a fs₁, runOn action fs = (.ok a, fs₁) ∧ runOn (next a) fs₁ = (.error failure, fs') := by
  rw [runOn_bind]
  split
  · rename_i a fs₁ hrun
    constructor
    · intro h
      exact .inr ⟨a, fs₁, hrun, h⟩
    · rintro (hrun' | ⟨a', fs₁', hrun', h⟩)
      · simp [hrun] at hrun'
      · obtain ⟨rfl, rfl⟩ : a = a' ∧ fs₁ = fs₁' := by simpa [hrun] using hrun'
        exact h
  · rename_i failure' fs₁ hrun
    simp [hrun]

/-! ## What is kept -/

instance : Std.Refl (@Eq FileSystem) := ⟨fun _ => rfl⟩

/-- An action keeps a relation between the file system before and after it, whether it fails or not. -/
def Keeps (R : FileSystem → FileSystem → Prop) (action : Action α) : Prop :=
  ∀ fs, R fs (runOn action fs).2

namespace Keeps

variable {R : FileSystem → FileSystem → Prop} {action : Action α}

theorem bind [Trans R R R] {next : α → Action β} (haction : Keeps R action) (hnext : ∀ a, Keeps R (next a)) :
    Keeps R (action >>= next) := by
  intro fs
  have hfirst := haction fs
  rw [runOn_bind]
  split
  · rename_i a fs' hrun
    rw [hrun] at hfirst
    exact Trans.trans hfirst (hnext a fs')
  · rename_i failure fs' hrun
    rw [hrun] at hfirst
    exact hfirst

theorem handled [Trans R R R] {handler : Failure → Action α} (haction : Keeps R action)
    (hhandler : ∀ failure, Keeps R (handler failure)) : Keeps R (tryCatch action handler) := by
  intro fs
  have hfirst := haction fs
  rw [runOn_tryCatch]
  split
  · rename_i a fs' hrun
    rw [hrun] at hfirst
    exact hfirst
  · rename_i failure fs' hrun
    rw [hrun] at hfirst
    exact Trans.trans hfirst (hhandler failure fs')

theorem get_bind {next : FileSystem → Action β} (hnext : ∀ fs, Keeps R (next fs)) : Keeps R (get >>= next) :=
  fun fs => hnext fs fs

variable [Std.Refl R]

theorem pure (a : α) : Keeps R (Pure.pure a : Action α) :=
  fun fs => Std.Refl.refl fs

theorem throw (failure : Failure) : Keeps R (MonadExcept.throw failure : Action α) :=
  fun fs => Std.Refl.refl fs

theorem refuse (refusal : Refusal) (path : String) : Keeps R (Action.refuse refusal path : Action α) :=
  fun fs => Std.Refl.refl fs

end Keeps

/-- An action that only looks. -/
abbrev Looks (action : Action α) : Prop :=
  Keeps Eq action

theorem Looks.eq_of_runOn {action : Action α} (h : Looks action) {fs fs' : FileSystem} {outcome : Except Failure α}
    (hrun : runOn action fs = (outcome, fs')) : fs' = fs := by
  have hkeep := h fs
  rw [hrun] at hkeep
  exact hkeep.symm

/-! ## Looking -/

theorem looks_locate (path : String) : Looks (locate path) := by
  apply Keeps.get_bind
  intro fs
  split
  · exact .pure _
  · exact .refuse _ _

theorem looks_lookUp (path : String) : Looks (lookUp path) := by
  apply Keeps.get_bind
  intro fs
  split
  · exact .pure _
  · exact .refuse _ _

theorem looks_readBytes (path : String) : Looks (readBytes path) := by
  apply (looks_locate path).bind
  intro place
  apply Keeps.get_bind
  intro fs
  split
  · exact .pure _
  · exact .refuse _ _
  · exact .refuse _ _

theorem looks_readText (path : String) : Looks (readText path) := by
  apply (looks_readBytes path).bind
  intro content
  split
  · exact .pure _
  · exact .throw _

theorem runOn_locate (path : String) (fs : FileSystem) : runOn (locate path) fs =
    match fs.locate path with
    | .ok place => (.ok place, fs)
    | .error refusal => (.error (.refused refusal path), fs) := by
  unfold locate
  rw [runOn_get_bind]
  cases fs.locate path with
  | ok place => rfl
  | error refusal => rfl

theorem runOn_readBytes (path : String) (fs : FileSystem) : runOn (readBytes path) fs =
    match fs.locate path with
    | .error refusal => (.error (.refused refusal path), fs)
    | .ok place =>
      match fs.root.kindAt? place with
      | some (.file content) => (.ok content, fs)
      | some .directory => (.error (.refused .isDirectory path), fs)
      | none => (.error (.refused .notFound path), fs) := by
  unfold readBytes Tree.kindAt?
  rw [runOn_bind, runOn_locate]
  cases fs.locate path with
  | error refusal => rfl
  | ok place =>
    dsimp only
    rw [runOn_get_bind]
    cases fs.root.get? place with
    | none => rfl
    | some found =>
      cases found with
      | file content => rfl
      | directory entries => rfl

/-- A text that is read is the content of the file that the path leads to. -/
theorem readText_ok {path : String} {fs fs' : FileSystem} {source : Text}
    (h : runOn (readText path) fs = (.ok source, fs')) : ∃ place content text, fs.locate path = .ok place ∧
      fs.root.kindAt? place = some (.file content) ∧ String.fromUTF8? content = some text ∧
      source = Text.unifyNewlines text.toList := by
  obtain ⟨content, fs₁, hbytes, hdecode⟩ := runOn_bind_ok_iff.mp h
  rw [runOn_readBytes] at hbytes
  split at hbytes
  · simp at hbytes
  · rename_i place hlocate
    split at hbytes
    · rename_i held hkind
      simp only [Prod.mk.injEq, Except.ok.injEq] at hbytes
      obtain ⟨rfl, rfl⟩ := hbytes
      split at hdecode
      · rename_i text htext
        simp only [runOn_pure, Prod.mk.injEq, Except.ok.injEq] at hdecode
        exact ⟨place, held, text, hlocate, hkind, htext, hdecode.1.symm⟩
      · simp [runOn_throw] at hdecode
    · simp at hbytes
    · simp at hbytes

end Action

namespace Options

open ImportOrder.Action

theorem looks_searchStart (path : String) : Looks (searchStart path) := by
  unfold searchStart
  split
  · exact .refuse _ _
  · apply Keeps.get_bind
    intro fs
    apply (looks_lookUp _).bind
    intro found
    split
    · exact .pure _
    · exact .pure _

theorem looks_findIn (directories : List (List String)) : Looks (findIn directories) := by
  induction directories with
  | nil => exact .pure _
  | cons directory directories ih =>
    apply (looks_lookUp _).bind
    intro found
    split
    · exact .pure _
    · exact ih

theorem looks_find (path : String) : Looks (find path) :=
  (looks_searchStart path).bind fun start => looks_findIn (upwards start)

theorem looks_load [Yaml.Reader] (path : String) : Looks (load path) := by
  have hyaml : Looks (readYaml path) := (looks_readText path).bind fun source => .pure _
  apply hyaml.bind
  intro outcome
  split
  · exact .throw _
  · exact .throw _
  · exact .throw _
  · exact .pure _
  · split
    · exact .pure _
    · split
      · exact .throw _
      · exact .throw _

theorem looks_resolve [Yaml.Reader] (path optionsPath : String) : Looks (resolve path optionsPath) := by
  unfold resolve
  split
  · exact looks_load _
  · apply (looks_find path).bind
    intro found
    split
    · exact looks_load _
    · exact .pure _

theorem looks_resolveWith [Yaml.Reader] (path optionsPath : String) (aliases : List String) (byFullPath : Option Bool) :
    Looks (resolveWith path optionsPath aliases byFullPath) := by
  apply (looks_resolve path optionsPath).bind
  intro options
  split
  · exact .pure _
  · exact .throw _

theorem looks_configure (options : List (Value × Value)) : Looks (configure options) := by
  unfold configure
  split
  · exact .pure _
  · exact .throw _

end Options

/-! ## Writing files and making directories -/

namespace FileSystem

/-- The file system with a file written at a place. -/
def write (fs : FileSystem) (place : List String) (content : ByteArray) : FileSystem :=
  { fs with root := fs.root.put place (.file content) }

/-- The file system with a directory made at a place. -/
def make (fs : FileSystem) (place : List String) : FileSystem :=
  { fs with root := fs.root.put place (.directory []) }

/-- The content of the file at a place. -/
def fileAt? (fs : FileSystem) (place : List String) : Option ByteArray :=
  fs.root.fileAt? place

/-- Every file is as it was, none has come or gone, and every directory is still there. -/
structure SameFiles (fs fs' : FileSystem) : Prop where
  current : fs'.current = fs.current
  file : ∀ place, fs'.fileAt? place = fs.fileAt? place
  directory : ∀ place, fs.root.kindAt? place = some .directory → fs'.root.kindAt? place = some .directory

instance : Std.Refl SameFiles where
  refl _ := ⟨rfl, fun _ => rfl, fun _ h => h⟩

instance : Trans SameFiles SameFiles SameFiles where
  trans h h' := ⟨h'.current.trans h.current, fun place => (h'.file place).trans (h.file place),
    fun place hplace => h'.directory place (h.directory place hplace)⟩

variable {fs : FileSystem} {place : List String}

/-- Writing a file changes that file only. -/
theorem fileAt?_write {content : ByteArray} (h : fs.root.Vacant place) (q : List String) :
    (fs.write place content).fileAt? q = if q = place then some content else fs.fileAt? q := by
  unfold fileAt? Tree.fileAt?
  rw [write, Tree.kindAt?_put h (Tree.isBare_file content)]
  by_cases hq : q = place
  · rw [if_pos hq, if_pos hq]
    rfl
  · rw [if_neg hq, if_neg hq]

/-- Writing a file keeps all directories. -/
theorem directory_write {content : ByteArray} {q : List String} (h : fs.root.Vacant place)
    (hnot : fs.root.kindAt? place ≠ some .directory) (hq : fs.root.kindAt? q = some .directory) :
    (fs.write place content).root.kindAt? q = some .directory := by
  rw [write, Tree.kindAt?_put h (Tree.isBare_file content)]
  by_cases heq : q = place
  · rw [heq] at hq
    exact absurd hq hnot
  · rw [if_neg heq]
    exact hq

/-- A path leads where it led before a file was written. -/
theorem locate_write {content : ByteArray} {path : String} {q : List String} (h : fs.root.Vacant place)
    (hnot : fs.root.kindAt? place ≠ some .directory) (hq : fs.locate path = .ok q) :
    (fs.write place content).locate path = .ok q := by
  have hcurrent : (fs.write place content).current = fs.current := rfl
  exact locate_of_directories hcurrent (fun _ hdirectory => directory_write h hnot hdirectory) hq

/-- Making a directory where nothing was leaves all files alone. -/
theorem sameFiles_make (h : fs.root.Vacant place) (hnone : fs.root.kindAt? place = none) :
    SameFiles fs (fs.make place) := by
  have hkind := Tree.kindAt?_put h Tree.isBare_directory
  refine ⟨rfl, ?_, ?_⟩
  · intro q
    unfold fileAt? Tree.fileAt?
    rw [make, hkind]
    by_cases hq : q = place
    · rw [if_pos hq, hq, hnone]
      rfl
    · rw [if_neg hq]
  · intro q hq
    rw [make, hkind]
    by_cases heq : q = place
    · rw [if_pos heq]
      rfl
    · rw [if_neg heq]
      exact hq

end FileSystem

namespace Action

theorem runOn_update (path : String) (f : ByteArray → ByteArray) (fs : FileSystem) : runOn (update path f) fs =
    match fs.locate path with
    | .error refusal => (.error (.refused refusal path), fs)
    | .ok place =>
      match fs.root.kindAt? place with
      | some .directory => (.error (.refused .isDirectory path), fs)
      | some (.file content) => (.ok (), fs.write place (f content))
      | none => (.ok (), fs.write place (f ByteArray.empty)) := by
  unfold update Tree.kindAt?
  rw [runOn_bind, runOn_locate]
  cases fs.locate path with
  | error refusal => rfl
  | ok place =>
    dsimp only
    rw [runOn_get_bind]
    cases fs.root.get? place with
    | none => rfl
    | some found =>
      cases found with
      | file content => rfl
      | directory entries => rfl

/-- The path that is looked up when a directory is made. -/
def barePath (path : String) : String :=
  if withoutEndSlashes path = "" then path else withoutEndSlashes path

theorem runOn_makeDirectory (path : String) (fs : FileSystem) : runOn (makeDirectory path) fs =
    match fs.locate (barePath path) with
    | .error refusal => (.error (.refused refusal path), fs)
    | .ok place =>
      match fs.root.kindAt? place with
      | some _ => (.error (.refused .alreadyExists path), fs)
      | none => (.ok (), fs.make place) := by
  unfold makeDirectory barePath Tree.kindAt?
  dsimp only
  rw [runOn_get_bind]
  cases fs.locate (if withoutEndSlashes path = "" then path else withoutEndSlashes path) with
  | error refusal => rfl
  | ok place =>
    dsimp only
    rw [runOn_get_bind]
    cases fs.root.get? place with
    | none => rfl
    | some found => rfl

theorem sameFiles_makeDirectory (path : String) : Keeps FileSystem.SameFiles (makeDirectory path) := by
  intro fs
  rw [runOn_makeDirectory]
  split
  · exact Std.Refl.refl fs
  · rename_i place hlocate
    split
    · exact Std.Refl.refl fs
    · rename_i hnone
      have hvacant := FileSystem.vacant_of_locate hlocate (by simp [hnone])
      exact FileSystem.sameFiles_make hvacant hnone

/-- A path cut before its last name; a slash at the end does not count. -/
def cutLast (path : String) : String × String :=
  if (splitLast path).2 = "" then splitLast (splitLast path).1 else splitLast path

/-- Whether the directory above a path has to be made first. -/
def lacksParent (fs : FileSystem) (path : String) : Bool :=
  (cutLast path).1 != "" && (cutLast path).2 != "" && (fs.get? (cutLast path).1).isNone

/-- Makes the directories above a path; one that has come into being meanwhile is no failure. -/
def makeAbove (existing : Bool) (bound : Nat) (path : String) : Action Unit :=
  tryCatch (makeDirectories existing bound (cutLast path).1) fun failure =>
    match failure with
    | .refused .alreadyExists _ => pure ()
    | failure => throw failure

/-- Makes a directory in one that exists; with `existing`, one that is there already is no failure. -/
def makeLast (existing : Bool) (path : String) : Action Unit :=
  tryCatch (makeDirectory path) fun failure => do
    if existing && (← get).isDirectory path then pure () else throw failure

theorem makeDirectories_succ (existing : Bool) (bound : Nat) (path : String) :
    makeDirectories existing (bound + 1) path = get >>= fun fs =>
      if lacksParent fs path then
        makeAbove existing bound path >>= fun _ =>
          if (cutLast path).2 = "." then pure () else makeLast existing path
      else makeLast existing path := by
  rw [makeDirectories]
  unfold lacksParent makeAbove makeLast cutLast
  generalize splitLast path = cut
  obtain ⟨front, last⟩ := cut
  dsimp only
  generalize (if last = "" then splitLast front else (front, last)) = cut
  obtain ⟨front, last⟩ := cut
  dsimp only
  congr 1
  funext fs
  cases front != "" && last != "" && (fs.get? front).isNone with
  | false => rw [if_neg Bool.false_ne_true, if_neg Bool.false_ne_true, if_neg (by simp)]
  | true =>
    rw [if_pos rfl, if_pos rfl]
    congr 1
    funext _
    by_cases hlast : last = "."
    · rw [if_pos hlast, if_pos (by simp [hlast])]
    · rw [if_neg hlast, if_neg (by simp [hlast])]

/-- What the making of one directory keeps for its path, and for all paths that it is cut from, is kept by the making of
all directories on the way. -/
theorem keeps_makeDirectories {R : String → FileSystem → FileSystem → Prop} [∀ path, Std.Refl (R path)]
    [∀ path, Trans (R path) (R path) (R path)] (hmake : ∀ path, Keeps (R path) (makeDirectory path))
    (hcut : ∀ path fs fs', R (cutLast path).1 fs fs' → R path fs fs') (existing : Bool) (bound : Nat) (path : String) :
    Keeps (R path) (makeDirectories existing bound path) := by
  induction bound generalizing path with
  | zero => exact hmake path
  | succ bound ih =>
    -- what is made above is made for the front of the path
    have habove : Keeps (R path) (makeAbove existing bound path) := by
      have hkept : Keeps (R path) (makeDirectories existing bound (cutLast path).1) :=
        fun fs => hcut path _ _ (ih _ fs)
      apply hkept.handled
      intro failure
      split
      · exact .pure _
      · exact .throw _
    have hlast : Keeps (R path) (makeLast existing path) := by
      apply (hmake path).handled
      intro failure
      apply Keeps.get_bind
      intro fs
      split
      · exact .pure _
      · exact .throw _
    rw [makeDirectories_succ]
    apply Keeps.get_bind
    intro fs
    split
    · apply habove.bind
      intro _
      split
      · exact .pure _
      · exact hlast
    · exact hlast

theorem sameFiles_makeDirectories (existing : Bool) (bound : Nat) (path : String) :
    Keeps FileSystem.SameFiles (makeDirectories existing bound path) :=
  keeps_makeDirectories (R := fun _ => FileSystem.SameFiles) sameFiles_makeDirectory (fun _ _ _ h => h) existing bound
    path

end Action

end ImportOrder
