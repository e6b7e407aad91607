import ImportOrder.Storage.Action

/-!
# What stands at the places of a tree

A tree is looked at place by place: a file with its content, a directory, or nothing. Putting a file or an empty
directory into a directory changes what stands at one place and nowhere else. A path leads to a place whose parent is a
directory, so what an action puts there is put right.
-/

namespace ImportOrder

namespace Tree

/-- What stands at a place. -/
inductive Kind where
  | file (content : ByteArray)
  | directory

def kind : Tree → Kind
  | file content => .file content
  | directory _ => .directory

/-- What stands at a place of a tree, if anything does. -/
def kindAt? (tree : Tree) (place : List String) : Option Kind :=
  (tree.get? place).map kind

/-- The content of the file at a place. -/
def fileAt? (tree : Tree) (place : List String) : Option ByteArray :=
  match tree.kindAt? place with
  | some (.file content) => some content
  | _ => none

variable {tree new sub : Tree} {entries : List (String × Tree)} {name other : String} {place below : List String}

theorem fileAt?_eq_some_iff {content : ByteArray} :
    tree.fileAt? place = some content ↔ tree.kindAt? place = some (.file content) := by
  unfold fileAt?
  split
  · rename_i held hkind
    rw [hkind, Option.some.injEq, Option.some.injEq, Kind.file.injEq]
  · rename_i hnot
    constructor
    · intro h
      simp at h
    · intro h
      exact absurd h (hnot content)

/-! ## Going down -/

@[simp]
theorem get?_nil : tree.get? [] = some tree := by
  rw [get?]

theorem get?_cons : (directory entries).get? (name :: place) = (entries.lookup name).bind (·.get? place) := by
  rw [get?]
  cases entries.lookup name with
  | none => rfl
  | some sub => rfl

theorem get?_file_cons (content : ByteArray) : (file content).get? (name :: place) = none := by
  rw [get?]

theorem get?_append : tree.get? (place ++ below) = (tree.get? place).bind (·.get? below) := by
  induction place generalizing tree with
  | nil => rw [List.nil_append, get?_nil, Option.bind_some]
  | cons name place ih =>
    cases tree with
    | file content => rw [List.cons_append, get?_file_cons, get?_file_cons, Option.bind_none]
    | directory entries =>
      rw [List.cons_append, get?_cons, get?_cons]
      cases entries.lookup name with
      | none => rfl
      | some sub =>
        rw [Option.bind_some, Option.bind_some]
        exact ih

theorem kindAt?_eq_directory_iff :
    tree.kindAt? place = some .directory ↔ ∃ entries, tree.get? place = some (directory entries) := by
  unfold kindAt?
  constructor
  · intro h
    obtain ⟨found, hfound, hkind⟩ := Option.map_eq_some_iff.mp h
    cases found with
    | file content => simp [kind] at hkind
    | directory entries => exact ⟨entries, hfound⟩
  · rintro ⟨entries, h⟩
    rw [h]
    rfl

/-- What stands above anything is a directory. -/
theorem kindAt?_dropLast (h : tree.kindAt? place = some .directory) :
    tree.kindAt? place.dropLast = some .directory := by
  by_cases hnil : place = []
  · subst hnil
    exact h
  · obtain ⟨entries, hentries⟩ := kindAt?_eq_directory_iff.mp h
    rw [← List.dropLast_concat_getLast hnil, get?_append] at hentries
    obtain ⟨found, hfound, hbelow⟩ := Option.bind_eq_some_iff.mp hentries
    cases found with
    | file content =>
      rw [get?_file_cons] at hbelow
      simp at hbelow
    | directory above => exact kindAt?_eq_directory_iff.mpr ⟨above, hfound⟩

/-! ## Putting an entry -/

theorem lookup_setEntry : (setEntry name new entries).lookup other =
    if other = name then some new else entries.lookup other := by
  induction entries with
  | nil =>
    rw [setEntry, List.lookup_cons, List.lookup_nil]
    by_cases h : other = name
    · rw [if_pos h, h]
      simp
    · rw [if_neg h, beq_eq_false_iff_ne.mpr h]
  | cons entry entries ih =>
    obtain ⟨key, held⟩ := entry
    rw [setEntry]
    by_cases hkey : key = name
    · rw [if_pos hkey, List.lookup_cons, List.lookup_cons, hkey]
      by_cases h : other = name
      · rw [if_pos h, h]
        simp
      · rw [if_neg h, beq_eq_false_iff_ne.mpr h]
    · rw [if_neg hkey, List.lookup_cons, List.lookup_cons, ih]
      by_cases h : other = key
      · subst h
        simp [hkey]
      · rw [beq_eq_false_iff_ne.mpr h]

theorem put_cons : (directory entries).put (name :: place) new =
    directory (setEntry name (put ((entries.lookup name).getD (directory [])) place new) entries) := by
  rw [put]

/-- Nothing stands below a place. -/
def BareAt (tree : Tree) (place : List String) : Prop :=
  ∀ name below, tree.get? (place ++ name :: below) = none

/-- A place in a directory at which an entry can be put without losing others. -/
structure Vacant (tree : Tree) (place : List String) : Prop where
  parent : tree.kindAt? place.dropLast = some .directory
  ne_nil : place ≠ []
  bare : tree.BareAt place

theorem bareAt_of_file {content : ByteArray} (h : tree.kindAt? place = some (.file content)) : tree.BareAt place := by
  intro name below
  obtain ⟨found, hfound, hkind⟩ := Option.map_eq_some_iff.mp h
  cases found with
  | file held => rw [get?_append, hfound, Option.bind_some, get?_file_cons]
  | directory entries => simp [kind] at hkind

theorem bareAt_of_none (h : tree.get? place = none) : tree.BareAt place := by
  intro name below
  rw [get?_append, h, Option.bind_none]

/-- What can be put without more below it: a file or an empty directory. -/
def IsBare (new : Tree) : Prop :=
  ∀ name below, new.get? (name :: below) = none

theorem isBare_file (content : ByteArray) : (file content).IsBare := by
  intro name below
  exact get?_file_cons content

theorem isBare_directory : (directory []).IsBare := by
  intro name below
  rw [get?_cons]
  rfl

/-- An entry is put into a directory. -/
theorem Vacant.exists_entries (h : tree.Vacant (name :: place)) : ∃ entries, tree = directory entries := by
  cases tree with
  | directory entries => exact ⟨entries, rfl⟩
  | file content =>
    have hparent := h.parent
    cases place with
    | nil => simp [kindAt?, kind] at hparent
    | cons => simp [kindAt?, get?_file_cons] at hparent

/-- The directory on the way to a vacant place is there, and the place is vacant in it. -/
theorem Vacant.inner {next : String} (h : (directory entries).Vacant (name :: next :: place)) :
    ∃ sub, entries.lookup name = some sub ∧ sub.Vacant (next :: place) := by
  have hparent := h.parent
  rw [List.dropLast_cons_cons] at hparent
  obtain ⟨above, habove⟩ := kindAt?_eq_directory_iff.mp hparent
  rw [get?_cons] at habove
  obtain ⟨sub, hsub, habove⟩ := Option.bind_eq_some_iff.mp habove
  refine ⟨sub, hsub, kindAt?_eq_directory_iff.mpr ⟨above, habove⟩, List.cons_ne_nil next place, ?_⟩
  intro below q
  have hnone := h.bare below q
  rw [List.cons_append, get?_cons, hsub, Option.bind_some] at hnone
  exact hnone

/-- A bare entry that is put at a vacant place stands there, and all other places are as before. -/
theorem kindAt?_put (hplace : tree.Vacant place) (hnew : new.IsBare) (q : List String) :
    (tree.put place new).kindAt? q = if q = place then some new.kind else tree.kindAt? q := by
  induction place generalizing tree q with
  | nil => exact absurd rfl hplace.ne_nil
  | cons name place ih =>
    obtain ⟨entries, rfl⟩ := hplace.exists_entries
    rw [put_cons]
    cases q with
    | nil => simp [kindAt?, kind]
    | cons other q =>
      unfold kindAt? at ih ⊢
      rw [get?_cons, get?_cons, lookup_setEntry]
      by_cases hother : other = name
      · subst hother
        rw [if_pos rfl, Option.bind_some]
        cases place with
        | nil =>
          -- the entry itself is new, and nothing stood below it
          cases q with
          | nil => simp [put]
          | cons below q =>
            have hnone := hplace.bare below q
            rw [List.singleton_append, get?_cons] at hnone
            rw [if_neg (by simp), hnone]
            simp [put, hnew below q]
        | cons next place =>
          obtain ⟨sub, hsub, hvacant⟩ := hplace.inner
          rw [hsub, Option.getD_some, Option.bind_some, ih hvacant q]
          by_cases hq : q = next :: place
          · rw [if_pos hq, if_pos (by rw [hq])]
          · rw [if_neg hq, if_neg (by simpa using hq)]
      · rw [if_neg hother, if_neg (by simp [hother])]

end Tree

/-! ## Paths -/

namespace Text

theorem splitOn_ne_nil (sep : Char) (t : Text) : splitOn sep t ≠ [] := by
  cases t with
  | nil => simp [splitOn]
  | cons c t =>
    rw [splitOn]
    split
    · simp
    · split
      · simp
      · simp

/-- Two texts on the two sides of a separator are split one by one. -/
theorem splitOn_append (sep : Char) (s t : Text) :
    splitOn sep (s ++ sep :: t) = splitOn sep s ++ splitOn sep t := by
  induction s with
  | nil =>
    rw [List.nil_append, splitOn, splitOn, if_pos rfl]
    rfl
  | cons c s ih =>
    rw [List.cons_append, splitOn, splitOn, ih]
    split
    · rfl
    · obtain ⟨first, others, hsplit⟩ := List.exists_cons_of_ne_nil (splitOn_ne_nil sep s)
      rw [hsplit, List.cons_append]
      rfl

/-- A text without the separator is one piece. -/
theorem splitOn_of_not_mem {sep : Char} {t : Text} (h : sep ∉ t) : splitOn sep t = [t] := by
  induction t with
  | nil => rfl
  | cons c rest ih =>
    rw [List.mem_cons, not_or] at h
    rw [splitOn, if_neg (Ne.symm h.1), ih h.2]

/-- Separators at the front are split off as empty pieces. -/
theorem splitOn_replicate_append (sep : Char) (n : Nat) (t : Text) :
    splitOn sep (List.replicate n sep ++ t) = List.replicate n [] ++ splitOn sep t := by
  induction n with
  | zero => rfl
  | succ n ih =>
    rw [List.replicate_succ, List.cons_append, splitOn, if_pos rfl, ih]
    rfl

/-- The pieces hold characters of the text, but no separator. -/
theorem of_mem_splitOn {sep : Char} {t piece : Text} (h : piece ∈ splitOn sep t) : ∀ c ∈ piece, c ≠ sep ∧ c ∈ t := by
  induction t generalizing piece with
  | nil =>
    obtain rfl : piece = [] := by simpa [splitOn] using h
    simp
  | cons d t ih =>
    rw [splitOn] at h
    split at h
    · rcases List.mem_cons.mp h with rfl | h
      · simp
      · intro c hc
        exact ⟨(ih h c hc).1, List.mem_cons_of_mem d (ih h c hc).2⟩
    · rename_i hd
      obtain ⟨first, others, hsplit⟩ := List.exists_cons_of_ne_nil (splitOn_ne_nil sep t)
      rw [hsplit] at h ih
      rcases List.mem_cons.mp h with rfl | h
      · intro c hc
        rcases List.mem_cons.mp hc with rfl | hc
        · exact ⟨hd, List.mem_cons_self⟩
        · have hfirst := ih List.mem_cons_self c hc
          exact ⟨hfirst.1, List.mem_cons_of_mem d hfirst.2⟩
      · intro c hc
        have hother := ih (List.mem_cons_of_mem first h) c hc
        exact ⟨hother.1, List.mem_cons_of_mem d hother.2⟩

end Text

namespace FileSystem

variable {fs : FileSystem} {place found : List String} {path : String}

theorem walk_cons (fs : FileSystem) (place : List String) (name : String) (names : List String) :
    fs.walk place (name :: names) =
      match fs.root.kindAt? place with
      | none => .error .notFound
      | some (.file _) => .error .notDirectory
      | some .directory =>
        if name = "" ∨ name = "." then fs.walk place names
        else if name = ".." then fs.walk place.dropLast names
        else if nameLimit < name.utf8ByteSize then .error .nameTooLong
        else fs.walk (place ++ [name]) names := by
  rw [walk, Tree.kindAt?]
  cases fs.root.get? place with
  | none => rfl
  | some tree =>
    cases tree with
    | file content => rfl
    | directory entries => rfl

/-- Following names ends in a directory or right below one. -/
theorem walk_parent {names : List String} (hstart : fs.root.kindAt? place.dropLast = some .directory)
    (h : fs.walk place names = .ok found) : fs.root.kindAt? found.dropLast = some .directory := by
  induction names generalizing place with
  | nil =>
    rw [walk, Except.ok.injEq] at h
    rw [← h]
    exact hstart
  | cons name names ih =>
    rw [walk_cons] at h
    split at h
    · simp at h
    · simp at h
    · rename_i hplace
      split at h
      · exact ih hstart h
      · split at h
        · exact ih (Tree.kindAt?_dropLast hstart) h
        · split at h
          · simp at h
          · apply ih _ h
            rw [List.dropLast_concat]
            exact hplace

/-- Names that can be followed can be followed still where the directories are still there. -/
theorem walk_of_directories {fs' : FileSystem} {names : List String}
    (hkept : ∀ q, fs.root.kindAt? q = some .directory → fs'.root.kindAt? q = some .directory)
    (h : fs.walk place names = .ok found) : fs'.walk place names = .ok found := by
  -- a step asks only whether a directory stands at its place, and whether the name is too long
  induction names generalizing place with
  | nil =>
    rw [walk] at h ⊢
    exact h
  | cons name names ih =>
    rw [walk_cons] at h
    split at h
    · simp at h
    · simp at h
    · rename_i hplace
      rw [walk_cons, hkept place hplace]
      dsimp only
      split at h
      · rename_i hname
        rw [if_pos hname]
        exact ih h
      · rename_i hname
        rw [if_neg hname]
        split at h
        · rename_i hup
          rw [if_pos hup]
          exact ih h
        · rename_i hup
          rw [if_neg hup]
          split at h
          · simp at h
          · rename_i hlong
            rw [if_neg hlong]
            exact ih h

theorem locate_of_directories {fs' : FileSystem} (hcurrent : fs'.current = fs.current)
    (hkept : ∀ q, fs.root.kindAt? q = some .directory → fs'.root.kindAt? q = some .directory)
    (h : fs.locate path = .ok place) : fs'.locate path = .ok place := by
  have hstart : fs'.startOf path = fs.startOf path := by rw [startOf, startOf, hcurrent]
  unfold locate at h ⊢
  rw [hstart]
  split at h
  · simp at h
  · rename_i hempty
    rw [if_neg hempty]
    split at h
    · simp at h
    · rename_i hnul
      rw [if_neg hnul]
      split at h
      · simp at h
      · rename_i hlong
        rw [if_neg hlong]
        exact walk_of_directories hkept h

theorem names_ne_nil (path : String) : Path.names path ≠ [] := by
  rw [Path.names, ne_eq, List.map_eq_nil_iff]
  exact Text.splitOn_ne_nil _ _

/-- A path leads to the top or into a directory. -/
theorem locate_parent (h : fs.locate path = .ok place) : fs.root.kindAt? place.dropLast = some .directory := by
  unfold locate at h
  split at h
  · simp at h
  · split at h
    · simp at h
    · split at h
      · simp at h
      · -- the first name is looked up in a directory
        obtain ⟨name, names, hnames⟩ := List.exists_cons_of_ne_nil (names_ne_nil path)
        have hstart : fs.root.kindAt? (fs.startOf path) = some .directory := by
          rw [hnames, walk_cons] at h
          split at h
          · simp at h
          · simp at h
          · assumption
        exact walk_parent (Tree.kindAt?_dropLast hstart) h

/-- Where a path leads, a file may be written unless a directory stands there. -/
theorem vacant_of_locate (h : fs.locate path = .ok place) (hnot : fs.root.kindAt? place ≠ some .directory) :
    fs.root.Vacant place := by
  refine ⟨locate_parent h, ?_, ?_⟩
  · rintro rfl
    exact hnot (locate_parent h)
  · cases hget : fs.root.get? place with
    | none => exact Tree.bareAt_of_none hget
    | some held =>
      cases held with
      | file content =>
        have hkind : fs.root.kindAt? place = some (.file content) := by
          rw [Tree.kindAt?, hget]
          rfl
        exact Tree.bareAt_of_file hkind
      | directory entries => exact absurd (Tree.kindAt?_eq_directory_iff.mpr ⟨entries, hget⟩) hnot

end FileSystem

end ImportOrder
