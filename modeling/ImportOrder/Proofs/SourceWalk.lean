import ImportOrder.Proofs.StandardInput
import Mathlib.Algebra.GroupWithZero.Nat
import Mathlib.Data.List.Forall2

/-!
# The source files that paths stand for

A path that names a directory stands for the source files below it, any other path for itself. The walk through a
directory comes to every source file that lies in no skipped directory, once, those of a directory before those of its
directories, both in the order of names. Two things can get in the way, and both are paths that are too long: a path
that cannot be looked up ends the whole walk, and a directory whose path grows too long on the way is passed over.
-/

namespace ImportOrder

open ImportOrder.Action

/-! ## Trees with proper names -/

namespace Tree

/-- Induction on trees, with the entries of a directory in place of the list of them. -/
@[elab_as_elim]
theorem entryInduction {motive : Tree → Prop} (file : ∀ content, motive (.file content))
    (directory : ∀ entries, (∀ entry ∈ entries, motive entry.2) → motive (.directory entries)) (tree : Tree) :
    motive tree := by
  match tree with
  | .file content => exact file content
  | .directory entries => exact directory entries fun entry hentry => entryInduction file directory entry.2
termination_by sizeOf tree
decreasing_by
  have hentries := List.sizeOf_lt_of_mem hentry
  obtain ⟨name, sub⟩ := entry
  simp only [Prod.mk.sizeOf_spec, Tree.directory.sizeOf_spec] at hentries ⊢
  omega

/-- A tree whose directories hold names that files can have, each of them once. -/
def Proper (tree : Tree) : Prop :=
  ∀ place entries, tree.get? place = some (.directory entries) →
    (entries.map Prod.fst).Nodup ∧ ∀ entry ∈ entries, PlainName entry.1

variable {entries : List (String × Tree)} {name : String} {sub : Tree}

theorem lookup_eq_some_iff (h : (entries.map Prod.fst).Nodup) :
    entries.lookup name = some sub ↔ (name, sub) ∈ entries := by
  constructor
  · intro hlookup
    obtain ⟨front, back, rfl, -⟩ := List.lookup_eq_some_iff.mp hlookup
    exact List.mem_append_right front List.mem_cons_self
  · intro hmem
    obtain ⟨front, back, rfl⟩ := List.append_of_mem hmem
    refine List.lookup_eq_some_iff.mpr ⟨front, back, rfl, ?_⟩
    intro entry hentry
    rw [List.map_append, List.map_cons] at h
    have hne := (List.nodup_append.mp h).2.2 entry.1 (List.mem_map_of_mem hentry) name List.mem_cons_self
    simpa using Ne.symm hne

theorem proper_file (content : ByteArray) : (file content).Proper := by
  intro place inner hinner
  cases place with
  | nil => simp at hinner
  | cons name place => simp [get?_file_cons] at hinner

theorem Proper.names_nodup (h : (directory entries).Proper) : (entries.map Prod.fst).Nodup :=
  (h [] entries get?_nil).1

theorem Proper.entry (h : (directory entries).Proper) (hmem : (name, sub) ∈ entries) : sub.Proper := by
  intro place inner hinner
  apply h (name :: place)
  rw [get?_cons, (lookup_eq_some_iff h.names_nodup).mpr hmem, Option.bind_some, hinner]

/-- A directory is proper if its names are and all that it holds is. -/
theorem proper_directory_iff : (directory entries).Proper ↔
    (entries.map Prod.fst).Nodup ∧ ∀ entry ∈ entries, PlainName entry.1 ∧ entry.2.Proper := by
  constructor
  · intro h
    exact ⟨h.names_nodup, fun entry hentry => ⟨(h [] entries get?_nil).2 entry hentry, h.entry hentry⟩⟩
  · rintro ⟨hnodup, hentries⟩ place inner hinner
    cases place with
    | nil =>
      rw [get?_nil] at hinner
      obtain rfl := directory.inj (Option.some.inj hinner)
      exact ⟨hnodup, fun entry hentry => (hentries entry hentry).1⟩
    | cons name place =>
      rw [get?_cons] at hinner
      obtain ⟨sub, hlookup, hsub⟩ := Option.bind_eq_some_iff.mp hinner
      exact (hentries _ ((lookup_eq_some_iff hnodup).mp hlookup)).2 place inner hsub

theorem Proper.get? {tree : Tree} (h : tree.Proper) {place : List String} (hsub : tree.get? place = some sub) :
    sub.Proper := by
  intro below inner hinner
  apply h (place ++ below)
  rw [get?_append, hsub, Option.bind_some, hinner]

end Tree

/-! ## The order of names -/

theorem Text.lt_of_le {s t : Text} (h : Text.le s t = true) (hne : s ≠ t) : s < t := by
  induction s generalizing t with
  | nil =>
    cases t with
    | nil => exact absurd rfl hne
    | cons d t => exact List.nil_lt_cons d t
  | cons c s ih =>
    cases t with
    | nil => simp [Text.le, lexLe] at h
    | cons d t =>
      rw [List.cons_lt_cons_iff]
      by_cases hcd : c = d
      · subst hcd
        refine .inr ⟨rfl, ih ?_ ?_⟩
        · simpa [Text.le, lexLe] using h
        · simpa using hne
      · simp only [Text.le, lexLe, hcd, if_false, Text.charLe, decide_eq_true_eq] at h
        left
        have hne' : c.toNat ≠ d.toNat := fun heq => hcd (Char.toNat_inj.mp heq)
        exact UInt32.lt_iff_toNat_lt.mpr (Nat.lt_of_le_of_ne h hne')

namespace SourceFiles

theorem mem_sortByName {α : Type} {items : List (String × α)} {item : String × α} :
    item ∈ sortByName items ↔ item ∈ items :=
  List.mem_mergeSort

/-- What bears distinct names is sorted strictly. -/
theorem pairwise_sortByName {α : Type} {items : List (String × α)} (h : (items.map Prod.fst).Nodup) :
    (sortByName items).Pairwise fun a b => a.1.toList < b.1.toList := by
  have hsorted : (sortByName items).Pairwise fun a b => Text.le a.1.toList b.1.toList = true := by
    apply List.pairwise_mergeSort
    · intro a b c hab hbc
      exact Text.le_trans _ _ _ hab hbc
    · intro a b
      simpa using Text.le_total a.1.toList b.1.toList
  have hdistinct : (sortByName items).Pairwise fun a b => a.1 ≠ b.1 := by
    have hperm : ((sortByName items).map Prod.fst).Perm (items.map Prod.fst) := (List.mergeSort_perm items _).map _
    exact List.pairwise_map.mp (hperm.nodup_iff.mpr h)
  refine (hsorted.and hdistinct).imp ?_
  rintro a b ⟨hle, hne⟩
  exact Text.lt_of_le hle fun heq => hne (String.toList_inj.mp heq)

/-! ## The files that the walk comes to -/

/-- The walk enters all directories on the way to a place: none of them is skipped, and the path of none is too long.
`size` is the number of bytes before the first name. -/
def Entered (size : Nat) (place : List String) : Prop :=
  ∀ front name rest, place = front ++ name :: rest → rest ≠ [] → name ∉ skippedDirectories ∧
    size + (front.map fun other => other.utf8ByteSize + 1).sum + name.utf8ByteSize < pathLimit

/-- A source file below a directory that the walk comes to. -/
structure Reached (size : Nat) (tree : Tree) (place : List String) : Prop where
  file : ∃ content, tree.fileAt? place = some content
  source : ∃ front name, place = front ++ [name] ∧ ∃ ending ∈ Settings.extensions, ending.toList <:+ name.toList
  entered : Entered size place

theorem isSource_iff {name : String} :
    isSource name = true ↔ ∃ ending ∈ Settings.extensions, ending.toList <:+ name.toList := by
  simp [isSource]

section

variable {size : Nat} {name : String} {rest : List String} {entries : List (String × Tree)}

theorem entered_cons (hrest : rest ≠ []) : Entered size (name :: rest) ↔
    name ∉ skippedDirectories ∧ size + name.utf8ByteSize < pathLimit ∧ Entered (size + name.utf8ByteSize + 1) rest := by
  constructor
  · intro h
    have hname := h [] name rest rfl hrest
    refine ⟨hname.1, by simpa using hname.2, ?_⟩
    rintro front other behind rfl hbehind
    have hother := h (name :: front) other behind rfl hbehind
    rw [List.map_cons, List.sum_cons] at hother
    exact ⟨hother.1, by omega⟩
  · rintro ⟨hname, hshort, hinner⟩ front other behind hsplit hbehind
    cases front with
    | nil =>
      obtain ⟨rfl, rfl⟩ := List.cons_eq_cons.mp hsplit
      exact ⟨hname, by simpa using hshort⟩
    | cons first front =>
      obtain ⟨rfl, rfl⟩ := List.cons_eq_cons.mp hsplit
      have hother := hinner front other behind rfl hbehind
      rw [List.map_cons, List.sum_cons]
      exact ⟨hother.1, by omega⟩

theorem entered_singleton : Entered size [name] := by
  intro front other rest hsplit hrest
  have hlength := congrArg List.length hsplit
  have hpos := List.length_pos_iff.mpr hrest
  simp only [List.length_append, List.length_cons, List.length_nil] at hlength
  omega

/-- A file of the directory itself. -/
theorem reached_singleton (h : (Tree.directory entries).Proper) : Reached size (.directory entries) [name] ↔
    isSource name = true ∧ ∃ content, (name, .file content) ∈ entries := by
  have hfile : ∀ content, (Tree.directory entries).fileAt? [name] = some content ↔ (name, .file content) ∈ entries := by
    intro content
    rw [← Tree.lookup_eq_some_iff h.names_nodup, Tree.fileAt?_eq_some_iff, Tree.kindAt?, Tree.get?_cons]
    cases entries.lookup name with
    | none => simp
    | some sub => cases sub <;> simp [Tree.kind]
  constructor
  · rintro ⟨⟨content, hcontent⟩, ⟨front, other, hsplit, hsource⟩, -⟩
    cases front with
    | nil =>
      obtain ⟨rfl, -⟩ := List.cons_eq_cons.mp hsplit
      exact ⟨isSource_iff.mpr hsource, content, (hfile content).mp hcontent⟩
    | cons first front => simp at hsplit
  · rintro ⟨hsource, content, hmem⟩
    exact ⟨⟨content, (hfile content).mpr hmem⟩, ⟨[], name, rfl, isSource_iff.mp hsource⟩, entered_singleton⟩

/-- A file further below. -/
theorem reached_cons (h : (Tree.directory entries).Proper) (hrest : rest ≠ []) :
    Reached size (.directory entries) (name :: rest) ↔ ∃ sub, (name, sub) ∈ entries ∧ sub.isDirectory = true ∧
      name ∉ skippedDirectories ∧ size + name.utf8ByteSize < pathLimit ∧
      Reached (size + name.utf8ByteSize + 1) sub rest := by
  have hsource : (∃ front last, name :: rest = front ++ [last] ∧ ∃ ending ∈ Settings.extensions,
      ending.toList <:+ last.toList) ↔ ∃ front last, rest = front ++ [last] ∧ ∃ ending ∈ Settings.extensions,
      ending.toList <:+ last.toList := by
    constructor
    · rintro ⟨front, last, hsplit, hending⟩
      cases front with
      | nil => exact absurd (List.cons_eq_cons.mp hsplit).2 hrest
      | cons first front => exact ⟨front, last, (List.cons_eq_cons.mp hsplit).2, hending⟩
    · rintro ⟨front, last, rfl, hending⟩
      exact ⟨name :: front, last, rfl, hending⟩
  have hfile : ∀ content, (Tree.directory entries).fileAt? (name :: rest) = some content ↔
      ∃ sub, (name, sub) ∈ entries ∧ sub.isDirectory = true ∧ sub.fileAt? rest = some content := by
    intro content
    simp only [← Tree.lookup_eq_some_iff h.names_nodup, Tree.fileAt?_eq_some_iff, Tree.kindAt?, Tree.get?_cons]
    obtain ⟨next, behind, rfl⟩ := List.exists_cons_of_ne_nil hrest
    cases entries.lookup name with
    | none => simp
    | some sub =>
      cases sub with
      | file content => simp [Tree.get?_file_cons]
      | directory inner => simp [Tree.isDirectory]
  constructor
  · rintro ⟨⟨content, hcontent⟩, hends, hentered⟩
    obtain ⟨sub, hmem, hdirectory, hinner⟩ := (hfile content).mp hcontent
    obtain ⟨hkept, hshort, hbelow⟩ := (entered_cons hrest).mp hentered
    exact ⟨sub, hmem, hdirectory, hkept, hshort, ⟨content, hinner⟩, hsource.mp hends, hbelow⟩
  · rintro ⟨sub, hmem, hdirectory, hkept, hshort, ⟨content, hinner⟩, hends, hbelow⟩
    exact ⟨⟨content, (hfile content).mpr ⟨sub, hmem, hdirectory, hinner⟩⟩, hsource.mpr hends,
      (entered_cons hrest).mpr ⟨hkept, hshort, hbelow⟩⟩

theorem mem_branches {places : List (List String)} : (name, places) ∈ branches size entries ↔
    ∃ sub, (name, sub) ∈ entries ∧ sub.isDirectory = true ∧ name ∉ skippedDirectories ∧
      size + name.utf8ByteSize < pathLimit ∧ places = below (size + name.utf8ByteSize + 1) sub := by
  induction entries with
  | nil => simp [branches]
  | cons entry entries ih =>
    obtain ⟨first, tree⟩ := entry
    rw [branches]
    -- an entry that is not entered makes no branch
    have henter : (tree.isDirectory && !skippedDirectories.contains first &&
        decide (size + first.utf8ByteSize < pathLimit)) = true ↔
          tree.isDirectory = true ∧ first ∉ skippedDirectories ∧ size + first.utf8ByteSize < pathLimit := by
      simp [and_assoc]
    split
    · rename_i h
      rw [henter] at h
      rw [List.mem_cons, ih]
      constructor
      · rintro (heq | ⟨sub, hmem, hsub⟩)
        · obtain ⟨rfl, rfl⟩ := Prod.mk.inj heq
          exact ⟨tree, List.mem_cons_self, h.1, h.2.1, h.2.2, rfl⟩
        · exact ⟨sub, List.mem_cons_of_mem _ hmem, hsub⟩
      · rintro ⟨sub, hmem, hsub⟩
        rcases List.mem_cons.mp hmem with heq | hmem
        · obtain ⟨rfl, rfl⟩ := Prod.mk.inj heq
          exact .inl (by rw [hsub.2.2.2])
        · exact .inr ⟨sub, hmem, hsub⟩
    · rename_i h
      rw [henter] at h
      rw [ih]
      constructor
      · rintro ⟨sub, hmem, hsub⟩
        exact ⟨sub, List.mem_cons_of_mem _ hmem, hsub⟩
      · rintro ⟨sub, hmem, hsub⟩
        rcases List.mem_cons.mp hmem with heq | hmem
        · obtain ⟨rfl, rfl⟩ := Prod.mk.inj heq
          exact absurd ⟨hsub.1, hsub.2.1, hsub.2.2.1⟩ h
        · exact ⟨sub, hmem, hsub⟩

theorem fst_branches_sublist (size : Nat) (entries : List (String × Tree)) :
    ((branches size entries).map Prod.fst).Sublist (entries.map Prod.fst) := by
  induction entries with
  | nil => simp [branches]
  | cons entry entries ih =>
    obtain ⟨name, tree⟩ := entry
    rw [branches]
    split
    · exact ih.cons_cons name
    · exact ih.cons name

theorem mem_below_directory {place : List String} : place ∈ below size (.directory entries) ↔
    (∃ name content, place = [name] ∧ isSource name = true ∧ (name, .file content) ∈ entries) ∨
      ∃ name sub rest, place = name :: rest ∧ (name, sub) ∈ entries ∧ sub.isDirectory = true ∧
        name ∉ skippedDirectories ∧ size + name.utf8ByteSize < pathLimit ∧
        rest ∈ below (size + name.utf8ByteSize + 1) sub := by
  rw [below_directory, List.mem_append, List.mem_filterMap, List.mem_flatMap]
  constructor
  · rintro (⟨⟨name, tree⟩, hmem, hplace⟩ | ⟨⟨name, places⟩, hmem, hplace⟩)
    · left
      split at hplace
      · rename_i hkeep
        rw [Bool.and_eq_true, Bool.not_eq_true'] at hkeep
        obtain rfl := Option.some.inj hplace
        cases tree with
        | file content => exact ⟨name, content, rfl, hkeep.2, mem_sortByName.mp hmem⟩
        | directory inner => simp [Tree.isDirectory] at hkeep
      · simp at hplace
    · right
      obtain ⟨sub, hsub, hdirectory, hkept, hshort, rfl⟩ := mem_branches.mp (mem_sortByName.mp hmem)
      obtain ⟨rest, hrest, rfl⟩ := List.mem_map.mp hplace
      exact ⟨name, sub, rest, rfl, hsub, hdirectory, hkept, hshort, hrest⟩
  · rintro (⟨name, content, rfl, hsource, hmem⟩ | ⟨name, sub, rest, rfl, hmem, hdirectory, hkept, hshort, hrest⟩)
    · exact .inl ⟨(name, .file content), mem_sortByName.mpr hmem, by simp [Tree.isDirectory, hsource]⟩
    · exact .inr ⟨(name, below (size + name.utf8ByteSize + 1) sub),
        mem_sortByName.mpr (mem_branches.mpr ⟨sub, hmem, hdirectory, hkept, hshort, rfl⟩), List.mem_map_of_mem hrest⟩

end

section

variable {tree : Tree}

theorem nil_not_mem_below (size : Nat) (tree : Tree) : [] ∉ below size tree := by
  cases tree with
  | file content => simp [below]
  | directory entries =>
    rw [mem_below_directory]
    simp

/-- The walk comes to the files that it is said to come to. -/
theorem mem_below (h : tree.Proper) (hdirectory : tree.isDirectory = true) (size : Nat) (place : List String) :
    place ∈ below size tree ↔ Reached size tree place := by
  induction tree using Tree.entryInduction generalizing size place with
  | file content => simp [Tree.isDirectory] at hdirectory
  | directory entries ih =>
    rw [mem_below_directory]
    -- a place of one name is a file of this directory, a longer one leads through one of its directories
    cases place with
    | nil =>
      constructor
      · rintro (⟨_, _, heq, -⟩ | ⟨_, _, _, heq, -⟩) <;> simp at heq
      · rintro ⟨-, ⟨front, name, hsplit, -⟩, -⟩
        simp at hsplit
    | cons name place =>
      cases place with
      | nil =>
        rw [reached_singleton h]
        constructor
        · rintro (⟨other, content, heq, hsource, hmem⟩ | ⟨other, sub, rest, heq, -, -, -, -, hrest⟩)
          · obtain ⟨rfl, -⟩ := List.cons_eq_cons.mp heq
            exact ⟨hsource, content, hmem⟩
          · obtain ⟨-, rfl⟩ := List.cons_eq_cons.mp heq
            exact absurd hrest (nil_not_mem_below _ sub)
        · rintro ⟨hsource, content, hmem⟩
          exact .inl ⟨name, content, rfl, hsource, hmem⟩
      | cons next rest =>
        rw [reached_cons h (List.cons_ne_nil next rest)]
        constructor
        · rintro (⟨other, content, heq, -⟩ | ⟨other, sub, behind, heq, hmem, hinner, hkept, hshort, hbehind⟩)
          · simp at heq
          · obtain ⟨rfl, rfl⟩ := List.cons_eq_cons.mp heq
            exact ⟨sub, hmem, hinner, hkept, hshort, (ih _ hmem (h.entry hmem) hinner _ _).mp hbehind⟩
        · rintro ⟨sub, hmem, hinner, hkept, hshort, hreached⟩
          exact .inr ⟨name, sub, next :: rest, rfl, hmem, hinner, hkept, hshort,
            (ih _ hmem (h.entry hmem) hinner _ _).mpr hreached⟩

/-! ## The order of the walk -/

/-- One file comes before another: of a directory that both lie below, the files come before those of its directories,
and files and directories each in the order of names. -/
inductive Precedes : List String → List String → Prop where
  | files (front : List String) {a b : String} (hlt : a.toList < b.toList) : Precedes (front ++ [a]) (front ++ [b])
  | directories (front : List String) {a b : String} {rest rest' : List String} (hlt : a.toList < b.toList)
      (hrest : rest ≠ []) (hrest' : rest' ≠ []) : Precedes (front ++ a :: rest) (front ++ b :: rest')
  | fileFirst (front : List String) (a b : String) {rest : List String} (hrest : rest ≠ []) :
      Precedes (front ++ [a]) (front ++ b :: rest)

theorem Precedes.cons {place place' : List String} (name : String) (h : Precedes place place') :
    Precedes (name :: place) (name :: place') := by
  cases h with
  | files front hlt => exact .files (name :: front) hlt
  | directories front hlt hrest hrest' => exact .directories (name :: front) hlt hrest hrest'
  | fileFirst front a b hrest => exact .fileFirst (name :: front) a b hrest

theorem Precedes.ne {place place' : List String} (h : Precedes place place') : place ≠ place' := by
  cases h with
  | files front hlt =>
    intro heq
    rw [(List.cons_eq_cons.mp (List.append_cancel_left heq)).1] at hlt
    exact List.lt_irrefl _ hlt
  | directories front hlt _ _ =>
    intro heq
    rw [(List.cons_eq_cons.mp (List.append_cancel_left heq)).1] at hlt
    exact List.lt_irrefl _ hlt
  | fileFirst front a b hrest =>
    intro heq
    exact hrest (List.cons_eq_cons.mp (List.append_cancel_left heq)).2.symm

theorem pairwise_below (h : tree.Proper) (size : Nat) : (below size tree).Pairwise Precedes := by
  induction tree using Tree.entryInduction generalizing size with
  | file content => simp [below]
  | directory entries ih =>
    -- files among themselves, directories among themselves and within one directory, and files before directories
    have hbranches : ((branches size entries).map Prod.fst).Nodup :=
      h.names_nodup.sublist (fst_branches_sublist size entries)
    rw [below_directory, List.pairwise_append, List.pairwise_flatMap]
    refine ⟨?_, ⟨?_, ?_⟩, ?_⟩
    · refine (pairwise_sortByName h.names_nodup).filterMap _ ?_
      intro a b hlt place hplace place' hplace'
      split at hplace
      · split at hplace'
        · rw [← Option.some.inj hplace, ← Option.some.inj hplace']
          exact .files [] hlt
        · simp at hplace'
      · simp at hplace
    · rintro ⟨name, places⟩ hmem
      obtain ⟨sub, hsub, -, -, -, rfl⟩ := mem_branches.mp (mem_sortByName.mp hmem)
      exact List.pairwise_map.mpr ((ih _ hsub (h.entry hsub) _).imp (Precedes.cons name))
    · refine (pairwise_sortByName hbranches).imp_of_mem ?_
      rintro ⟨name, places⟩ ⟨name', places'⟩ hmem hmem' hlt place hplace place' hplace'
      obtain ⟨sub, -, -, -, -, rfl⟩ := mem_branches.mp (mem_sortByName.mp hmem)
      obtain ⟨sub', -, -, -, -, rfl⟩ := mem_branches.mp (mem_sortByName.mp hmem')
      obtain ⟨rest, hrest, rfl⟩ := List.mem_map.mp hplace
      obtain ⟨rest', hrest', rfl⟩ := List.mem_map.mp hplace'
      exact .directories [] hlt (fun heq => nil_not_mem_below _ sub (heq ▸ hrest))
        (fun heq => nil_not_mem_below _ sub' (heq ▸ hrest'))
    · intro place hplace place' hplace'
      obtain ⟨⟨name, content⟩, -, hplace⟩ := List.mem_filterMap.mp hplace
      obtain ⟨⟨name', places⟩, hmem, hplace'⟩ := List.mem_flatMap.mp hplace'
      obtain ⟨sub, -, -, -, -, rfl⟩ := mem_branches.mp (mem_sortByName.mp hmem)
      obtain ⟨rest, hrest, rfl⟩ := List.mem_map.mp hplace'
      split at hplace
      · rw [← Option.some.inj hplace]
        exact .fileFirst [] name name' fun heq => nil_not_mem_below _ sub (heq ▸ hrest)
      · simp at hplace

end

end SourceFiles

/-! ## Spelled paths -/

theorem Tree.Proper.plain {tree found : Tree} (h : tree.Proper) {place : List String}
    (hget : tree.get? place = some found) : ∀ name ∈ place, PlainName name := by
  induction place generalizing tree with
  | nil => simp
  | cons name place ih =>
    cases tree with
    | file content => simp [Tree.get?_file_cons] at hget
    | directory entries =>
      rw [Tree.get?_cons] at hget
      obtain ⟨sub, hlookup, hsub⟩ := Option.bind_eq_some_iff.mp hget
      have hmem := (Tree.lookup_eq_some_iff h.names_nodup).mp hlookup
      exact List.forall_mem_cons.mpr ⟨(h [] entries Tree.get?_nil).2 _ hmem, ih (h.entry hmem) hsub⟩

namespace Path

theorem no_slash_parts (path : String) : ∀ part ∈ (ofString path).parts, '/' ∉ part.toList := by
  intro part hpart
  obtain ⟨piece, hpiece, rfl⟩ := List.mem_map.mp (List.mem_filter.mp hpart).1
  rw [String.toList_ofList]
  exact fun hslash => (Text.of_mem_splitOn hpiece _ hslash).1 rfl

/-- The spelling of a place below a path. -/
def spell (start : Path) (place : List String) : String :=
  (place.foldl child start).render

theorem spell_eq (start : Path) {place : List String} (hne : place ≠ []) :
    spell start place = start.anchor ++ "/".intercalate (start.parts ++ place) := by
  have hfold : ∀ (place : List String) (start : Path),
      place.foldl child start = ⟨start.anchor, start.parts ++ place⟩ := by
    intro place
    induction place with
    | nil => simp
    | cons name place ih => simp [ih, child]
  rw [spell, hfold, render, if_neg (by simp [hne])]

/-- Different places below a path have different spellings. -/
theorem spell_inj {start : Path} (hstart : ∀ part ∈ start.parts, '/' ∉ part.toList) {place place' : List String}
    (hne : place ≠ []) (hne' : place' ≠ []) (hplace : ∀ name ∈ place, PlainName name)
    (hplace' : ∀ name ∈ place', PlainName name) (h : spell start place = spell start place') : place = place' := by
  have hnames : ∀ place : List String, place ≠ [] → (∀ name ∈ place, PlainName name) →
      names ("/".intercalate (start.parts ++ place)) = start.parts ++ place := by
    intro place hne hplace
    apply names_intercalate (by simp [hne])
    intro name hname
    rcases List.mem_append.mp hname with hname | hname
    · exact hstart name hname
    · exact (hplace name hname).no_slash
  rw [spell_eq start hne, spell_eq start hne', ← String.toList_inj, String.toList_append, String.toList_append] at h
  have hjoined := String.toList_inj.mp (List.append_cancel_left h)
  have hparts := congrArg names hjoined
  rw [hnames place hne hplace, hnames place' hne' hplace'] at hparts
  exact List.append_cancel_left hparts

end Path

/-! ## Paths and what they stand for -/

namespace SourceFiles

/-- A path is refused because it or one of its names is too long. -/
def TooLong (fs : FileSystem) (path : String) : Prop :=
  fs.locate (Path.normalize path) = .error .nameTooLong

/-- The files that a path stands for. -/
inductive Expands (fs : FileSystem) (path : String) : List String → Prop where
  /-- What is no directory stands for itself. -/
  | itself (hnot : ∀ entries, fs.get? (Path.normalize path) ≠ some (.directory entries)) :
      Expands fs path [Path.normalize path]
  /-- A directory stands for the source files below it, each of them once and in the order of the walk. -/
  | walked {entries : List (String × Tree)} {places : List (List String)}
      (hdirectory : fs.get? (Path.normalize path) = some (.directory entries))
      (hplaces : ∀ place, place ∈ places ↔ Reached (Path.ofString path).sizeBelow (.directory entries) place)
      (horder : places.Pairwise Precedes) (hnodup : (places.map (Path.spell (Path.ofString path))).Nodup) :
      Expands fs path (places.map (Path.spell (Path.ofString path)))

section

variable {fs : FileSystem}

theorem lookUp_cases (fs : FileSystem) (path : String) :
    (fs.locate path = .error .nameTooLong ∧ fs.lookUp path = .error .nameTooLong) ∨
      (fs.locate path ≠ .error .nameTooLong ∧ fs.lookUp path = .ok (fs.get? path)) := by
  unfold FileSystem.lookUp FileSystem.get?
  cases fs.locate path with
  | ok place => exact .inr ⟨by simp, rfl⟩
  | error refusal => cases refusal <;> simp

theorem expands_directory (hproper : fs.root.Proper) {path : String} {entries : List (String × Tree)}
    (hdirectory : fs.get? (Path.normalize path) = some (.directory entries)) :
    Expands fs path ((below (Path.ofString path).sizeBelow (.directory entries)).map
      (Path.spell (Path.ofString path))) := by
  obtain ⟨start, hstart⟩ : ∃ start, fs.root.get? start = some (.directory entries) := by
    unfold FileSystem.get? at hdirectory
    split at hdirectory
    · exact ⟨_, hdirectory⟩
    · simp at hdirectory
  have hentries := hproper.get? hstart
  have hreached := mem_below hentries rfl (Path.ofString path).sizeBelow
  have horder := pairwise_below hentries (Path.ofString path).sizeBelow
  have hplain : ∀ place ∈ below (Path.ofString path).sizeBelow (.directory entries),
      ∀ name ∈ place, PlainName name := by
    intro place hplace
    obtain ⟨content, hcontent⟩ := ((hreached place).mp hplace).file
    obtain ⟨found, hfound, -⟩ := Option.map_eq_some_iff.mp (Tree.fileAt?_eq_some_iff.mp hcontent)
    exact hentries.plain hfound
  refine .walked hdirectory hreached horder (List.pairwise_map.mpr (horder.imp_of_mem ?_))
  intro place place' hplace hplace' hprecedes heq
  refine hprecedes.ne
    (Path.spell_inj (Path.no_slash_parts path) ?_ ?_ (hplain place hplace) (hplain place' hplace') heq)
  · rintro rfl
    exact nil_not_mem_below _ _ hplace
  · rintro rfl
    exact nil_not_mem_below _ _ hplace'

/-- A path is refused, or it stands for files. -/
theorem ofPath_cases (hproper : fs.root.Proper) (path : String) :
    (TooLong fs path ∧ runOn (ofPath path) fs = (.error (.refused .nameTooLong (Path.normalize path)), fs)) ∨
      (¬TooLong fs path ∧ ∃ files, Expands fs path files ∧ runOn (ofPath path) fs = (.ok files, fs)) := by
  unfold ofPath
  dsimp only
  rw [← Path.normalize, runOn_bind, runOn_lookUp]
  rcases lookUp_cases fs (Path.normalize path) with ⟨hlong, hlookUp⟩ | ⟨hshort, hlookUp⟩
  · rw [hlookUp]
    exact .inl ⟨hlong, rfl⟩
  · rw [hlookUp]
    refine .inr ⟨hshort, ?_⟩
    cases hget : fs.get? (Path.normalize path) with
    | none => exact ⟨_, .itself (by simp [hget]), rfl⟩
    | some tree =>
      cases tree with
      | file content => exact ⟨_, .itself (by simp [hget]), rfl⟩
      | directory entries => exact ⟨_, expands_directory hproper hget, rfl⟩

theorem mapM_ofPath_cases (hproper : fs.root.Proper) (paths : List String) :
    (∃ earlier path later, paths = earlier ++ path :: later ∧ (∀ other ∈ earlier, ¬TooLong fs other) ∧
      TooLong fs path ∧
      runOn (paths.mapM ofPath) fs = (.error (.refused .nameTooLong (Path.normalize path)), fs)) ∨
    (∀ path ∈ paths, ¬TooLong fs path) ∧
      ∃ lists, List.Forall₂ (Expands fs) paths lists ∧ runOn (paths.mapM ofPath) fs = (.ok lists, fs) := by
  induction paths with
  | nil => exact .inr ⟨by simp, [], .nil, by simp [runOn_pure]⟩
  | cons path paths ih =>
    rw [List.mapM_cons, runOn_bind]
    rcases ofPath_cases hproper path with ⟨hlong, hrun⟩ | ⟨hshort, files, hfiles, hrun⟩
    · exact .inl ⟨[], path, paths, rfl, by simp, hlong, by rw [hrun]⟩
    · rw [hrun]
      dsimp only
      rw [runOn_bind]
      rcases ih with ⟨earlier, other, later, rfl, hearlier, hlong, hrest⟩ | ⟨hshorts, lists, hlists, hrest⟩
      · rw [hrest]
        exact .inl ⟨path :: earlier, other, later, rfl, List.forall_mem_cons.mpr ⟨hshort, hearlier⟩, hlong, rfl⟩
      · rw [hrest]
        exact .inr ⟨List.forall_mem_cons.mpr ⟨hshort, hshorts⟩, files :: lists, .cons hfiles hlists, rfl⟩

end

/-- The files that paths stand for, path by path, unless a path is refused: the first such path ends the walk. -/
theorem ofPaths_walk {fs : FileSystem} (hproper : fs.root.Proper) (paths : List String) :
    (∃ earlier path later, paths = earlier ++ path :: later ∧ (∀ other ∈ earlier, ¬TooLong fs other) ∧
      TooLong fs path ∧ runOn (ofPaths paths) fs = (.error (.refused .nameTooLong (Path.normalize path)), fs)) ∨
    (∀ path ∈ paths, ¬TooLong fs path) ∧
      ∃ lists, List.Forall₂ (Expands fs) paths lists ∧ runOn (ofPaths paths) fs = (.ok lists.flatten, fs) := by
  rw [ofPaths, runOn_bind]
  rcases mapM_ofPath_cases hproper paths with
    ⟨earlier, path, later, rfl, hearlier, hlong, hrun⟩ | ⟨hshort, lists, hlists, hrun⟩
  · rw [hrun]
    exact .inl ⟨earlier, path, later, rfl, hearlier, hlong, rfl⟩
  · rw [hrun]
    exact .inr ⟨hshort, lists, hlists, rfl⟩

/-- Source files in directories of which one is skipped. -/
def branchedTree : FileSystem where
  root := .directory [
    ("x.txt", .file ByteArray.empty),
    ("d", .directory [
      ("node_modules", .directory [("m.ts", .file ByteArray.empty)]),
      ("sub", .directory [("z.ts", .file ByteArray.empty)]),
      ("a.ts", .file ByteArray.empty)])]
  current := []

theorem ofPaths_walk_branchedTree : ∃ files, runOn (ofPaths ["d", "x.txt"]) branchedTree =
    (.ok (files ++ ["x.txt"]), branchedTree) ∧ Expands branchedTree "d" files ∧ "d/sub/z.ts" ∈ files := by
  have hproper : branchedTree.root.Proper := by
    simp only [branchedTree, Tree.proper_directory_iff, Tree.proper_file, List.forall_mem_cons, List.not_mem_nil,
      false_imp_iff, implies_true, and_true]
    decide
  have hlocated : ∀ path ∈ ["d", "x.txt"],
      (branchedTree.locate (Path.normalize path)).toOption.isSome = true := by decide +kernel
  have hnormal : ∀ path ∈ ["d", "x.txt"], Path.normalize path = path := by decide +kernel
  simp only [List.forall_mem_cons, List.not_mem_nil, false_imp_iff, implies_true, and_true] at hnormal
  have hd : branchedTree.get? (Path.normalize "d") = some (.directory [
      ("node_modules", .directory [("m.ts", .file ByteArray.empty)]),
      ("sub", .directory [("z.ts", .file ByteArray.empty)]),
      ("a.ts", .file ByteArray.empty)]) := by
    rw [hnormal.1]
    rfl
  have hitself : ∀ {path files}, ((branchedTree.get? (Path.normalize path)).map Tree.isDirectory).getD false = false →
      Expands branchedTree path files → files = [Path.normalize path] := by
    rintro path files hnot (_ | ⟨hdirectory⟩)
    · rfl
    · simp [hdirectory, Tree.isDirectory] at hnot
  rcases ofPaths_walk hproper ["d", "x.txt"] with
    ⟨earlier, path, later, hpaths, -, hlong, -⟩ | ⟨-, lists, hlists, hrun⟩
  · have hfound := hlocated path (hpaths ▸ List.mem_append_right earlier List.mem_cons_self)
    rw [hlong] at hfound
    simp [Except.toOption] at hfound
  · obtain ⟨files, rest, hfiles, hrest, rfl⟩ := List.forall₂_cons_left_iff.mp hlists
    obtain ⟨file, none, hfile, hnone, rfl⟩ := List.forall₂_cons_left_iff.mp hrest
    obtain rfl := List.forall₂_nil_left_iff.mp hnone
    rw [hitself (by decide +kernel) hfile, hnormal.2] at hrun
    refine ⟨files, hrun, hfiles, ?_⟩
    cases hfiles with
    | itself hnot => exact absurd hd (hnot _)
    | walked hdirectory hplaces _ _ =>
      rw [hd] at hdirectory
      obtain rfl := Tree.directory.inj (Option.some.inj hdirectory)
      have hreached := (hplaces ["sub", "z.ts"]).mpr ⟨⟨ByteArray.empty, rfl⟩, ⟨["sub"], "z.ts", rfl, by decide⟩,
        (entered_cons (by simp)).mpr ⟨by decide, by decide, entered_singleton⟩⟩
      have hspelled : Path.spell (Path.ofString "d") ["sub", "z.ts"] = "d/sub/z.ts" := by decide +kernel
      exact hspelled ▸ List.mem_map_of_mem hreached

end SourceFiles

end ImportOrder
