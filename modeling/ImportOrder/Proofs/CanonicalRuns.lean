import ImportOrder.Proofs.FixedPoint

/-!
# Runs of imports are canonical

Only neighbours are compared, and yet a list of statements without a violation has all its imports in order: within
a maximal run of imports any two stand in the order of their groups, and in the order of their keys where they share a
group. The converse holds too, as long as imports that follow each other stand on different lines.
-/

namespace ImportOrder

namespace Statement

/-- The module path of an import. -/
def modulePath (s : Statement) : Text :=
  s.path.getD []

/-- The group of an import. -/
def group (config : Configuration) (s : Statement) : Group :=
  config.classify s.modulePath

/-- What an import is ordered by within its group. -/
def sortKey (config : Configuration) (s : Statement) : List Text :=
  config.sortKey (s.group config) s.modulePath

/-- The lines from the end of one statement to the start of another. -/
def linesTo (s s' : Statement) : Int :=
  s'.line - s.endLine

end Statement

namespace Violation

/-- One import may stand anywhere above another: it belongs to no later group, and in the same group its key is
not greater. -/
def InOrder (config : Configuration) (s s' : Statement) : Prop :=
  (s.group config).precedence ≤ (s'.group config).precedence ∧
    (s.group config = s'.group config → lexLe Text.le (s.sortKey config) (s'.sortKey config) = true)

/-- One import stands on the line behind another exactly when they share a group. -/
def Spaced (config : Configuration) (s s' : Statement) : Prop :=
  s.linesTo s' = 1 ↔ s.group config = s'.group config

/-- Imports in canonical form: any two are in order, and neighbours are spaced by their groups. -/
structure Canonical (config : Configuration) (run : List Statement) : Prop where
  ordered : run.Pairwise (InOrder config)
  spaced : run.IsChain (Spaced config)

/-- A maximal run of imports, with the statements before and behind it: no import is next to it. -/
structure MaximalRun (statements front run back : List Statement) : Prop where
  eq_append : statements = front ++ (run ++ back)
  imports : ∀ s ∈ run, s.isImport = true
  before : ∀ s ∈ front.getLast?, s.isImport = false
  behind : ∀ s ∈ back.head?, s.isImport = false

/-- No two imports that follow each other share a line. -/
def OnOwnLines (statements : List Statement) : Prop :=
  statements.IsChain fun s s' => s.isImport = true → s'.isImport = true → 1 ≤ s.linesTo s'

section

variable {config : Configuration} {s t u : Statement} {statements run : List Statement}

/-! ## Two imports -/

theorem precedence_injective {g g' : Group} (h : g.precedence = g'.precedence) : g = g' := by
  cases g <;> cases g' <;> simp_all [Group.precedence]

theorem InOrder.trans (hst : InOrder config s t) (htu : InOrder config t u) : InOrder config s u := by
  unfold InOrder at *
  refine ⟨by omega, fun hgroup => ?_⟩
  -- a group between two equal ones is the same group
  have hmiddle : s.group config = t.group config := by
    apply precedence_injective
    rw [hgroup] at hst ⊢
    omega
  have hle := hst.2 hmiddle
  have hle' := htu.2 (hmiddle.symm.trans hgroup)
  exact lexLe_trans Text.le_trans Text.le_antisymm hle hle'

instance : Trans (InOrder config) (InOrder config) (InOrder config) := ⟨InOrder.trans⟩

/-- Two neighbouring imports on different lines break no rule exactly when they are in order and spaced. -/
theorem obeys_iff (hs : s.isImport = true) (ht : t.isImport = true) (hlines : 1 ≤ s.linesTo t) :
    Obeys config s t ↔ InOrder config s t ∧ Spaced config s t := by
  obtain ⟨path, hpath⟩ := Option.isSome_iff_exists.mp hs
  obtain ⟨path', hpath'⟩ := Option.isSome_iff_exists.mp ht
  have hgroup : s.group config = config.classify path := by
    rw [Statement.group, Statement.modulePath, hpath, Option.getD_some]
  have hgroup' : t.group config = config.classify path' := by
    rw [Statement.group, Statement.modulePath, hpath', Option.getD_some]
  have hkey : s.sortKey config = config.sortKey (s.group config) path := by
    rw [Statement.sortKey, Statement.modulePath, hpath, Option.getD_some]
  have hkey' : t.sortKey config = config.sortKey (t.group config) path' := by
    rw [Statement.sortKey, Statement.modulePath, hpath', Option.getD_some]
  have hrule : Obeys config s t ↔ rule? config (s.linesTo t) path path' = none := by
    simp [Obeys, hpath, hpath', Statement.linesTo]
  rw [hrule, rule?, InOrder, Spaced, hkey, hkey', hgroup, hgroup']
  unfold Configuration.isSorted
  by_cases hone : s.linesTo t = 1
  · -- on the next line: the same group, sorted
    by_cases heq : config.classify path' = config.classify path
    · simp [hone, heq]
    · simp [hone, heq, Ne.symm heq]
  · -- behind an empty line: another group, a later one
    have hmore : 1 < s.linesTo t := by omega
    by_cases heq : config.classify path' = config.classify path
    · simp [hone, hmore, heq]
    · simp [hone, hmore, heq, Ne.symm heq]

/-! ## Runs -/

/-- In a run of imports neighbours break no rule exactly when the run is canonical. -/
theorem isChain_obeys_iff (himports : ∀ s ∈ run, s.isImport = true) (hlines : OnOwnLines run) :
    run.IsChain (Obeys config) ↔ Canonical config run := by
  unfold OnOwnLines at hlines
  rw [List.isChain_iff_forall_rel_of_append_cons_cons] at hlines
  have hpair : ∀ {s t : Statement} {front back : List Statement}, run = front ++ s :: t :: back →
      (Obeys config s t ↔ InOrder config s t ∧ Spaced config s t) := by
    intro s t front back hrun
    have hs := himports s (by simp [hrun])
    have ht := himports t (by simp [hrun])
    exact obeys_iff hs ht (hlines hrun hs ht)
  constructor
  · intro hobeys
    rw [List.isChain_iff_forall_rel_of_append_cons_cons] at hobeys
    -- neighbours in order are enough, as the order is transitive
    have hordered : run.IsChain (InOrder config) :=
      List.isChain_iff_forall_rel_of_append_cons_cons.mpr
        fun s t front back hrun => ((hpair hrun).mp (hobeys hrun)).1
    have hspaced : run.IsChain (Spaced config) :=
      List.isChain_iff_forall_rel_of_append_cons_cons.mpr
        fun s t front back hrun => ((hpair hrun).mp (hobeys hrun)).2
    exact ⟨hordered.pairwise, hspaced⟩
  · intro hcanonical
    have hordered := List.isChain_iff_forall_rel_of_append_cons_cons.mp hcanonical.ordered.isChain
    have hspaced := List.isChain_iff_forall_rel_of_append_cons_cons.mp hcanonical.spaced
    rw [List.isChain_iff_forall_rel_of_append_cons_cons]
    intro s t front back hrun
    exact (hpair hrun).mpr ⟨hordered hrun, hspaced hrun⟩

theorem MaximalRun.isChain {R : Statement → Statement → Prop} {front back : List Statement}
    (h : MaximalRun statements front run back) (hchain : statements.IsChain R) : run.IsChain R := by
  rw [h.eq_append, List.isChain_append, List.isChain_append] at hchain
  exact hchain.2.1.1

/-- The imports at the front of a list, and what follows them. -/
theorem split_front (statements : List Statement) :
    ∃ run back, statements = run ++ back ∧ (∀ s ∈ run, s.isImport = true) ∧
      ∀ s ∈ back.head?, s.isImport = false := by
  refine ⟨statements.takeWhile (·.isImport), statements.dropWhile (·.isImport), ?_, ?_, ?_⟩
  · exact List.takeWhile_append_dropWhile.symm
  · intro s hs
    exact List.all_eq_true.mp List.all_takeWhile s hs
  · intro s hs
    have hnot := List.head?_dropWhile_not (·.isImport) statements
    rw [hs] at hnot
    simpa using hnot

/-- The imports at the end of a list, and what stands before them. -/
theorem split_back (statements : List Statement) :
    ∃ front run, statements = front ++ run ∧ (∀ s ∈ run, s.isImport = true) ∧
      ∀ s ∈ front.getLast?, s.isImport = false := by
  obtain ⟨run, front, hsplit, himports, hhead⟩ := split_front statements.reverse
  refine ⟨front.reverse, run.reverse, ?_, ?_, ?_⟩
  · rw [← List.reverse_append, ← hsplit, List.reverse_reverse]
  · intro s hs
    exact himports s (List.mem_reverse.mp hs)
  · intro s hs
    rw [List.getLast?_reverse] at hs
    exact hhead s hs

/-- Two neighbouring imports belong to one maximal run. -/
theorem exists_maximalRun {front back : List Statement} (hstatements : statements = front ++ s :: t :: back)
    (hs : s.isImport = true) (ht : t.isImport = true) :
    ∃ front' pre post back', MaximalRun statements front' (pre ++ s :: t :: post) back' := by
  obtain ⟨front', pre, hfront, hpre, hlast⟩ := split_back front
  obtain ⟨post, back', hback, hpost, hhead⟩ := split_front back
  refine ⟨front', pre, post, back', ?_, ?_, hlast, hhead⟩
  · simp [hstatements, hfront, hback]
  · intro u hu
    simp only [List.mem_append, List.mem_cons] at hu
    rcases hu with hu | rfl | rfl | hu
    · exact hpre u hu
    · exact hs
    · exact ht
    · exact hpost u hu

/-- Neighbours break no rule in a list exactly when they break none in its maximal runs. -/
theorem isChain_obeys_iff_runs : statements.IsChain (Obeys config) ↔
    ∀ front run back, MaximalRun statements front run back → run.IsChain (Obeys config) := by
  constructor
  · intro hobeys front run back hrun
    exact hrun.isChain hobeys
  · intro hruns
    rw [List.isChain_iff_forall_rel_of_append_cons_cons]
    intro s t front back hstatements
    by_cases himports : s.isImport = true ∧ t.isImport = true
    · obtain ⟨front', pre, post, back', hrun⟩ := exists_maximalRun hstatements himports.1 himports.2
      have hchain := hruns _ _ _ hrun
      rw [List.isChain_iff_forall_rel_of_append_cons_cons] at hchain
      exact hchain rfl
    · -- other code is compared with nothing
      intro path hpath path' hpath'
      exact absurd ⟨Option.isSome_of_mem hpath, Option.isSome_of_mem hpath'⟩ himports

end

/-- Where imports that follow each other stand on different lines, there are no violations exactly when every
maximal run of imports is canonical. -/
theorem analyze_eq_nil_iff_canonical (config : Configuration) (fix : Option Edit) {statements : List Statement}
    (hlines : OnOwnLines statements) :
    analyze config fix statements = [] ↔
      ∀ front run back, MaximalRun statements front run back → Canonical config run := by
  rw [analyze_eq_nil_iff, isChain_obeys_iff_runs]
  have hrun : ∀ front run back, MaximalRun statements front run back →
      (run.IsChain (Obeys config) ↔ Canonical config run) := by
    intro front run back h
    exact isChain_obeys_iff h.imports (h.isChain hlines)
  constructor
  · intro hobeys front run back h
    exact (hrun front run back h).mp (hobeys front run back h)
  · intro hcanonical front run back h
    exact (hrun front run back h).mpr (hcanonical front run back h)

/-- An import on the given line. -/
def importAt (line : Int) (path : String) : Statement :=
  ⟨0, 0, line, line, [], some path.toList⟩

/-- Two runs with other code between them; the second one begins with an earlier group than the first one ends with. -/
def twoRuns : List Statement :=
  [importAt 0 "b/z", importAt 1 "c/a", importAt 3 "~/x", importAt 5 "./b", ⟨0, 0, 6, 6, [], none⟩,
    importAt 7 "a", importAt 9 "../p", importAt 10 "../q"]

theorem analyze_eq_nil_iff_canonical_twoRuns :
    OnOwnLines twoRuns ∧ ∀ front run back, MaximalRun twoRuns front run back →
      Canonical ⟨["~/".toList], false⟩ run := by
  have hlines : OnOwnLines twoRuns := by
    unfold OnOwnLines
    decide +kernel
  refine ⟨hlines, (analyze_eq_nil_iff_canonical ⟨["~/".toList], false⟩ none hlines).mp ?_⟩
  decide +kernel

end Violation

end ImportOrder
