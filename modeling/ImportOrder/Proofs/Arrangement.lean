import ImportOrder.Proofs.CanonicalRuns
import Mathlib.Data.List.SplitBy

/-!
# The order of the canonical form

The imports are shared out among the groups, and each group is sorted by its own key. The outcome is that of one
stable sort of all imports, by the place of the group first and by the key in the group second; its runs of one
group are the blocks of the canonical form. Other statements follow in the order of the source.
-/

namespace ImportOrder

/-! ## Stable sorting -/

section

variable {α β : Type}

/-- A list falls in one way only into a part where a condition holds and a part where it does not. -/
theorem eq_of_append_eq_append {p : α → Bool} {a b c d : List α} (h : a ++ b = c ++ d)
    (ha : ∀ x ∈ a, p x = true) (hb : ∀ x ∈ b, p x = false) (hc : ∀ x ∈ c, p x = true)
    (hd : ∀ x ∈ d, p x = false) : a = c := by
  have htake : ∀ {s t : List α}, (∀ x ∈ s, p x = true) → (∀ x ∈ t, p x = false) →
      (s ++ t).takeWhile p = s := by
    intro s t hs ht
    rw [List.takeWhile_append_of_pos hs]
    cases t with
    | nil => simp
    | cons x t => rw [List.takeWhile_cons_of_neg (by simp [ht x]), List.append_nil]
  rw [← htake ha hb, h, htake hc hd]

variable {le : α → α → Bool}

theorem mergeSort_congr {le' : α → α → Bool} {l : List α} (h : ∀ a ∈ l, ∀ b ∈ l, le a b = le' a b) :
    l.mergeSort le = l.mergeSort le' := by
  have hmap := List.map_mergeSort (f := id) (s := le') h
  rwa [List.map_id, List.map_id] at hmap

/-- What a stable sort puts behind a member that it inserts may stand behind it. -/
theorem le_of_mergeSort_eq (trans : ∀ a b c, le a b = true → le b c = true → le a c = true)
    (total : ∀ a b, (le a b || le b a) = true) {a : α} {l front back : List α}
    (h : (a :: l).mergeSort le = front ++ a :: back) : ∀ b ∈ back, le a b = true := by
  have hsorted := List.pairwise_mergeSort trans total (a :: l)
  rw [h, List.pairwise_append] at hsorted
  exact (List.pairwise_cons.mp hsorted.2.1).1

/-- Members can be picked out before or after a stable sort. -/
theorem filter_mergeSort (trans : ∀ a b c, le a b = true → le b c = true → le a c = true)
    (total : ∀ a b, (le a b || le b a) = true) (p : α → Bool) (l : List α) :
    (l.mergeSort le).filter p = (l.filter p).mergeSort le := by
  induction l with
  | nil => simp
  | cons a l ih =>
    obtain ⟨front, back, hsort, hrest, hfront⟩ := List.mergeSort_cons trans total a l
    have hback := le_of_mergeSort_eq trans total hsort
    rw [hrest, List.filter_append] at ih
    rw [hsort, List.filter_append]
    by_cases ha : p a = true
    · rw [List.filter_cons_of_pos ha, List.filter_cons_of_pos ha]
      obtain ⟨front', back', hsort', hrest', hfront'⟩ := List.mergeSort_cons trans total a (l.filter p)
      have hback' := le_of_mergeSort_eq trans total hsort'
      rw [hrest'] at ih
      -- both sorts put the new member at the same place
      have heq : front.filter p = front' := by
        refine eq_of_append_eq_append (p := fun b => !le a b) ih ?_ ?_ hfront' ?_
        · exact fun b hb => hfront b (List.mem_filter.mp hb).1
        · exact fun b hb => by simp [hback b (List.mem_filter.mp hb).1]
        · exact fun b hb => by simp [hback' b hb]
      rw [heq, List.append_cancel_left_eq] at ih
      rw [hsort', heq, ih]
    · rw [List.filter_cons_of_neg ha, List.filter_cons_of_neg ha]
      exact ih

/-- A list that is sorted by the rank of a key holds the members of each key one after another. -/
theorem flatMap_filter_of_sorted [DecidableEq β] {key : α → β} {rank : β → Nat} {keys : List β}
    (hkeys : keys.Pairwise (rank · < rank ·)) {l : List α}
    (hl : l.Pairwise fun a b => rank (key a) ≤ rank (key b)) (hmem : ∀ a ∈ l, key a ∈ keys) :
    (keys.flatMap fun k => l.filter (key · == k)) = l := by
  induction l with
  | nil => simp
  | cons a l ih =>
    obtain ⟨hle, hrest⟩ := List.pairwise_cons.mp hl
    have ih := ih hrest fun b hb => hmem b (List.mem_cons_of_mem a hb)
    obtain ⟨before, behind, rfl⟩ := List.append_of_mem (hmem a List.mem_cons_self)
    rw [List.pairwise_append, List.pairwise_cons] at hkeys
    obtain ⟨-, ⟨hbehind, -⟩, hbefore⟩ := hkeys
    -- no member has a key before that of the first one
    have hnone : ∀ k ∈ before, l.filter (key · == k) = [] := by
      intro k hk
      have hlt := hbefore k hk (key a) List.mem_cons_self
      rw [List.filter_eq_nil_iff]
      intro b hb hkey
      have hrank := hle b hb
      rw [beq_iff_eq.mp hkey] at hrank
      omega
    have hother : ∀ k, k ≠ key a → (a :: l).filter (key · == k) = l.filter (key · == k) := by
      intro k hk
      rw [List.filter_cons_of_neg (by simpa using hk.symm)]
    have hfront : (before.flatMap fun k => (a :: l).filter (key · == k)) = [] := by
      rw [List.flatMap_eq_nil_iff]
      intro k hk
      have hlt := hbefore k hk (key a) List.mem_cons_self
      rw [hother k (by rintro rfl; omega), hnone k hk]
    have hback : (behind.flatMap fun k => (a :: l).filter (key · == k)) =
        behind.flatMap fun k => l.filter (key · == k) := by
      rw [List.flatMap_def, List.flatMap_def]
      congr 1
      apply List.map_congr_left
      intro k hk
      have hlt := hbehind k hk
      exact hother k (by rintro rfl; omega)
    rw [List.flatMap_append, List.flatMap_eq_nil_iff.mpr hnone, List.nil_append, List.flatMap_cons] at ih
    rw [List.flatMap_append, hfront, List.nil_append, List.flatMap_cons, hback,
      List.filter_cons_of_pos (by simp), List.cons_append, ih]

end

/-! ## One sort of all imports -/

namespace Violation

/-- Whether one import may stand before another in one sorted list of all imports: the place of the group decides,
and the key decides between two of the same group. -/
def comesBefore (config : Configuration) (s t : Statement) : Bool :=
  decide ((s.group config).precedence < (t.group config).precedence) ||
    ((s.group config).precedence == (t.group config).precedence &&
      lexLe Text.le (s.sortKey config) (t.sortKey config))

variable {config : Configuration} {s t u : Statement}

theorem comesBefore_iff : comesBefore config s t = true ↔ InOrder config s t := by
  unfold comesBefore InOrder
  rw [Bool.or_eq_true, Bool.and_eq_true, decide_eq_true_iff, beq_iff_eq]
  constructor
  · rintro (hlt | ⟨heq, hle⟩)
    · exact ⟨by omega, fun hgroup => by rw [hgroup] at hlt; omega⟩
    · exact ⟨by omega, fun _ => hle⟩
  · rintro ⟨hle, hkey⟩
    rcases Nat.lt_or_eq_of_le hle with hlt | heq
    · exact .inl hlt
    · exact .inr ⟨heq, hkey (precedence_injective heq)⟩

theorem comesBefore_trans (s t u : Statement) (hst : comesBefore config s t = true)
    (htu : comesBefore config t u = true) : comesBefore config s u = true :=
  comesBefore_iff.mpr ((comesBefore_iff.mp hst).trans (comesBefore_iff.mp htu))

theorem comesBefore_total (s t : Statement) : (comesBefore config s t || comesBefore config t s) = true := by
  rw [Bool.or_eq_true, comesBefore_iff, comesBefore_iff]
  unfold InOrder
  rcases Nat.lt_trichotomy (s.group config).precedence (t.group config).precedence with hlt | heq | hgt
  · exact .inl ⟨by omega, fun hgroup => by rw [hgroup] at hlt; omega⟩
  · rcases lexLe_total Text.le_total (s.sortKey config) (t.sortKey config) with hle | hle
    · exact .inl ⟨by omega, fun _ => hle⟩
    · exact .inr ⟨by omega, fun _ => hle⟩
  · exact .inr ⟨by omega, fun hgroup => by rw [hgroup] at hgt; omega⟩

end Violation

namespace Plan

open Violation

/-- The imports in one stable sort. -/
def sortedImports (config : Configuration) (all : List Bundle) : List Bundle :=
  (all.filter (·.statement.isImport)).mergeSort fun a b => comesBefore config a.statement b.statement

/-- Whether two imports belong to the same group. -/
def sameGroup (config : Configuration) (a b : Bundle) : Bool :=
  a.statement.group config == b.statement.group config

variable {config : Configuration} {all : List Bundle}

theorem group_eq_of_path {s : Statement} {g : Group} (h : s.path.map config.classify = some g) :
    s.isImport = true ∧ s.group config = g := by
  obtain ⟨path, hpath, hclass⟩ := Option.map_eq_some_iff.mp h
  rw [Statement.isImport, Statement.group, Statement.modulePath, hpath]
  exact ⟨rfl, hclass⟩

theorem filter_group (config : Configuration) (all : List Bundle) (g : Group) :
    (all.filter fun b => b.statement.path.map config.classify == some g) =
      (all.filter (·.statement.isImport)).filter fun b => b.statement.group config == g := by
  rw [List.filter_filter]
  apply List.filter_congr
  intro b _
  rw [Bool.eq_iff_iff, Bool.and_eq_true, beq_iff_eq, beq_iff_eq]
  constructor
  · intro h
    exact (group_eq_of_path h).symm
  · rintro ⟨hgroup, himport⟩
    obtain ⟨path, hpath⟩ := Option.isSome_iff_exists.mp himport
    rw [Statement.group, Statement.modulePath, hpath] at hgroup
    rw [hpath, Option.map_some]
    exact congrArg some hgroup

/-- The sorted members of a group are its imports in the sort of all. -/
theorem members_eq (config : Configuration) (all : List Bundle) (g : Group) :
    members config all g = (sortedImports config all).filter fun b => b.statement.group config == g := by
  -- in one group only the keys count
  have hsort : ∀ a ∈ (all.filter (·.statement.isImport)).filter (fun b => b.statement.group config == g),
      ∀ b ∈ (all.filter (·.statement.isImport)).filter (fun b => b.statement.group config == g),
      config.isSorted g (a.statement.path.getD []) (b.statement.path.getD []) =
        comesBefore config a.statement b.statement := by
    intro a ha b hb
    have hgroup : a.statement.group config = g := by simpa using (List.mem_filter.mp ha).2
    have hgroup' : b.statement.group config = g := by simpa using (List.mem_filter.mp hb).2
    unfold comesBefore Statement.sortKey Configuration.isSorted Statement.modulePath
    rw [hgroup, hgroup']
    simp
  rw [members, filter_group, mergeSort_congr hsort]
  symm
  apply filter_mergeSort
  · intro a b c
    exact comesBefore_trans _ _ _
  · intro a b
    exact comesBefore_total _ _

theorem sortedImports_pairwise (config : Configuration) (all : List Bundle) :
    (sortedImports config all).Pairwise fun a b =>
      (a.statement.group config).precedence ≤ (b.statement.group config).precedence := by
  have hsorted : (sortedImports config all).Pairwise fun a b => comesBefore config a.statement b.statement = true := by
    apply List.pairwise_mergeSort
    · intro a b c
      exact comesBefore_trans _ _ _
    · intro a b
      exact comesBefore_total _ _
  exact hsorted.imp fun h => (comesBefore_iff.mp h).1

/-- The members of the groups one after another are all imports, sorted. -/
theorem flatMap_members (config : Configuration) (all : List Bundle) :
    Group.canonical.flatMap (members config all) = sortedImports config all := by
  have hmembers : members config all = fun g =>
      (sortedImports config all).filter fun b => b.statement.group config == g := by
    funext g
    exact members_eq config all g
  rw [hmembers]
  refine flatMap_filter_of_sorted (by decide) (sortedImports_pairwise config all) ?_
  intro b _
  cases b.statement.group config <;> decide

/-- The groups that have members are the runs of the sorted imports. -/
theorem splitBy_sortedImports (config : Configuration) (all : List Bundle) :
    (sortedImports config all).splitBy (sameGroup config) =
      (Group.canonical.map (members config all)).filter (!·.isEmpty) := by
  rw [← flatMap_members, ← flatten_groups]
  have hgroup : ∀ {g : Group} {b : Bundle}, b ∈ members config all g → b.statement.group config = g :=
    fun hb => (group_eq_of_path (group_of_mem_members hb)).2
  have hfilter : (Group.canonical.map (members config all)).filter (!·.isEmpty) =
      (Group.canonical.filter fun g => !(members config all g).isEmpty).map (members config all) :=
    List.filter_map
  rw [hfilter]
  apply List.splitBy_flatten
  · simp
  · intro bs hbs
    obtain ⟨g, -, rfl⟩ := List.mem_map.mp hbs
    apply List.Pairwise.isChain
    apply List.pairwise_of_forall_mem_list
    intro a ha b hb
    simp [sameGroup, hgroup ha, hgroup hb]
  · -- two groups differ, so the last of one and the first of the next do
    have hdistinct : (Group.canonical.filter fun g => !(members config all g).isEmpty).IsChain (· ≠ ·) :=
      (List.Pairwise.filter _ (by decide : Group.canonical.Pairwise (· ≠ ·))).isChain
    rw [List.isChain_map]
    refine hdistinct.imp_of_mem_imp ?_
    intro g g' hg hg' hne
    have hnil : members config all g ≠ [] := by simpa using (List.mem_filter.mp hg).2
    have hnil' : members config all g' ≠ [] := by simpa using (List.mem_filter.mp hg').2
    refine ⟨hnil, hnil', ?_⟩
    simp [sameGroup, hgroup (List.getLast_mem hnil), hgroup (List.head_mem hnil'), hne]

/-! ## The replacement -/

/-- Runs of imports, each below the comments of its members, and then other statements, each below its own comments.
One line break stands between lines and two between blocks. -/
def arrangement (newline : Text) (runs : List (List Bundle)) (code : List Bundle) : Text :=
  (newline ++ newline).joinWith
    (runs.map (fun run => newline.joinWith ((run.map Bundle.leading).filter (!·.isEmpty) ++ run.map Bundle.body)) ++
      code.map fun b => newline.joinWith ([b.leading, b.body].filter (!·.isEmpty)))

theorem canonicalText_eq_arrangement (config : Configuration) (newline : Text) (all : List Bundle) :
    canonicalText config newline all = arrangement newline ((sortedImports config all).splitBy (sameGroup config))
      (all.filter (!·.statement.isImport)) := by
  rw [splitBy_sortedImports]
  rfl

/-- The replacement of an edit is the canonical form of its span, with a line break behind it where code follows on
the line of the last import. -/
theorem replacement_of_plan (config : Configuration) (source : Text) {statements : List Statement}
    (h : ∃ s ∈ statements, s.isImport = true) : ∃ edit pushed, plan config source statements = some edit ∧
      edit.replacement = canonicalText config (newlineOf source) (span source statements) ++ pushed ∧
      (pushed = [] ∨ pushed = newlineOf source) := by
  obtain ⟨front, middle, back, hspanned⟩ := exists_spanned h
  obtain ⟨first, hfirst, -⟩ := hspanned.first_import
  obtain ⟨last, hlast, -⟩ := hspanned.last_import
  obtain ⟨b, hb, -⟩ := head?_bundles source [] hfirst back
  obtain ⟨b', hb', -⟩ := getLast?_bundles source [] hlast back
  rw [← hspanned.span_eq source] at hb hb'
  rw [plan_eq config hb hb']
  dsimp only
  split
  · exact ⟨_, _, rfl, rfl, .inr rfl⟩
  · exact ⟨_, [], rfl, (List.append_nil _).symm, .inl rfl⟩

theorem Spanned.map_statement_span {statements front middle back : List Statement}
    (h : Spanned statements front middle back) (source : Text) :
    (span source statements).map Bundle.statement = middle := by
  rw [h.span_eq source, List.map_take, map_statement_bundles, List.take_left]

theorem Spanned.filter_isImport {statements front middle back : List Statement}
    (h : Spanned statements front middle back) :
    statements.filter Statement.isImport = middle.filter Statement.isImport := by
  have hfront : front.filter Statement.isImport = [] := by simpa using h.front_code
  have hback : back.filter Statement.isImport = [] := by simpa using h.back_code
  rw [h.eq_append, List.filter_append, List.filter_append, hfront, hback, List.nil_append, List.append_nil]

/-- The imports of a span are all imports of the file. -/
theorem Spanned.map_statement_sortedImports {statements front middle back : List Statement}
    (h : Spanned statements front middle back) (config : Configuration) (source : Text) :
    (sortedImports config (span source statements)).map Bundle.statement =
      (statements.filter Statement.isImport).mergeSort (comesBefore config) := by
  rw [h.filter_isImport, ← h.map_statement_span source, List.filter_map]
  exact List.map_mergeSort fun a _ b _ => rfl

/-- The edit of statements among which there is an import. Its replacement holds the imports of all statements in one
stable sort by group and key: the runs of one group are its first blocks, each with the comments of its members above
them. The other statements of the span follow in their order, each below its own comments. -/
theorem plan_arranges (config : Configuration) (source : Text) {statements : List Statement}
    (h : ∃ s ∈ statements, s.isImport = true) :
    ∃ front middle back all imports edit pushed, Spanned statements front middle back ∧
      all = span source statements ∧ all.map Bundle.statement = middle ∧
      imports = ((all.filter (·.statement.isImport)).mergeSort fun a b =>
        comesBefore config a.statement b.statement) ∧
      imports.map Bundle.statement = (statements.filter Statement.isImport).mergeSort (comesBefore config) ∧
      plan config source statements = some edit ∧
      edit.replacement = arrangement (newlineOf source) (imports.splitBy (sameGroup config))
        (all.filter (!·.statement.isImport)) ++ pushed ∧
      (pushed = [] ∨ pushed = newlineOf source) := by
  obtain ⟨front, middle, back, hspanned⟩ := exists_spanned h
  obtain ⟨edit, pushed, hplan, hreplacement, hpushed⟩ := replacement_of_plan config source h
  rw [canonicalText_eq_arrangement] at hreplacement
  exact ⟨front, middle, back, span source statements, sortedImports config (span source statements), edit, pushed,
    hspanned, rfl, hspanned.map_statement_span source, rfl, hspanned.map_statement_sortedImports config source, hplan,
    hreplacement, hpushed⟩

/-- Imports of three groups, with comments and other code between them and behind the last. -/
def shuffledSource : Text :=
  ("import './b' // b\n// first\nimport x from 'a'\n/* y */ let y = 1\n/* z */\nimport '~/z' ; run()").toList

/-- The statements of that source. -/
def shuffledStatements : List Statement :=
  [⟨0, 12, 0, 0, "import './b'".toList, some "./b".toList⟩,
    ⟨27, 44, 2, 2, "import x from 'a'".toList, some ['a']⟩,
    ⟨53, 62, 3, 3, "let y = 1".toList, none⟩,
    ⟨71, 85, 5, 5, "import '~/z' ;".toList, some "~/z".toList⟩,
    ⟨86, 91, 5, 5, "run()".toList, none⟩]

/-- The canonical form of that source. -/
def shuffledReplacement : Text :=
  ("// first\nimport x from 'a'\n\n/* z */\nimport '~/z' ;\n\nimport './b' // b\n\n" ++
    "/* y */\nlet y = 1\n").toList

theorem plan_arranges_shuffledSource :
    (∃ s ∈ shuffledStatements, s.isImport = true) ∧
      ∃ (imports : List Bundle) (edit : Edit),
        plan ⟨["~/".toList], false⟩ shuffledSource shuffledStatements = some edit ∧
        edit.replacement = shuffledReplacement ∧
        imports.map Bundle.statement =
          (shuffledStatements.filter Statement.isImport).mergeSort (comesBefore ⟨["~/".toList], false⟩) := by
  have himport : ∃ s ∈ shuffledStatements, s.isImport = true := ⟨_, List.mem_cons_self, rfl⟩
  have heval : (plan ⟨["~/".toList], false⟩ shuffledSource shuffledStatements).map Edit.replacement =
      some shuffledReplacement := by
    decide +kernel
  obtain ⟨-, -, -, -, imports, edit, -, -, -, -, -, himports, hplan, -, -⟩ :=
    plan_arranges ⟨["~/".toList], false⟩ shuffledSource himport
  refine ⟨himport, imports, edit, hplan, ?_, himports⟩
  rw [hplan] at heval
  exact Option.some.inj heval

end Plan

end ImportOrder
