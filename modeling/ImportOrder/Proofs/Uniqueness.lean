import ImportOrder.Proofs.Arrangement
import ImportOrder.Proofs.ImportFiles
import ImportOrder.Runtime

/-!
# One canonical form

Imports that stand together with nothing but blanks between them have one canonical form, in whatever order they are
written and however they are spaced, as long as imports of the same module keep their order. The text of an import
tells its path, only imports of the same path are tied in the sort, and the sort is stable.
-/

namespace ImportOrder

/-! ## Stable sorting -/

section

variable {α β : Type} [BEq β] [LawfulBEq β] (key : α → β) {le : α → α → Bool} {l l' : List α}

theorem mem_of_filter_eq (h : ∀ k, l.filter (key · == k) = l'.filter (key · == k)) {a : α} (ha : a ∈ l) : a ∈ l' := by
  have hmem : a ∈ l.filter (key · == key a) := List.mem_filter.mpr ⟨ha, beq_self_eq_true _⟩
  rw [h] at hmem
  exact (List.mem_filter.mp hmem).1

/-- Sorted lists that have the same members of each key in the same order are equal, when only members of one key are
tied. -/
theorem eq_of_sorted (refl : ∀ a, le a a = true) (ties : ∀ a b, le a b = true → le b a = true → key a = key b)
    (hl : l.Pairwise fun a b => le a b = true) (hl' : l'.Pairwise fun a b => le a b = true)
    (h : ∀ k, l.filter (key · == k) = l'.filter (key · == k)) : l = l' := by
  induction l generalizing l' with
  | nil =>
    symm
    rw [List.eq_nil_iff_forall_not_mem]
    intro a ha
    exact absurd (mem_of_filter_eq key (fun k => (h k).symm) ha) (by simp)
  | cons a l ih =>
    cases l' with
    | nil => exact absurd (mem_of_filter_eq key h List.mem_cons_self) (by simp)
    | cons b l' =>
      obtain ⟨ha, htail⟩ := List.pairwise_cons.mp hl
      obtain ⟨hb, htail'⟩ := List.pairwise_cons.mp hl'
      -- each of the first members is one of the other list, so they are tied
      have hkey : key a = key b := by
        apply ties
        · rcases List.mem_cons.mp (mem_of_filter_eq key (fun k => (h k).symm) List.mem_cons_self) with rfl | hmem
          · exact refl b
          · exact ha b hmem
        · rcases List.mem_cons.mp (mem_of_filter_eq key h List.mem_cons_self) with rfl | hmem
          · exact refl a
          · exact hb a hmem
      have hfirst := h (key a)
      rw [List.filter_cons_of_pos (by simp), List.filter_cons_of_pos (by simp [hkey])] at hfirst
      obtain ⟨rfl, hrest⟩ := List.cons.inj hfirst
      congr 1
      apply ih htail htail'
      intro k
      by_cases hk : key a = k
      · rw [← hk]
        exact hrest
      · have hother := h k
        rwa [List.filter_cons_of_neg (by simpa using hk), List.filter_cons_of_neg (by simpa using hk)] at hother

/-- A stable sort does not depend on the order of members that have different keys. -/
theorem mergeSort_eq_of_filter_eq (trans : ∀ a b c, le a b = true → le b c = true → le a c = true)
    (total : ∀ a b, (le a b || le b a) = true) (ties : ∀ a b, le a b = true → le b a = true → key a = key b)
    (tied : ∀ a b, key a = key b → le a b = true) (h : ∀ k, l.filter (key · == k) = l'.filter (key · == k)) :
    l.mergeSort le = l'.mergeSort le := by
  have hkept : ∀ (m : List α) k, (m.mergeSort le).filter (key · == k) = m.filter (key · == k) := by
    intro m k
    rw [filter_mergeSort trans total]
    apply List.mergeSort_of_pairwise
    apply List.pairwise_of_forall_mem_list
    intro a ha b hb
    apply tied
    rw [beq_iff_eq.mp (List.mem_filter.mp ha).2, beq_iff_eq.mp (List.mem_filter.mp hb).2]
  apply eq_of_sorted key (fun a => tied a a rfl) ties (List.pairwise_mergeSort trans total l)
    (List.pairwise_mergeSort trans total l')
  intro k
  rw [hkept, hkept, h]

end

/-! ## Imports in another order -/

/-- Two members of a list without repetitions stand in one order only. -/
theorem not_sublist_swap {α : Type} {l : List α} (hl : l.Nodup) {a b : α} (h : [a, b].Sublist l) :
    ¬[b, a].Sublist l := by
  induction l with
  | nil => simp at h
  | cons c l ih =>
    obtain ⟨hc, htail⟩ := List.nodup_cons.mp hl
    intro hswap
    rcases List.cons_sublist_cons'.mp h with hrest | ⟨rfl, hrest⟩
    · rcases List.cons_sublist_cons'.mp hswap with hrest' | ⟨rfl, -⟩
      · exact ih htail hrest hrest'
      · exact hc (hrest.subset (List.mem_cons_of_mem a List.mem_cons_self))
    · rcases List.cons_sublist_cons'.mp hswap with hrest' | ⟨rfl, -⟩
      · exact hc (hrest'.subset (List.mem_cons_of_mem b List.mem_cons_self))
      · exact hc (hrest.subset List.mem_cons_self)

namespace Plan

open Violation

/-- The same imports in another order, in which imports of the same module keep their order. -/
structure Reordered (imports others : List Statement) : Prop where
  perm : others.Perm imports
  kept : imports.Pairwise fun s s' => s.modulePath = s'.modulePath → [s, s'].Sublist others

theorem Reordered.filter_eq {imports others : List Statement} (h : Reordered imports others) (hnodup : imports.Nodup)
    (path : Text) : imports.filter (·.modulePath == path) = others.filter (·.modulePath == path) := by
  have hnodup' : others.Nodup := h.perm.nodup_iff.mpr hnodup
  refine List.Perm.eq_of_pairwise ?_ (?_ : List.Pairwise (fun s s' => [s, s'].Sublist others) _) ?_
    (h.perm.filter _).symm
  · intro s s' _ _ hsub hsub'
    exact absurd hsub' (not_sublist_swap hnodup' hsub)
  · refine (h.kept.sublist List.filter_sublist).imp_of_mem ?_
    intro s s' hs hs' hkept
    apply hkept
    rw [beq_iff_eq.mp (List.mem_filter.mp hs).2, beq_iff_eq.mp (List.mem_filter.mp hs').2]
  · rw [List.pairwise_iff_forall_sublist]
    intro s s' hsub
    exact hsub.trans List.filter_sublist

end Plan

namespace Violation

variable {config : Configuration} {s t : Statement}

theorem sortKey_injective {group : Group} {path path' : Text}
    (h : config.sortKey group path = config.sortKey group path') : path = path' := by
  unfold Configuration.sortKey at h
  split at h
  · simpa using h
  · exact (by simpa using h : _ ∧ _ ∧ path = path').2.2

/-- Only imports of the same module are tied. -/
theorem modulePath_eq_of_comesBefore (h : comesBefore config s t = true) (h' : comesBefore config t s = true) :
    s.modulePath = t.modulePath := by
  obtain ⟨hle, hkey⟩ := comesBefore_iff.mp h
  obtain ⟨hle', hkey'⟩ := comesBefore_iff.mp h'
  have hgroup : s.group config = t.group config := precedence_injective (by omega)
  have heq := lexLe_antisymm Text.le_antisymm (hkey hgroup) (hkey' hgroup.symm)
  rw [Statement.sortKey, Statement.sortKey, hgroup] at heq
  exact sortKey_injective heq

theorem comesBefore_of_modulePath_eq (h : s.modulePath = t.modulePath) : comesBefore config s t = true := by
  have hgroup : s.group config = t.group config := by rw [Statement.group, Statement.group, h]
  have hkey : s.sortKey config = t.sortKey config := by rw [Statement.sortKey, Statement.sortKey, hgroup, h]
  rw [comesBefore_iff, InOrder, hgroup, hkey]
  exact ⟨Nat.le_refl _, fun _ => lexLe_refl _⟩

end Violation

namespace Plan

open Violation

section

variable {config : Configuration} {all all' : List Bundle}

/-- The canonical form of imports depends only on the imports of each module and their order. -/
theorem canonicalText_eq_of_filter_eq (newline : Text) (himport : ∀ b ∈ all, b.statement.isImport = true)
    (h : ∀ path, all.filter (·.statement.modulePath == path) = all'.filter (·.statement.modulePath == path)) :
    canonicalText config newline all = canonicalText config newline all' := by
  have himport' : ∀ b ∈ all', b.statement.isImport = true :=
    fun b hb => himport b (mem_of_filter_eq (·.statement.modulePath) (fun path => (h path).symm) hb)
  have hsorted : sortedImports config all = sortedImports config all' := by
    rw [sortedImports, sortedImports, List.filter_eq_self.mpr himport, List.filter_eq_self.mpr himport']
    apply mergeSort_eq_of_filter_eq (fun b : Bundle => b.statement.modulePath)
    · exact fun a b c => comesBefore_trans _ _ _
    · exact fun a b => comesBefore_total _ _
    · exact fun a b => modulePath_eq_of_comesBefore
    · exact fun a b => comesBefore_of_modulePath_eq
    · exact h
  have hcode : ∀ {bs : List Bundle}, (∀ b ∈ bs, b.statement.isImport = true) →
      bs.filter (!·.statement.isImport) = [] :=
    fun hbs => List.filter_eq_nil_iff.mpr fun b hb => by simp [hbs b hb]
  rw [canonicalText_eq_arrangement, canonicalText_eq_arrangement, hsorted, hcode himport, hcode himport']

end

/-! ## Blocks of imports -/

/-- An import with no comments. -/
def bare (s : Statement) : Bundle :=
  ⟨s, [], []⟩

/-- The imports of a source stand in one block: no other statement and no comment stands between them, and a line
break or the end of the source follows the last one. -/
structure BareBlock (source : Text) (statements front block back : List Statement) : Prop where
  eq_append : statements = front ++ (block ++ back)
  front_code : ∀ s ∈ front, s.isImport = false
  back_code : ∀ s ∈ back, s.isImport = false
  imports : ∀ s ∈ block, s.isImport = true
  blank : block.IsChain fun s s' => (source.slice s.stop s'.start).all isBlank = true
  closed : ∀ last ∈ block.getLast?, (source.onward last.stop).head?.all isLineBreak = true

theorem splitGap_of_blanks {gap : Text} (h : ∀ c ∈ gap, isBlank c = true) : splitGap gap = ([], gap) := by
  apply splitGap_of_no_comment
  rintro b rest rfl -
  exact absurd (h '/' (by simp)) (by decide)

/-- Where a line break stands first, the first character behind spaces and tabs is that line break. -/
theorem isLineBreak_behind_blanks {b rest : Text} {c : Char} (h : ∀ d ∈ (b ++ c :: rest).head?, isLineBreak d = true)
    (hb : ∀ d ∈ b, isInlineBlank d = true) : isLineBreak c = true := by
  cases b with
  | nil => exact h c rfl
  | cons d b =>
    have hbreak := h d rfl
    rw [isLineBreak_of_isInlineBlank (hb d List.mem_cons_self)] at hbreak
    exact absurd hbreak (by simp)

theorem splitGap_of_break {gap : Text} (h : ∀ c ∈ gap.head?, isLineBreak c = true) : splitGap gap = ([], gap) := by
  apply splitGap_of_no_comment
  rintro b rest rfl hb
  exact absurd (isLineBreak_behind_blanks h hb) (by decide)

theorem blanksBeforeCode?_of_break {t : Text} (h : ∀ c ∈ t.head?, isLineBreak c = true) :
    blanksBeforeCode? t = none := by
  cases hblanks : blanksBeforeCode? t with
  | none => rfl
  | some n =>
    obtain ⟨b, c, rest, rfl, -, hb, hc⟩ := blanksBeforeCode?_some hblanks
    rw [isLineBreak_behind_blanks h hb] at hc
    exact absurd hc (by simp)

/-- The bundles of a block hold no comments. -/
theorem bundles_bare {source : Text} {block back : List Statement}
    (hblank : block.IsChain fun s s' => (source.slice s.stop s'.start).all isBlank = true)
    (hclosed : ∀ last ∈ block.getLast?, ∀ c ∈ (gapAfter source last back).head?, isLineBreak c = true) :
    (bundles source [] (block ++ back)).take block.length = block.map bare := by
  induction block with
  | nil => rfl
  | cons s rest ih =>
    rw [List.cons_append, bundles_cons, List.length_cons, List.take_succ_cons, List.map_cons]
    cases rest with
    | nil =>
      rw [List.nil_append, splitGap_of_break (hclosed s rfl)]
      rfl
    | cons s' rest =>
      obtain ⟨hall, hrest⟩ := List.isChain_cons_cons.mp hblank
      have hgap := List.all_eq_true.mp hall
      have hsplit : splitGap (gapAfter source s (s' :: rest ++ back)) = ([], source.slice s.stop s'.start) :=
        splitGap_of_blanks hgap
      rw [hsplit, Text.strip_of_blanks hgap, ih hrest fun last hlast => hclosed last (by simpa using hlast)]
      rfl

namespace BareBlock

variable {source : Text} {document : Document} {front block back : List Statement}
  (h : BareBlock source document.statements front block back)

include h

theorem plan_eq_none (config : Configuration) (hnil : block = []) : plan config source document.statements = none := by
  cases hplan : plan config source document.statements with
  | none => rfl
  | some edit =>
    obtain ⟨s, hs, himport⟩ := exists_import_of_plan hplan
    rw [h.eq_append, hnil, List.nil_append] at hs
    rcases List.mem_append.mp hs with hs | hs
    · simp [h.front_code s hs] at himport
    · simp [h.back_code s hs] at himport

theorem mem_statements {s : Statement} (hs : s ∈ block) : s ∈ document.statements := by
  rw [h.eq_append]
  simp [hs]

theorem spanned (hne : block ≠ []) : Spanned document.statements front block back :=
  ⟨h.eq_append, h.front_code, h.back_code,
    ⟨block.head hne, List.head?_eq_some_head hne, h.imports _ (List.head_mem hne)⟩,
    ⟨block.getLast hne, List.getLast?_eq_some_getLast hne, h.imports _ (List.getLast_mem hne)⟩⟩

section

variable [Stack] (hparse : Document.parse source = .ok document)

include hparse

theorem nodup : block.Nodup := by
  have hstarts := Document.starts_of_parse hparse
  have hblock : block.Sublist document.statements := by
    rw [h.eq_append]
    exact (List.sublist_append_left block back).trans (List.sublist_append_right front _)
  refine (List.pairwise_map.mp (hstarts.sublist (hblock.map _))).imp ?_
  rintro s s' hlt rfl
  omega

/-- What follows the last import, and the gap up to the next statement. -/
theorem breaks {last : Statement} (hlast : block.getLast? = some last) :
    (∀ c ∈ (source.onward last.stop).head?, isLineBreak c = true) ∧
      ∀ c ∈ (gapAfter source last back).head?, isLineBreak c = true := by
  have hne : block ≠ [] := by
    rintro rfl
    simp at hlast
  obtain ⟨hfits, hbackFits, hfollows⟩ := (h.spanned hne).behind_last (Document.fits_of_parse hparse)
    (Document.follows_of_parse hparse) hlast
  have hbreak : ∀ c ∈ (source.onward last.stop).head?, isLineBreak c = true :=
    (Option.all_eq_true _ _).mp (h.closed last hlast)
  refine ⟨hbreak, fun c hc => hbreak c ?_⟩
  rw [← gapAfter_append hfits hbackFits hfollows, List.head?_append, hc]
  rfl

theorem span_eq (hne : block ≠ []) : span source document.statements = block.map bare := by
  rw [(h.spanned hne).span_eq source]
  exact bundles_bare h.blank fun last hlast => (h.breaks hparse hlast).2

/-- The edit of a block puts the canonical form of its bare imports in its place. -/
theorem exists_edit (config : Configuration) (hne : block ≠ []) :
    ∃ edit, plan config source document.statements = some edit ∧
      edit.replacement = canonicalText config (newlineOf source) (block.map bare) := by
  have hspan := h.span_eq hparse hne
  have hfirst := List.head?_eq_some_head hne
  have hlast := List.getLast?_eq_some_getLast hne
  generalize block.head hne = first at hfirst
  generalize block.getLast hne = last at hlast
  have hhead : (span source document.statements).head? = some (bare first) := by
    rw [hspan, List.head?_map, hfirst, Option.map_some]
  have hend : (span source document.statements).getLast? = some (bare last) := by
    rw [hspan, List.getLast?_map, hlast, Option.map_some]
  have hfits := Document.fits_of_parse hparse last (h.mem_statements (List.mem_of_getLast? hlast))
  have hstart := hfits.start_nonneg
  have hlt := hfits.start_lt_stop
  have hle := hfits.stop_le
  -- no code follows on the line of the last import
  have hnone : blanksBeforeCode? (source.drop (min (last.stop + ([] : Text).length).toNat source.length)) = none := by
    have hplace : min (last.stop + ([] : Text).length).toNat source.length = Text.place source.length last.stop := by
      rw [Text.place_of_le (by omega) hle, List.length_nil]
      omega
    rw [hplace]
    exact blanksBeforeCode?_of_break (h.breaks hparse hlast).1
  rw [Plan.plan_eq config hhead hend, hspan]
  dsimp only [bare]
  rw [hnone]
  exact ⟨_, rfl, rfl⟩

theorem isDeclaration {s : Statement} (hs : s ∈ block) : IsDeclaration source s :=
  isDeclaration_of_parse hparse (h.mem_statements hs) (h.imports s hs)

end

end BareBlock

/-- Imports of the same texts have the same paths. -/
theorem map_content_eq [Stack] {source source' : Text} {statements statements' : List Statement}
    (h : ∀ s ∈ statements, IsDeclaration source s) (h' : ∀ s ∈ statements', IsDeclaration source' s)
    (htexts : statements.map Statement.text = statements'.map Statement.text) :
    statements.map Statement.content = statements'.map Statement.content := by
  induction statements generalizing statements' with
  | nil =>
    rw [List.map_eq_nil_iff.mp htexts.symm]
  | cons s rest ih =>
    cases statements' with
    | nil => simp at htexts
    | cons s' rest' =>
      obtain ⟨htext, hrest⟩ := List.cons.inj htexts
      have hpath := (h s List.mem_cons_self).path_eq (h' s' List.mem_cons_self) htext
      have hcontents := ih (fun t ht => h t (List.mem_cons_of_mem s ht))
        (fun t ht => h' t (List.mem_cons_of_mem s' ht)) hrest
      rw [List.map_cons, List.map_cons, hcontents, Statement.content, htext, hpath, Statement.content]

/-- Bare imports taken from their places, as their contents give them. -/
theorem map_unplaced_bare (statements : List Statement) : (statements.map bare).map Bundle.unplaced =
    (statements.map Statement.content).map fun content => ⟨⟨0, 0, 0, 0, content.1, content.2⟩, [], []⟩ := by
  rw [List.map_map, List.map_map]
  rfl

theorem Reordered.canonicalText_eq {imports others : List Statement} (h : Reordered imports others)
    (hnodup : imports.Nodup) (himport : ∀ s ∈ imports, s.isImport = true) (config : Configuration) (newline : Text) :
    canonicalText config newline (imports.map bare) = canonicalText config newline (others.map bare) := by
  apply canonicalText_eq_of_filter_eq
  · intro b hb
    obtain ⟨s, hs, rfl⟩ := List.mem_map.mp hb
    exact himport s hs
  · intro path
    rw [List.filter_map, List.filter_map]
    exact congrArg (List.map bare) (h.filter_eq hnodup path)

/-- Two sources that break lines in the same way and whose imports stand in blocks of the same texts get the same
replacement, in whatever order the texts stand and however they are spaced, when imports of the same module come in the
same order. There is a replacement exactly when there are imports. -/
theorem plan_unique [Stack] (config : Configuration) {source source' : Text} {document document' : Document}
    {front block back front' block' back' others : List Statement} (hparse : Document.parse source = .ok document)
    (hparse' : Document.parse source' = .ok document') (hnewline : newlineOf source = newlineOf source')
    (hblock : BareBlock source document.statements front block back)
    (hblock' : BareBlock source' document'.statements front' block' back') (hothers : Reordered block others)
    (htexts : block'.map Statement.text = others.map Statement.text) :
    (plan config source document.statements).map Edit.replacement =
      (plan config source' document'.statements).map Edit.replacement ∧
    ((plan config source document.statements).isSome = true ↔ block ≠ []) := by
  have hlength : block'.length = block.length := by
    have hlen := congrArg List.length htexts
    rwa [List.length_map, List.length_map, hothers.perm.length_eq] at hlen
  by_cases hnil : block = []
  · have hnil' : block' = [] := List.length_eq_zero_iff.mp (by rw [hlength, hnil, List.length_nil])
    rw [hblock.plan_eq_none config hnil, hblock'.plan_eq_none config hnil']
    exact ⟨rfl, by simp [hnil]⟩
  · have hne' : block' ≠ [] := by
      intro hnil'
      rw [hnil', List.length_nil] at hlength
      exact hnil (List.length_eq_zero_iff.mp hlength.symm)
    obtain ⟨edit, hplan, hreplacement⟩ := hblock.exists_edit hparse config hnil
    obtain ⟨edit', hplan', hreplacement'⟩ := hblock'.exists_edit hparse' config hne'
    -- the second block holds the imports of the first in the other order, up to their places
    have hcontents : block'.map Statement.content = others.map Statement.content :=
      map_content_eq (fun s hs => hblock'.isDeclaration hparse' hs)
        (fun s hs => hblock.isDeclaration hparse (hothers.perm.mem_iff.mp hs)) htexts
    have hplaces : canonicalText config (newlineOf source) (others.map bare) =
        canonicalText config (newlineOf source) (block'.map bare) := by
      rw [← canonicalText_map Bundle.alike_unplaced, map_unplaced_bare, ← hcontents, ← map_unplaced_bare,
        canonicalText_map Bundle.alike_unplaced]
    have hcanonical := hothers.canonicalText_eq (hblock.nodup hparse) hblock.imports config (newlineOf source)
    rw [hplan, hplan']
    refine ⟨?_, by simp [hnil]⟩
    rw [Option.map_some, Option.map_some, hreplacement, hreplacement', hcanonical, hplaces, hnewline]

/-- Three imports spread over lines, two of them of one module, and a call behind them. -/
def spreadSource : Text :=
  "import './b'\n\nimport x from 'a'\nimport y from 'a';\nf()".toList

/-- The imports of that source, in its order. -/
def spreadImports : List Statement :=
  [⟨0, 12, 0, 0, "import './b'".toList, some "./b".toList⟩,
    ⟨14, 31, 2, 2, "import x from 'a'".toList, some ['a']⟩,
    ⟨32, 50, 3, 3, "import y from 'a';".toList, some ['a']⟩]

/-- The call behind them. -/
def spreadCall : Statement :=
  ⟨51, 54, 4, 4, "f()".toList, none⟩

/-- The same imports in another order, closer together and with nothing behind them. -/
def gatheredSource : Text :=
  "import x from 'a'\n\timport y from 'a';import './b'".toList

/-- The imports of the other source. -/
def gatheredImports : List Statement :=
  [⟨0, 17, 0, 0, "import x from 'a'".toList, some ['a']⟩,
    ⟨19, 37, 1, 1, "import y from 'a';".toList, some ['a']⟩,
    ⟨37, 49, 1, 1, "import './b'".toList, some "./b".toList⟩]

/-- The imports of the first source, in the order of the other one. -/
def spreadReordered : List Statement :=
  [⟨14, 31, 2, 2, "import x from 'a'".toList, some ['a']⟩,
    ⟨32, 50, 3, 3, "import y from 'a';".toList, some ['a']⟩,
    ⟨0, 12, 0, 0, "import './b'".toList, some "./b".toList⟩]

section

open ImportOrder.Runtime

theorem plan_unique_spreadSource :
    Reordered spreadImports spreadReordered ∧ spreadReordered ≠ spreadImports ∧
      ∃ document document', Document.parse spreadSource = .ok document ∧
        Document.parse gatheredSource = .ok document' ∧
        (plan {} spreadSource document.statements).isSome = true ∧
        (plan {} spreadSource document.statements).map Edit.replacement =
          (plan {} gatheredSource document'.statements).map Edit.replacement := by
  have hreordered : Reordered spreadImports spreadReordered := ⟨by decide +kernel, by decide +kernel⟩
  have hread : (Document.parse spreadSource).toOption.map Document.statements =
      some (spreadImports ++ [spreadCall]) := by decide +kernel
  have hread' : (Document.parse gatheredSource).toOption.map Document.statements = some gatheredImports := by
    decide +kernel
  refine ⟨hreordered, by decide +kernel, ?_⟩
  cases hparse : Document.parse spreadSource with
  | error error => simp [hparse, Except.toOption] at hread
  | ok document =>
    cases hparse' : Document.parse gatheredSource with
    | error error => simp [hparse', Except.toOption] at hread'
    | ok document' =>
      rw [hparse] at hread
      rw [hparse'] at hread'
      have hblock : BareBlock spreadSource document.statements [] spreadImports [spreadCall] :=
        ⟨Option.some.inj hread, by simp, by simp [spreadCall, Statement.isImport],
          by simp [spreadImports, Statement.isImport], by decide +kernel, by decide +kernel⟩
      have hblock' : BareBlock gatheredSource document'.statements [] gatheredImports [] :=
        ⟨by rw [List.nil_append, List.append_nil]; exact Option.some.inj hread', by simp, by simp,
          by simp [gatheredImports, Statement.isImport], by decide +kernel, by decide +kernel⟩
      obtain ⟨hsame, hsome⟩ := plan_unique {} hparse hparse' (by decide +kernel) hblock hblock' hreordered
        (by decide +kernel)
      exact ⟨document, document', rfl, rfl, hsome.mpr (by decide), hsame⟩

end

end Plan

end ImportOrder
