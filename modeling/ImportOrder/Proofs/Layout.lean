import ImportOrder.Proofs.Contents

/-!
# The layout of the canonical form

The canonical form as a list of slots, one for each statement: what stands above the statement, and the bundle
that is set there. The imports come first, in the order of their groups; within a group only line breaks stand
between them. The other statements follow, each below an empty line.
-/

namespace ImportOrder.Plan

/-- A bundle in its place, with the line breaks and comments above it. -/
structure Slot where
  above : Text
  bundle : Bundle
deriving DecidableEq

/-- The text of the slots, with `tail` behind it. -/
def render (tail : Text) : List Slot → Text
  | [] => tail
  | slot :: rest => slot.above ++ (slot.bundle.body ++ render tail rest)

/-- The slots of a group: the comments of all members stand above the first. -/
def groupSlots (newline : Text) : List Bundle → List Slot
  | [] => []
  | b :: rest =>
    ⟨(((b :: rest).map Bundle.leading).filter (!·.isEmpty)).flatMap (· ++ newline), b⟩ ::
      rest.map (⟨newline, ·⟩)

/-- The slots with a separator put above the first. -/
def lower (sep : Text) : List Slot → List Slot
  | [] => []
  | slot :: rest => ⟨sep ++ slot.above, slot.bundle⟩ :: rest

/-- The slots of the imports. -/
def importSlots (config : Configuration) (newline : Text) (all : List Bundle) : List Slot :=
  match (Group.canonical.map (members config all)).filter (!·.isEmpty) with
  | [] => []
  | first :: others =>
    groupSlots newline first ++ others.flatMap fun bs => lower (newline ++ newline) (groupSlots newline bs)

/-- The slot of a statement that is no import. -/
def codeSlot (newline : Text) (b : Bundle) : Slot :=
  ⟨newline ++ newline ++ (if b.leading.isEmpty then [] else b.leading ++ newline), b⟩

/-- The slots of the other statements, in the order of the source. -/
def codeSlots (newline : Text) (all : List Bundle) : List Slot :=
  (all.filter (!·.statement.isImport)).map (codeSlot newline)

/-! ## The text of the slots -/

theorem render_append (tail : Text) (slots slots' : List Slot) :
    render tail (slots ++ slots') = render (render tail slots') slots := by
  induction slots with
  | nil => rfl
  | cons slot rest ih => rw [List.cons_append, render, render, ih]

theorem render_lower (tail sep : Text) {slots : List Slot} (h : slots ≠ []) :
    render tail (lower sep slots) = sep ++ render tail slots := by
  cases slots with
  | nil => exact absurd rfl h
  | cons slot rest => rw [lower, render, render, List.append_assoc]

theorem joinWith_append_cons (sep t : Text) (ts us : List Text) :
    sep.joinWith (us ++ t :: ts) = us.flatMap (· ++ sep) ++ sep.joinWith (t :: ts) := by
  induction us with
  | nil => rfl
  | cons u us ih =>
    rw [List.cons_append, List.flatMap_cons, List.append_assoc, ← ih]
    cases us with
    | nil => rfl
    | cons v us => rfl

theorem render_map_newline (tail newline : Text) (bs : List Bundle) :
    render tail (bs.map (⟨newline, ·⟩)) = (bs.map Bundle.body).flatMap (newline ++ ·) ++ tail := by
  induction bs with
  | nil => rfl
  | cons b bs ih =>
    rw [List.map_cons, render, ih, List.map_cons, List.flatMap_cons, List.append_assoc, List.append_assoc]

theorem render_groupSlots (tail newline : Text) {bs : List Bundle} (h : bs ≠ []) :
    render tail (groupSlots newline bs) = newline.joinWith (groupLines bs) ++ tail := by
  cases bs with
  | nil => exact absurd rfl h
  | cons b rest =>
    rw [groupSlots, render, render_map_newline, groupLines, List.map_cons (f := Bundle.body),
      joinWith_append_cons, Text.joinWith_cons]
    simp only [List.append_assoc]

theorem render_lowered_groups (tail newline : Text) {groups : List (List Bundle)}
    (h : ∀ bs ∈ groups, bs ≠ []) :
    render tail (groups.flatMap fun bs => lower (newline ++ newline) (groupSlots newline bs)) =
      (groups.map fun bs => newline.joinWith (groupLines bs)).flatMap (newline ++ newline ++ ·) ++ tail := by
  induction groups with
  | nil => rfl
  | cons bs groups ih =>
    have hne := h bs (by simp)
    have hslots : groupSlots newline bs ≠ [] := by
      cases bs with
      | nil => exact absurd rfl hne
      | cons b rest => simp [groupSlots]
    rw [List.flatMap_cons, render_append, ih fun bs hbs => h bs (List.mem_cons_of_mem _ hbs),
      render_lower _ _ hslots, render_groupSlots _ _ hne, List.map_cons, List.flatMap_cons]
    simp only [List.append_assoc]

theorem movedText_eq {newline : Text} {b : Bundle} (h : b.body ≠ []) :
    movedText newline b = (if b.leading.isEmpty then [] else b.leading ++ newline) ++ b.body := by
  rw [movedText, List.filter_cons, List.filter_cons_of_pos (by simp [h]), List.filter_nil]
  cases hleading : b.leading.isEmpty <;> simp [Text.joinWith]

theorem render_codeSlots (tail newline : Text) {code : List Bundle} (h : ∀ b ∈ code, b.body ≠ []) :
    render tail (code.map (codeSlot newline)) =
      (code.map (movedText newline)).flatMap (newline ++ newline ++ ·) ++ tail := by
  induction code with
  | nil => rfl
  | cons b code ih =>
    rw [List.map_cons, render, ih fun b hb => h b (List.mem_cons_of_mem _ hb), List.map_cons,
      List.flatMap_cons, movedText_eq (h b (by simp)), codeSlot]
    simp only [List.append_assoc]

theorem exists_groups (config : Configuration) {all : List Bundle}
    (himport : ∃ b ∈ all, b.statement.isImport = true) :
    ∃ first others, (Group.canonical.map (members config all)).filter (!·.isEmpty) = first :: others ∧
      first ≠ [] ∧ ∀ bs ∈ others, bs ≠ [] := by
  generalize hgroups : (Group.canonical.map (members config all)).filter (!·.isEmpty) = groups
  have hne : ∀ bs ∈ groups, bs ≠ [] := by
    intro bs hbs
    rw [← hgroups] at hbs
    simpa using (List.mem_filter.mp hbs).2
  cases groups with
  | nil =>
    obtain ⟨b, hb, hpath⟩ := himport
    have hmem : b ∈ Group.canonical.flatMap (members config all) :=
      (members_perm config all).mem_iff.mpr (List.mem_filter.mpr ⟨hb, hpath⟩)
    rw [← flatten_groups, hgroups] at hmem
    simp at hmem
  | cons first others =>
    exact ⟨first, others, rfl, hne first (by simp), fun bs hbs => hne bs (List.mem_cons_of_mem _ hbs)⟩

/-- The slots give the text of the canonical form. -/
theorem canonicalText_append (config : Configuration) (newline tail : Text) {all : List Bundle}
    (himport : ∃ b ∈ all, b.statement.isImport = true) (hbody : ∀ b ∈ all, b.body ≠ []) :
    canonicalText config newline all ++ tail =
      render tail (importSlots config newline all ++ codeSlots newline all) := by
  obtain ⟨first, others, hgroups, hfirst, hothers⟩ := exists_groups config himport
  have hcode : ∀ b ∈ all.filter (!·.statement.isImport), b.body ≠ [] :=
    fun b hb => hbody b (List.mem_filter.mp hb).1
  rw [canonicalText, blocks, importSlots, hgroups, codeSlots]
  dsimp only
  rw [List.map_cons, List.cons_append, Text.joinWith_cons, render_append, render_append,
    render_codeSlots _ _ hcode, render_lowered_groups _ _ hothers, render_groupSlots _ _ hfirst,
    List.flatMap_append]
  simp only [List.append_assoc]

/-! ## Bundles of the same texts -/

/-- Two bundles hold the same texts, wherever they stand in a source. -/
structure Alike (b b' : Bundle) : Prop where
  text_eq : b.statement.text = b'.statement.text
  path_eq : b.statement.path = b'.statement.path
  leading_eq : b.leading = b'.leading
  trailing_eq : b.trailing = b'.trailing

/-- The groups that have members, when the members of each group are given by other items. -/
theorem groups_map {config : Configuration} {all : List Bundle} {α : Type} {f : α → Bundle}
    {items : Group → List α} (h : ∀ g, members config all g = (items g).map f) :
    (Group.canonical.map (members config all)).filter (!·.isEmpty) =
      ((Group.canonical.map items).filter (!·.isEmpty)).map (List.map f) := by
  have hmembers : Group.canonical.map (members config all) = (Group.canonical.map items).map (List.map f) := by
    rw [List.map_map]
    exact List.map_congr_left fun g _ => h g
  rw [hmembers, List.filter_map]
  congr 2
  funext bs
  rw [Function.comp_apply, List.isEmpty_map]

section

variable {config : Configuration} {f : Bundle → Bundle} (hf : ∀ b, Alike (f b) b)

include hf

theorem members_map (all : List Bundle) (g : Group) :
    members config (all.map f) g = (members config all g).map f := by
  have hfilter : (fun b : Bundle => b.statement.path.map config.classify == some g) ∘ f =
      fun b => b.statement.path.map config.classify == some g := by
    funext b
    rw [Function.comp_apply, (hf b).path_eq]
  unfold members
  rw [List.filter_map, hfilter]
  symm
  apply List.map_mergeSort
  intro a _ b _
  rw [(hf a).path_eq, (hf b).path_eq]

theorem map_body_map (all : List Bundle) : (all.map f).map Bundle.body = all.map Bundle.body := by
  rw [List.map_map]
  apply List.map_congr_left
  intro b _
  rw [Function.comp_apply, Bundle.body, Bundle.body, (hf b).text_eq, (hf b).trailing_eq]

theorem map_leading_map (all : List Bundle) : (all.map f).map Bundle.leading = all.map Bundle.leading := by
  rw [List.map_map]
  exact List.map_congr_left fun b _ => (hf b).leading_eq

theorem groupLines_map (all : List Bundle) : groupLines (all.map f) = groupLines all := by
  rw [groupLines, groupLines, map_body_map hf, map_leading_map hf]

theorem movedText_map (newline : Text) (b : Bundle) : movedText newline (f b) = movedText newline b := by
  rw [movedText, movedText, Bundle.body, Bundle.body, (hf b).text_eq, (hf b).leading_eq, (hf b).trailing_eq]

/-- The canonical form depends only on the texts of the bundles. -/
theorem canonicalText_map (newline : Text) (all : List Bundle) :
    canonicalText config newline (all.map f) = canonicalText config newline all := by
  have hgroups : (Group.canonical.map (members config (all.map f))).filter (!·.isEmpty) =
      ((Group.canonical.map (members config all)).filter (!·.isEmpty)).map (List.map f) :=
    groups_map (members_map hf all)
  have hcode : (all.map f).filter (!·.statement.isImport) = (all.filter (!·.statement.isImport)).map f := by
    rw [List.filter_map]
    congr 2
    funext b
    rw [Function.comp_apply, Statement.isImport, Statement.isImport, (hf b).path_eq]
  unfold canonicalText blocks
  dsimp only
  rw [hgroups, hcode, List.map_map, List.map_map]
  congr 2
  · exact List.map_congr_left fun bs _ => congrArg newline.joinWith (groupLines_map hf bs)
  · exact List.map_congr_left fun b _ => movedText_map hf newline b

end

/-! ## Neighbouring imports -/

theorem isSorted_trans (config : Configuration) (g : Group) (p q r : Text)
    (hpq : config.isSorted g p q = true) (hqr : config.isSorted g q r = true) :
    config.isSorted g p r = true :=
  lexLe_trans Text.le_trans Text.le_antisymm hpq hqr

theorem isSorted_total (config : Configuration) (g : Group) (p q : Text) :
    (config.isSorted g p q || config.isSorted g q p) = true := by
  rw [Bool.or_eq_true]
  exact lexLe_total Text.le_total _ _

theorem members_sorted (config : Configuration) (all : List Bundle) (g : Group) :
    (members config all g).Pairwise fun a b =>
      config.isSorted g (a.statement.path.getD []) (b.statement.path.getD []) = true := by
  apply List.pairwise_mergeSort
  · intro a b c
    exact isSorted_trans config g _ _ _
  · intro a b
    exact isSorted_total config g _ _

/-- The members of a group that are sorted already keep their order. -/
theorem members_of_sorted {config : Configuration} {all : List Bundle} {g : Group}
    (h : (all.filter fun b => b.statement.path.map config.classify == some g).Pairwise fun a b =>
      config.isSorted g (a.statement.path.getD []) (b.statement.path.getD []) = true) :
    members config all g = all.filter fun b => b.statement.path.map config.classify == some g :=
  List.mergeSort_of_pairwise h

theorem mem_of_mem_members {config : Configuration} {all : List Bundle} {g : Group} {b : Bundle}
    (h : b ∈ members config all g) : b ∈ all :=
  (List.mem_filter.mp ((List.mergeSort_perm _ _).mem_iff.mp h)).1

theorem group_of_mem_members {config : Configuration} {all : List Bundle} {g : Group} {b : Bundle}
    (h : b ∈ members config all g) : b.statement.path.map config.classify = some g := by
  have hmem := (List.mergeSort_perm _ _).mem_iff.mp h
  simpa using (List.mem_filter.mp hmem).2

/-- How one import stands below another: in the same group, sorted, on the next line; or in a later group, with
an empty line and the comments of that group between them. -/
inductive Below (config : Configuration) (newline : Text) (a b : Slot) : Prop
  | sameGroup {path path' : Text} : a.bundle.statement.path = some path →
      b.bundle.statement.path = some path' → config.classify path' = config.classify path →
      config.isSorted (config.classify path) path path' = true → b.above = newline → Below config newline a b
  | laterGroup {path path' comments : Text} : a.bundle.statement.path = some path →
      b.bundle.statement.path = some path' →
      (config.classify path).precedence < (config.classify path').precedence → Trivia.Closed comments →
      b.above = newline ++ (newline ++ comments) → Below config newline a b

section

variable {config : Configuration} {newline : Text} {g : Group}

theorem groupSlots_isChain {bs : List Bundle}
    (hgroup : ∀ b ∈ bs, b.statement.path.map config.classify = some g)
    (hsorted : bs.Pairwise fun a b =>
      config.isSorted g (a.statement.path.getD []) (b.statement.path.getD []) = true) :
    (groupSlots newline bs).IsChain (Below config newline) := by
  cases bs with
  | nil => exact .nil
  | cons b rest =>
    rw [groupSlots]
    -- what stands above the first is of no account
    generalize (((b :: rest).map Bundle.leading).filter (!·.isEmpty)).flatMap (· ++ newline) = above
    induction rest generalizing b above with
    | nil => exact .singleton _
    | cons b' rest ih =>
      rw [List.map_cons, List.isChain_cons_cons]
      refine ⟨?_, ih b' (fun d hd => hgroup d (List.mem_cons_of_mem _ hd)) (List.pairwise_cons.mp hsorted).2 _⟩
      obtain ⟨path, hpath, hclass⟩ := Option.map_eq_some_iff.mp (hgroup b (by simp))
      obtain ⟨path', hpath', hclass'⟩ := Option.map_eq_some_iff.mp (hgroup b' (by simp))
      have hle := (List.pairwise_cons.mp hsorted).1 b' (by simp)
      rw [hpath, hpath', Option.getD_some, Option.getD_some, ← hclass] at hle
      exact .sameGroup hpath hpath' (hclass'.trans hclass.symm) hle rfl

theorem bundle_mem_of_mem_groupSlots {bs : List Bundle} {slot : Slot} (h : slot ∈ groupSlots newline bs) :
    slot.bundle ∈ bs := by
  cases bs with
  | nil => simp [groupSlots] at h
  | cons b rest =>
    rw [groupSlots, List.mem_cons, List.mem_map] at h
    rcases h with rfl | ⟨b', hb', rfl⟩
    · simp
    · simp [hb']

theorem exists_mem_of_mem_lower {sep : Text} {slots : List Slot} {slot : Slot} (h : slot ∈ lower sep slots) :
    ∃ slot' ∈ slots, slot'.bundle = slot.bundle := by
  cases slots with
  | nil => simp [lower] at h
  | cons first rest =>
    rw [lower, List.mem_cons] at h
    rcases h with rfl | h
    · exact ⟨first, by simp, rfl⟩
    · exact ⟨slot, by simp [h], rfl⟩

theorem Below.of_bundle_eq {a a' b : Slot} (h : Below config newline a b) (hbundle : a.bundle = a'.bundle) :
    Below config newline a' b := by
  cases h with
  | sameGroup hpath hpath' hclass hle habove =>
    exact .sameGroup (hbundle ▸ hpath) hpath' hclass hle habove
  | laterGroup hpath hpath' hlt hclosed habove =>
    exact .laterGroup (hbundle ▸ hpath) hpath' hlt hclosed habove

theorem isChain_lower_iff {sep : Text} {slots : List Slot} :
    (lower sep slots).IsChain (Below config newline) ↔ slots.IsChain (Below config newline) := by
  cases slots with
  | nil => rfl
  | cons slot rest =>
    rw [lower, List.isChain_cons, List.isChain_cons]
    constructor
    · exact fun h => ⟨fun b hb => (h.1 b hb).of_bundle_eq rfl, h.2⟩
    · exact fun h => ⟨fun b hb => (h.1 b hb).of_bundle_eq rfl, h.2⟩

end

section

variable {config : Configuration} {newline : Text} {all : List Bundle}

theorem closed_append_newline {m : Text} (hnewline : IsNewline newline)
    (h : Trivia.Closed (m ++ ['\n'])) : Trivia.Closed (m ++ newline) := by
  rcases hnewline with rfl | rfl
  · exact h.carriage_return
  · exact h

theorem closed_newline (hnewline : IsNewline newline) : Trivia.Closed newline := by
  have hclosed : Trivia.Closed ([] ++ ['\n']) := .blank (by decide) .nil
  exact closed_append_newline hnewline hclosed

/-- The comments above a group are closed when those of its members are. -/
theorem closed_comments (hnewline : IsNewline newline) {bs : List Bundle}
    (h : ∀ b ∈ bs, Comments b.leading) :
    Trivia.Closed (((bs.map Bundle.leading).filter (!·.isEmpty)).flatMap (· ++ newline)) := by
  induction bs with
  | nil => exact .nil
  | cons b bs ih =>
    have hrest := ih fun d hd => h d (List.mem_cons_of_mem _ hd)
    rw [List.map_cons, List.filter_cons]
    split
    · rw [List.flatMap_cons]
      exact (closed_append_newline hnewline (h b (by simp)).closed).append hrest
    · exact hrest

theorem head?_comments {bs : List Bundle} (h : ∀ b ∈ bs, Comments b.leading) :
    ∀ c ∈ (((bs.map Bundle.leading).filter (!·.isEmpty)).flatMap (· ++ newline)).head?, c = '/' := by
  induction bs with
  | nil => simp
  | cons b bs ih =>
    rw [List.map_cons, List.filter_cons]
    split
    · rename_i hne
      have hne' : b.leading ≠ [] := by simpa using hne
      intro c hc
      rw [List.flatMap_cons, List.append_assoc, List.head?_append_of_ne_nil _ hne'] at hc
      exact (h b (by simp)).head c hc
    · exact ih fun d hd => h d (List.mem_cons_of_mem _ hd)

theorem head?_groupSlots {bs : List Bundle} {slot : Slot} (hnewline : IsNewline newline)
    (hleading : ∀ b ∈ bs, Comments b.leading) (h : (groupSlots newline bs).head? = some slot) :
    slot.bundle ∈ bs ∧ Trivia.Closed slot.above ∧ ∀ c ∈ slot.above.head?, c = '/' := by
  cases bs with
  | nil => simp [groupSlots] at h
  | cons b rest =>
    rw [groupSlots, List.head?_cons] at h
    obtain rfl := Option.some.inj h
    exact ⟨by simp, closed_comments hnewline hleading, head?_comments hleading⟩

theorem head?_lower {sep : Text} {slots : List Slot} :
    (lower sep slots).head? = slots.head?.map fun slot => ⟨sep ++ slot.above, slot.bundle⟩ := by
  cases slots <;> rfl

theorem lower_append {sep : Text} {slots : List Slot} (h : slots ≠ []) (rest : List Slot) :
    lower sep slots ++ rest = lower sep (slots ++ rest) := by
  cases slots with
  | nil => exact absurd rfl h
  | cons slot slots => rfl

/-- The groups behind the first: each begins with an empty line, in a group later than the one before. -/
theorem loweredGroups_isChain (hnewline : IsNewline newline)
    (hleading : ∀ b ∈ all, Comments b.leading) {gs : List Group}
    (hgs : gs.Pairwise fun g g' => g.precedence < g'.precedence) :
    let slots := gs.flatMap fun g => lower (newline ++ newline) (groupSlots newline (members config all g))
    slots.IsChain (Below config newline) ∧ ∀ slot ∈ slots.head?, ∃ g ∈ gs,
      slot.bundle.statement.path.map config.classify = some g ∧
      ∃ comments, Trivia.Closed comments ∧ slot.above = newline ++ (newline ++ comments) := by
  induction gs with
  | nil => exact ⟨.nil, by simp⟩
  | cons g gs ih =>
    obtain ⟨hlt, hrest⟩ := List.pairwise_cons.mp hgs
    obtain ⟨hchain, hhead⟩ := ih hrest
    have hgroup : ∀ b ∈ members config all g, b.statement.path.map config.classify = some g :=
      fun b hb => group_of_mem_members hb
    have hown : (lower (newline ++ newline) (groupSlots newline (members config all g))).IsChain
        (Below config newline) :=
      isChain_lower_iff.mpr (groupSlots_isChain hgroup (members_sorted config all g))
    dsimp only
    rw [List.flatMap_cons]
    refine ⟨List.isChain_append.mpr ⟨hown, hchain, ?_⟩, ?_⟩
    · -- the last slot of this group and the first one of a later group
      intro a ha b hb
      obtain ⟨g', hg', hclass', comments, hclosed, habove⟩ := hhead b hb
      obtain ⟨a', ha', hbundle⟩ := exists_mem_of_mem_lower (List.mem_of_getLast? ha)
      have hclass := hgroup _ (bundle_mem_of_mem_groupSlots ha')
      rw [hbundle] at hclass
      obtain ⟨path, hpath, rfl⟩ := Option.map_eq_some_iff.mp hclass
      obtain ⟨path', hpath', rfl⟩ := Option.map_eq_some_iff.mp hclass'
      exact .laterGroup hpath hpath' (hlt _ hg') hclosed habove
    · intro slot hslot
      rw [List.head?_append, Option.mem_def, Option.or_eq_some_iff] at hslot
      rcases hslot with hslot | ⟨-, hslot⟩
      · rw [head?_lower] at hslot
        obtain ⟨first, hfirst, rfl⟩ := Option.map_eq_some_iff.mp hslot
        obtain ⟨hmem, hclosed, -⟩ := head?_groupSlots hnewline
          (fun b hb => hleading b (mem_of_mem_members hb)) hfirst
        exact ⟨g, by simp, hgroup _ hmem, first.above, hclosed, List.append_assoc _ _ _⟩
      · obtain ⟨g', hg', hrest'⟩ := hhead slot hslot
        exact ⟨g', List.mem_cons_of_mem _ hg', hrest'⟩

theorem map_bundle_groupSlots (newline : Text) (bs : List Bundle) :
    (groupSlots newline bs).map Slot.bundle = bs := by
  cases bs with
  | nil => rfl
  | cons b rest =>
    rw [groupSlots, List.map_cons, List.map_map]
    exact congrArg (b :: ·) (List.map_id rest)

/-- Each import slot stands right below the one before, and only closed trivia stands above the first. -/
theorem importSlots_isChain (hnewline : IsNewline newline)
    (hleading : ∀ b ∈ all, Comments b.leading) :
    (importSlots config newline all).IsChain (Below config newline) ∧
      ∀ slot ∈ (importSlots config newline all).head?,
        Trivia.Closed slot.above ∧ ∀ c ∈ slot.above.head?, c = '/' := by
  have hfilter : (Group.canonical.map (members config all)).filter (!·.isEmpty) =
      (Group.canonical.filter fun g => !(members config all g).isEmpty).map (members config all) :=
    List.filter_map
  have hsorted : (Group.canonical.filter fun g => !(members config all g).isEmpty).Pairwise
      fun g g' => g.precedence < g'.precedence :=
    List.Pairwise.filter _ (by decide)
  rw [importSlots, hfilter]
  cases hgs : Group.canonical.filter fun g => !(members config all g).isEmpty with
  | nil => exact ⟨.nil, by simp⟩
  | cons g gs =>
    rw [hgs] at hsorted
    have hmem : g ∈ Group.canonical.filter fun g => !(members config all g).isEmpty := by
      rw [hgs]
      simp
    have hne : groupSlots newline (members config all g) ≠ [] := by
      intro hnil
      have hmap := map_bundle_groupSlots newline (members config all g)
      rw [hnil] at hmap
      simp [← hmap] at hmem
    -- the first group differs from the others only in what stands above it
    obtain ⟨hchain, -⟩ := @loweredGroups_isChain config _ _ hnewline hleading _ hsorted
    rw [List.flatMap_cons, lower_append hne, isChain_lower_iff] at hchain
    rw [List.map_cons]
    dsimp only
    rw [List.flatMap_map]
    refine ⟨hchain, fun slot hslot => ?_⟩
    rw [List.head?_append_of_ne_nil _ hne] at hslot
    exact (head?_groupSlots hnewline (fun b hb => hleading b (mem_of_mem_members hb)) hslot).2

theorem map_bundle_lower (sep : Text) (slots : List Slot) :
    (lower sep slots).map Slot.bundle = slots.map Slot.bundle := by
  cases slots <;> rfl

/-- The import slots hold the members of the groups in canonical order. -/
theorem map_bundle_importSlots (config : Configuration) (newline : Text) (all : List Bundle) :
    (importSlots config newline all).map Slot.bundle = Group.canonical.flatMap (members config all) := by
  rw [← flatten_groups, importSlots]
  split
  · rename_i hnil
    rw [hnil]
    rfl
  · rename_i first others hgroups
    have hothers : (fun bs => (lower (newline ++ newline) (groupSlots newline bs)).map Slot.bundle) = id := by
      funext bs
      rw [map_bundle_lower, map_bundle_groupSlots]
      rfl
    rw [hgroups, List.map_append, map_bundle_groupSlots, List.map_flatMap, hothers, List.flatMap_id,
      List.flatten_cons]

theorem map_bundle_codeSlots (newline : Text) (all : List Bundle) :
    (codeSlots newline all).map Slot.bundle = all.filter (!·.statement.isImport) := by
  rw [codeSlots, List.map_map]
  exact List.map_id _

end

end ImportOrder.Plan
