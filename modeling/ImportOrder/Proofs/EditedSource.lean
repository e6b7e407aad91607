import ImportOrder.Proofs.Rereading
import ImportOrder.Scan
import Mathlib.Data.List.TakeWhile
import ImportOrder.Runtime

/-!
# The edited source

The source with the edit made, read from its beginning: the code above the first import, the imports in canonical
order, and what the last of them leaves. When the edit does not disturb reading, the same imports and the same
tokens of other code are found.
-/

namespace ImportOrder

open Source

namespace Source

theorem dropInterpreterLine_eq_self {t : Text} (h : ¬['#', '!'] <+: t) : dropInterpreterLine t = t := by
  unfold dropInterpreterLine
  split
  · rename_i rest
    exact absurd ⟨rest, rfl⟩ h
  · rfl

theorem not_interpreter_append {a k : Text} (ha : ¬['#', '!'] <+: a)
    (hk : ∀ c ∈ k.head?, c ≠ '#' ∧ c ≠ '!') : ¬['#', '!'] <+: a ++ k := by
  rintro ⟨rest, hrest⟩
  match a, ha with
  | [], _ =>
    obtain rfl : '#' :: '!' :: rest = k := hrest
    exact (hk '#' rfl).1 rfl
  | [c], _ =>
    obtain rfl : '!' :: rest = k := (List.cons.inj hrest).2
    exact (hk '!' rfl).2 rfl
  | c :: d :: a, ha =>
    have hc : '#' = c ∧ '!' = d := by
      simp only [List.cons_append, List.nil_append, List.cons.injEq] at hrest
      exact ⟨hrest.1, hrest.2.1⟩
    obtain ⟨rfl, rfl⟩ := hc
    exact ha ⟨a, rfl⟩

/-- The interpreter line stays when the text changes behind it. -/
theorem dropInterpreterLine_swap {a b k k' : Text} (hk : ∀ c ∈ k.head?, c ≠ '#' ∧ c ≠ '!')
    (hk' : ∀ c ∈ k'.head?, c ≠ '#' ∧ c ≠ '!') (hline : ∃ c, k.head? = some c ∧ c ≠ '\n')
    (h : dropInterpreterLine (a ++ k) = b ++ k) : dropInterpreterLine (a ++ k') = b ++ k' := by
  by_cases ha : ['#', '!'] <+: a
  · obtain ⟨body, rfl⟩ := ha
    have hfrom : Trivia.fromLineFeed (body ++ k) = b ++ k := h
    show Trivia.fromLineFeed (body ++ k') = b ++ k'
    cases b with
    | nil =>
      -- the interpreter line would end at `k`, which does not begin with a line feed
      obtain ⟨c, hc, hne⟩ := hline
      have hnot := List.head?_dropWhile_not (fun c => c != '\n') (body ++ k)
      rw [Trivia.fromLineFeed] at hfrom
      rw [hfrom, List.nil_append, hc] at hnot
      simp [hne] at hnot
    | cons d b => exact dropWhile_cons_swap hfrom
  · rw [dropInterpreterLine_eq_self (not_interpreter_append ha hk)] at h
    rw [dropInterpreterLine_eq_self (not_interpreter_append ha hk'), List.append_cancel_right h]

/-- Code in front of an outline that begins with a declaration, or of the end. -/
theorem CodeRun.exists_outline [Stack] {state state' : State} {t t' : Text} {tokens : List Piece}
    {sections : List Section} (h : CodeRun state t tokens state' t') (houtline : Outline state' t' sections)
    (hnext : ∀ s ∈ sections.head?, s.piece.path.isSome) :
    ∃ parts, Outline state t (parts ++ sections) ∧ (∀ s ∈ parts, s.piece.path = none) ∧
      parts.flatMap Section.tokens = tokens := by
  by_cases hne : tokens = []
  · subst hne
    cases h
    exact ⟨[], houtline, by simp, rfl⟩
  · refine ⟨[⟨⟨Trivia.drop t, t', none⟩, tokens⟩], ?_, by simp, by simp⟩
    exact .code rfl hne (h.of_drop_eq hne (Trivia.drop_drop t)) hnext houtline

end Source

theorem exists_parse_of_scan [Stack] {config : Configuration} {filename : String} {source : Text} {result : ScanResult}
    (h : scan config filename source = .ok result) : ∃ document, Document.parse source = .ok document := by
  unfold scan at h
  dsimp only at h
  split at h
  · simp at h
  · rename_i document hparse
    exact ⟨document, hparse⟩

/-- A text that has an outline can be read. -/
theorem Document.parse_of_outline [Stack] {source : Text} {sections : List Section}
    (h : Outline State.initial (dropInterpreterLine source) sections) :
    ∃ document, parse source = .ok document ∧
      document.statements = sections.map fun s => statementIn source s.piece := by
  refine ⟨⟨LineIndex.ofText source, (sections.map Section.piece).map (statementIn source)⟩, ?_, ?_⟩
  · unfold parse
    rw [h.pieces_eq]
    dsimp only
    rw [h.joinCode_eq]
  · rw [List.map_map]
    rfl

namespace Plan

/-! ## The text of the edited source -/

theorem exists_import_of_plan {config : Configuration} {source : Text} {statements : List Statement}
    {edit : Edit} (h : plan config source statements = some edit) : ∃ s ∈ statements, s.isImport = true := by
  by_contra hnone
  have hdrop : statements.dropWhile (!·.isImport) = [] := by
    rw [List.dropWhile_eq_nil_iff]
    intro s hs
    simpa using fun himport => hnone ⟨s, hs, himport⟩
  rw [plan, span, hdrop] at h
  simp [bundles] at h

section

variable {config : Configuration} {source : Text} {all : List Bundle} {first last : Statement}
  {trailing skipped pushed below : Text} {edit : Edit}
  (h : EditShape config source all first last trailing skipped pushed below edit)

include h

theorem EditShape.onward_eq (hfits : last.Fits source) : source.onward edit.stop = below := by
  obtain ⟨hle, hstop, hslice⟩ := h.stop_le hfits
  have hstart := hfits.start_nonneg
  have hlt := hfits.start_lt_stop
  have honward := Text.slice_append_onward source (by omega : 0 ≤ last.stop) hle hstop
  rw [hslice, h.behind, List.append_assoc] at honward
  exact List.append_cancel_left (List.append_cancel_left honward)

theorem EditShape.tailOf_eq (hfits : last.Fits source) : tailOf config source all edit = pushed ++ below := by
  rw [tailOf, h.replacement_eq, List.drop_left, h.onward_eq hfits]

theorem EditShape.closesLine (hfits : last.Fits source) : ClosesLine (tailOf config source all edit) := by
  rw [h.tailOf_eq hfits]
  rcases h.pushed_eq with hpushed | ⟨hpushed, -, b, rest, hbelow, hb, hrest⟩
  · rw [hpushed]
    exact closesLine_newline (isNewline_newlineOf source) below
  · rw [hpushed, hbelow, List.nil_append]
    exact closesLine_of_blanks hb fun c hc => .inr (hrest c hc)

/-- The edited source is what stands above the first import, and then the slots. -/
theorem EditShape.apply_eq (himport : ∃ b ∈ all, b.statement.isImport = true)
    (hbody : ∀ b ∈ all, b.body ≠ []) :
    edit.apply source = source.upTo first.start ++
      render (belowImports config source all edit) (importSlots config (newlineOf source) all) := by
  have htail : edit.replacement ++ source.onward edit.stop =
      canonicalText config (newlineOf source) all ++ tailOf config source all edit := by
    rw [tailOf, h.replacement_eq, List.drop_left, List.append_assoc]
  rw [Edit.apply, List.append_assoc, htail, canonicalText_append config _ _ himport hbody, render_append,
    h.start_eq]
  rfl

end

/-! ## Slots of a span -/

section

variable {config : Configuration} {newline : Text} {all : List Bundle} {slot : Slot}

theorem mem_of_mem_importSlots (h : slot ∈ importSlots config newline all) :
    slot.bundle ∈ all ∧ slot.bundle.statement.isImport = true := by
  have hmem : slot.bundle ∈ Group.canonical.flatMap (members config all) := by
    rw [← map_bundle_importSlots config newline all]
    exact List.mem_map_of_mem h
  exact List.mem_filter.mp ((members_perm config all).mem_iff.mp hmem)

theorem mem_of_mem_codeSlots (h : slot ∈ codeSlots newline all) :
    slot.bundle ∈ all ∧ slot.bundle.statement.isImport = false := by
  have hmem : slot.bundle ∈ all.filter (!·.statement.isImport) := by
    rw [← map_bundle_codeSlots newline all]
    exact List.mem_map_of_mem h
  simpa using List.mem_filter.mp hmem

theorem importSlots_ne_nil (himport : ∃ b ∈ all, b.statement.isImport = true) :
    importSlots config newline all ≠ [] := by
  intro hnil
  obtain ⟨b, hb, hpath⟩ := himport
  have hmem : b ∈ Group.canonical.flatMap (members config all) :=
    (members_perm config all).mem_iff.mpr (List.mem_filter.mpr ⟨hb, hpath⟩)
  rw [← map_bundle_importSlots config newline all, hnil] at hmem
  simp at hmem

theorem importSlots_onNewLine (hnewline : IsNewline newline)
    (hleading : ∀ b ∈ all, Comments b.leading) :
    ∀ slot ∈ (importSlots config newline all).tail, slot.OnNewLine newline := by
  have hchain := (@importSlots_isChain config _ _ hnewline hleading).1
  generalize importSlots config newline all = slots at hchain
  induction slots with
  | nil => simp
  | cons first rest ih =>
    obtain ⟨hnext, hrest⟩ := List.isChain_cons.mp hchain
    intro slot hslot
    cases rest with
    | nil => simp at hslot
    | cons second rest =>
      rcases List.mem_cons.mp hslot with rfl | hslot
      · exact (hnext slot rfl).onNewLine hnewline
      · exact ih hrest slot hslot

theorem codeSlots_onNewLine (hnewline : IsNewline newline)
    (hleading : ∀ b ∈ all, Comments b.leading) : ∀ slot ∈ codeSlots newline all, slot.OnNewLine newline := by
  intro slot hslot
  obtain ⟨b, hb, rfl⟩ := List.mem_map.mp hslot
  exact codeSlot_onNewLine hnewline (hleading b (List.mem_filter.mp hb).1)

end

theorem sameEdge_of_head {k k' : Text} (hk : k.head? = some 'i') (hk' : ∀ c ∈ k'.head?, c = '/' ∨ c = 'i') :
    SameEdge k k' := by
  cases k' with
  | nil => exact .inr (by simp)
  | cons c rest =>
    rcases hk' c rfl with rfl | rfl
    · right
      intro c hc
      obtain rfl : '/' = c := by simpa using hc
      decide
    · exact .inl hk.symm

/-! ## Edits of a source that was read -/

/-- An edit that was planned for a source that was read. -/
structure Planned [Stack] (config : Configuration) (source : Text) (document : Document) (all : List Bundle)
    (edit : Edit) (front middle back : List Statement) (first last : Statement) : Prop where
  parse : Document.parse source = .ok document
  spanned : Spanned document.statements front middle back
  span_eq : span source document.statements = all
  head : middle.head? = some first
  getLast : middle.getLast? = some last
  shape : ∃ skipped pushed below, EditShape config source all first last
    (splitGap (gapAfter source last back)).1 skipped pushed below edit

theorem exists_planned [Stack] {config : Configuration} {source : Text} {document : Document} {edit : Edit}
    (hparse : Document.parse source = .ok document)
    (hplan : plan config source document.statements = some edit) :
    ∃ front middle back first last, Planned config source document (span source document.statements) edit
      front middle back first last := by
  obtain ⟨front, middle, back, hspanned⟩ := exists_spanned (exists_import_of_plan hplan)
  obtain ⟨first, hfirst, -⟩ := hspanned.first_import
  obtain ⟨last, hlast, -⟩ := hspanned.last_import
  obtain ⟨edit', skipped, pushed, below, hplan', hshape⟩ := hspanned.exists_edit
    (Document.fits_of_parse hparse) (Document.follows_of_parse hparse) config hfirst hlast
  obtain rfl : edit = edit' := Option.some.inj (hplan.symm.trans hplan')
  exact ⟨front, middle, back, first, last, hparse, hspanned, rfl, hfirst, hlast, skipped, pushed, below, hshape⟩

namespace Planned

variable [Stack] {config : Configuration} {source : Text} {document : Document} {all : List Bundle} {edit : Edit}
  {front middle back : List Statement} {first last : Statement}
  (h : Planned config source document all edit front middle back first last)

include h

theorem all_eq : all = (bundles source [] (middle ++ back)).take middle.length := by
  rw [← h.span_eq, h.spanned.span_eq]

theorem mem_middle {b : Bundle} (hb : b ∈ all) : b.statement ∈ middle := by
  rw [← h.span_eq] at hb
  exact h.spanned.mem_of_mem_span hb

theorem mem_statements {s : Statement} (hs : s ∈ middle) : s ∈ document.statements := by
  rw [h.spanned.eq_append]
  simp [hs]

theorem fits {b : Bundle} (hb : b ∈ all) : b.statement.Fits source :=
  Document.fits_of_parse h.parse _ (h.mem_statements (h.mem_middle hb))

theorem last_fits : last.Fits source :=
  Document.fits_of_parse h.parse _ (h.mem_statements (List.mem_of_getLast? h.getLast))

theorem lineComment {b : Bundle} (hb : b ∈ all) : LineComment b.trailing := by
  rw [h.all_eq] at hb
  exact lineComment_of_mem_bundles (List.mem_of_mem_take hb)

theorem map_statement : all.map Bundle.statement = middle := by
  rw [h.all_eq, List.map_take, map_statement_bundles, List.take_left]

theorem exists_import : ∃ b ∈ all, b.statement.isImport = true := by
  rw [← h.span_eq]
  exact h.spanned.exists_import_mem_span source

theorem fromFirst_eq : fromFirst source all = source.onward first.start := by
  obtain ⟨b, hb, rfl, -⟩ := head?_bundles source [] h.head back
  rw [← h.all_eq] at hb
  rw [fromFirst, hb]
  rfl

theorem behindLast_eq : behindLast source all = source.onward last.stop := by
  obtain ⟨b, hb, rfl, -⟩ := getLast?_bundles source [] h.getLast back
  rw [← h.all_eq] at hb
  rw [behindLast, hb]
  rfl

theorem tail_closesLine : ClosesLine (tailOf config source all edit) := by
  obtain ⟨skipped, pushed, below, hshape⟩ := h.shape
  exact hshape.closesLine h.last_fits

theorem apply_eq : edit.apply source = source.upTo first.start ++
    render (belowImports config source all edit)
      (importSlots config (newlineOf source) all) := by
  obtain ⟨skipped, pushed, below, hshape⟩ := h.shape
  exact hshape.apply_eq h.exists_import fun b hb => body_ne_nil (h.fits hb)

/-- What stands above the statements of the span are comments, when those that close lines are whole. -/
theorem comments (hwhole : ∀ b ∈ all.dropLast,
    Trivia.Closed (b.trailing ++ ['\n'])) : ∀ b ∈ all, Comments b.leading := by
  have hchain := Document.follows_of_parse h.parse
  rw [h.spanned.eq_append, List.isChain_append, List.isChain_append] at hchain
  have hnil : Comments [] := ⟨.blank (by decide) .nil, by simp⟩
  rw [h.all_eq] at hwhole ⊢
  exact comments_of_mem_bundles hchain.2.1.1 hnil hwhole

theorem isDeclaration {slot : Slot}
    (hslot : slot ∈ importSlots config (newlineOf source) all) :
    IsDeclaration source slot.bundle.statement := by
  obtain ⟨hmem, himport⟩ := mem_of_mem_importSlots hslot
  exact isDeclaration_of_parse h.parse (h.mem_statements (h.mem_middle hmem)) himport

theorem flatMap_codeSlots (newline : Text) :
    (codeSlots newline all).flatMap (fun slot => (slot.bundle.statement.survey source).tokens) =
      (middle.filter (!·.isImport)).flatMap fun s => (s.survey source).tokens := by
  rw [← h.map_statement, List.filter_map, List.flatMap_map]
  show _ = (all.filter (!·.statement.isImport)).flatMap _
  rw [← map_bundle_codeSlots newline all, List.flatMap_map]

section

variable (himports : ImportsUndisturbed config source all edit)

include himports

theorem comments_of_undisturbed : ∀ b ∈ all, Comments b.leading :=
  h.comments fun b hb => himports.whole b (by simp [hb])

theorem below_closesLine : ClosesLine (belowImports config source all edit) := by
  apply closesLine_render (isNewline_newlineOf source) h.tail_closesLine
  intro slot hslot
  exact codeSlots_onNewLine (isNewline_newlineOf source) (h.comments_of_undisturbed himports) slot
    (List.mem_of_head? hslot)

theorem importRow :
    ImportRow source (newlineOf source) (belowImports config source all edit)
      (importSlots config (newlineOf source) all) where
  fits := fun _ hslot => h.fits (mem_of_mem_importSlots hslot).1
  comment := fun _ hslot => h.lineComment (mem_of_mem_importSlots hslot).1
  lines := importSlots_onNewLine (isNewline_newlineOf source) (h.comments_of_undisturbed himports)
  whole := fun _ hslot => himports.whole _ (List.mem_append_right _ (List.mem_map_of_mem hslot))
  declaration := fun _ hslot => h.isDeclaration hslot
  looks := himports.looks
  isNewline := isNewline_newlineOf source
  tail_closes := h.below_closesLine himports

/-- The slots begin with a comment or with the keyword of the first import. -/
theorem head?_render (tail : Text) : ∀ c ∈ (render tail
    (importSlots config (newlineOf source) all)).head?, c = '/' ∨ c = 'i' := by
  intro c hc
  have habove := (@importSlots_isChain config _ _ (isNewline_newlineOf source) (h.comments_of_undisturbed himports)).2
  have hdecl := fun slot hslot => @isDeclaration _ _ _ _ _ _ _ _ _ _ _ h slot hslot
  have hne : importSlots config (newlineOf source) all ≠ [] := importSlots_ne_nil h.exists_import
  cases hslots : importSlots config (newlineOf source) all with
  | nil => exact absurd hslots hne
  | cons slot rest =>
    rw [hslots] at hc habove hdecl
    have hhead := (hdecl slot (by simp)).head?
    rw [render] at hc
    cases hnil : slot.above with
    | nil =>
      obtain ⟨text, htext⟩ := List.head?_eq_some_iff.mp hhead
      rw [hnil, Bundle.body, htext] at hc
      exact .inr (by simpa using hc.symm)
    | cons d above =>
      rw [hnil] at hc
      obtain rfl : d = c := by simpa using hc
      exact .inl ((habove slot rfl).2 d (by rw [hnil]; rfl))

/-- The code above the imports is read before the slots as it was before the first import. -/
theorem exists_front {above behind : List Piece} (hreading : Reading source middle first last above behind) :
    ∃ tokens state t, CodeRun State.initial (dropInterpreterLine (edit.apply source)) tokens state t ∧
      tokens.map Piece.text = above.map Piece.text ∧ state.depth = 0 ∧ state.last ≠ .mark '.' ∧
      Trivia.drop t = Trivia.drop
        (render (belowImports config source all edit) (importSlots config (newlineOf source) all)) := by
  have happly := h.apply_eq
  have hhead := h.head?_render himports (belowImports config source all edit)
  have hfront := himports.front
  rw [h.fromFirst_eq] at hfront
  generalize render (belowImports config source all edit) (importSlots config (newlineOf source) all) = k'
    at happly hhead hfront ⊢
  obtain ⟨gap, state, hrun, hgap, path, after, hnext⟩ := hreading.above_run
  obtain ⟨pre, hpre⟩ := (List.suffix_append gap (source.onward first.start)).trans hrun.suffix
  rw [← hpre] at hrun hfront
  have hfirst := head?_declaration hnext
  have hk : source.onward first.start ≠ [] := by
    intro hnil
    simp [hnil] at hfirst
  have hnext' : declarationAt state (Trivia.drop (gap ++ source.onward first.start)) =
      .ok (some (path, after)) := by
    rw [hgap.drop_append, drop_of_head hfirst, hnext]
  -- the slots begin with a comment or the keyword, so no word runs on into them
  obtain ⟨tokens, hrun', htexts⟩ := hrun.swap (sameEdge_of_head hfirst hhead) hk hfront hnext'
  have hdrop : dropInterpreterLine (edit.apply source) = pre ++ k' := by
    rw [happly]
    apply dropInterpreterLine_swap (k := source.onward first.start)
    · simp [hfirst]
    · intro c hc
      rcases hhead c hc with rfl | rfl <;> decide
    · exact ⟨'i', hfirst, by decide⟩
    · rw [Text.upTo_append_onward, hpre]
  obtain ⟨hdepth, hlast⟩ := depth_of_declarationAt hnext
  rw [← hdrop] at hrun'
  exact ⟨tokens, state, _, hrun', htexts, hdepth, hlast, hgap.drop_append _⟩

theorem drop_importSlots (tail : Text) :
    ∃ slot, (importSlots config (newlineOf source) all).head? = some slot ∧
      Trivia.drop (render tail (importSlots config (newlineOf source) all)) =
        Trivia.drop (slot.bundle.statement.text ++ (slot.bundle.trailing ++
          render tail (importSlots config (newlineOf source) all).tail)) := by
  have habove := (@importSlots_isChain config _ _ (isNewline_newlineOf source) (h.comments_of_undisturbed himports)).2
  have hne : importSlots config (newlineOf source) all ≠ [] := importSlots_ne_nil h.exists_import
  generalize importSlots config (newlineOf source) all = slots at habove hne ⊢
  obtain ⟨slot, rest, rfl⟩ := List.exists_cons_of_ne_nil hne
  exact ⟨slot, rfl, drop_render (habove slot rfl).1⟩

/-- The edited source: the code above the imports, the imports, and what stands in `left` behind them. -/
theorem exists_outline {left : Text} {sections : List Section} {above behind : List Piece}
    (hreading : Reading source middle first last above behind)
    (hleft : leftBehindImports config source all edit = .ok left)
    (houtline : Outline ⟨0, .mark ';'⟩ left sections) :
    ∃ parts, Outline State.initial (dropInterpreterLine (edit.apply source))
      (parts ++ (declarations left (belowImports config source all edit)
        (importSlots config (newlineOf source) all) ++ sections)) ∧
      (∀ s ∈ parts, s.piece.path = none) ∧
      (parts.flatMap Section.tokens).map Piece.text = above.map Piece.text := by
  obtain ⟨tokens, state, t, hrun, htexts, hdepth, hlast, ht⟩ := h.exists_front himports hreading
  obtain ⟨slot, hslot, hdrop⟩ := h.drop_importSlots himports (belowImports config source all edit)
  have hleft' : ∀ slot ∈ (importSlots config (newlineOf source) all).getLast?,
      leftBehind slot.bundle.statement.text
        (slot.bundle.trailing ++ belowImports config source all edit) = .ok left := by
    intro slot hslot
    rw [leftBehindImports, behindImports, show _ = some slot from hslot] at hleft
    exact hleft
  have hrow := h.importRow himports
  have houtline' := hrow.outline hleft' houtline hdepth hlast hslot (ht.trans hdrop)
  -- the imports begin with a declaration
  obtain ⟨rest, hcons⟩ := List.head?_eq_some_iff.mp hslot
  obtain ⟨-, path, hpath, -⟩ := hrow.declaration slot (List.mem_of_head? hslot)
  obtain ⟨after, others, hdecls⟩ :=
    exists_declarations_cons left (belowImports config source all edit) slot rest
  obtain ⟨parts, hparts, hcode, htokens⟩ := hrun.exists_outline houtline' (by
    simp [hcons, hdecls, declared, hpath])
  exact ⟨parts, hparts, hcode, by rw [htokens, htexts]⟩

/-- When the edited source can be read, so can what the last import leaves in it. -/
theorem exists_left {found : List Piece} {above behind : List Piece}
    (hreading : Reading source middle first last above behind)
    (hfound : pieces State.initial (dropInterpreterLine (edit.apply source)) = .ok found) :
    ∃ left others, leftBehindImports config source all edit = .ok left ∧
      pieces ⟨0, .mark ';'⟩ left = .ok others := by
  obtain ⟨tokens, state, t, hrun, -, hdepth, hlast, ht⟩ := h.exists_front himports hreading
  obtain ⟨slot, hslot, hdrop⟩ := h.drop_importSlots himports (belowImports config source all edit)
  rw [hrun.pieces_eq] at hfound
  obtain ⟨others, hothers, -⟩ := exists_of_map_ok hfound
  obtain ⟨left, others', hleft, hothers'⟩ :=
    (h.importRow himports).exists_left hdepth hlast hslot (ht.trans hdrop) hothers
  refine ⟨left, others', ?_, hothers'⟩
  have hne : importSlots config (newlineOf source) all ≠ [] := importSlots_ne_nil h.exists_import
  have hlast' := List.getLast?_eq_some_getLast hne
  rw [leftBehindImports, behindImports, hlast']
  exact hleft _ hlast'

theorem row_slots (hcode : CodeUndisturbed config source all edit) :
    Row source (newlineOf source) (slots config source all) := by
  have hcomments := h.comments_of_undisturbed himports
  have hmem : ∀ slot ∈ slots config source all, slot.bundle ∈ all := by
    intro slot hslot
    rcases List.mem_append.mp hslot with hslot | hslot
    · exact (mem_of_mem_importSlots hslot).1
    · exact (mem_of_mem_codeSlots hslot).1
  refine ⟨fun slot hslot => h.fits (hmem slot hslot), fun slot hslot => h.lineComment (hmem slot hslot), ?_,
    hcode.whole⟩
  intro slot hslot
  rw [slots, List.tail_append_of_ne_nil (importSlots_ne_nil h.exists_import)] at hslot
  rcases List.mem_append.mp hslot with hslot | hslot
  · exact importSlots_onNewLine (isNewline_newlineOf source) hcomments slot hslot
  · exact codeSlots_onNewLine (isNewline_newlineOf source) hcomments slot hslot

/-- What stands behind the imports of the edited source is read as the other code of the span, and then the code
behind the last import. -/
theorem outline_behindImports (hcode : CodeUndisturbed config source all edit) {above behind : List Piece}
    (hreading : Reading source middle first last above behind) :
    ∃ sections, Outline ⟨0, .mark ';'⟩ (behindImports config source all edit) sections ∧
      (∀ s ∈ sections, s.piece.path = none) ∧ (sections.flatMap Section.tokens).map Piece.text =
        ((middle.filter (!·.isImport)).flatMap (fun s => (s.survey source).tokens) ++ behind).map
          Piece.text := by
  have hbelow := hcode.below
  have hseams := hcode.seams
  rw [h.behindLast_eq] at hbelow hseams
  have hne : importSlots config (newlineOf source) all ≠ [] := importSlots_ne_nil h.exists_import
  have hslot := List.getLast?_eq_some_getLast hne
  generalize (importSlots config (newlineOf source) all).getLast hne = slot at hslot
  obtain ⟨others, hslots⟩ := List.getLast?_eq_some_iff.mp hslot
  -- the last import and the other statements below it
  have hsplit : slots config source all = others ++ (slot :: codeSlots (newlineOf source) all) := by
    rw [slots, hslots, List.append_assoc, List.singleton_append]
  have hrow : Row source (newlineOf source) (slot :: codeSlots (newlineOf source) all) := by
    have hall := h.row_slots himports hcode
    rw [hsplit] at hall
    exact hall.right
  have hbelow' : ∀ s ∈ (slot :: codeSlots (newlineOf source) all).getLast?,
      Trivia.drop (s.bundle.trailing ++ tailOf config source all edit) =
        Trivia.drop (source.onward last.stop) := by
    intro s hs
    apply hbelow
    rw [hsplit, List.getLast?_append, show List.getLast? _ = some s from hs]
    rfl
  have hcode' : ∀ s ∈ codeSlots (newlineOf source) all, IsCode source s.bundle.statement := by
    intro s hs
    obtain ⟨hmem, hnot⟩ := mem_of_mem_codeSlots hs
    exact h.spanned.isCode h.parse (h.mem_middle hmem) hnot
  obtain ⟨state, rest, hrun, hrest⟩ := hreading.behind_run
  obtain ⟨tokens, state', rest', hrun', hrest', htexts⟩ := run_codeSlots (isNewline_newlineOf source)
    h.tail_closesLine hrow hcode' hcode.looks (by simp) hseams hbelow' hrun hrest
  obtain ⟨sections, houtline, hpath, htokens⟩ := hrun'.exists_outline (.done hrest') (by simp)
  rw [List.append_nil] at houtline
  refine ⟨sections, ?_, hpath, ?_⟩
  · rw [behindImports, hslot]
    exact houtline
  · rw [htokens, htexts, h.flatMap_codeSlots]

end

end Planned

/-- The fix of a scan is the edit that was planned, and makes the text of that edit. -/
theorem plan_of_scan [Stack] {config : Configuration} {filename : String} {source : Text} {document : Document}
    {result : ScanResult} {edit : Edit} (hparse : Document.parse source = .ok document)
    (hscan : scan config filename source = .ok result) (hfix : result.fix = some edit) :
    plan config source document.statements = some edit ∧ result.applyFix source = edit.apply source := by
  constructor
  · unfold scan at hscan
    rw [hparse] at hscan
    dsimp only at hscan
    split at hscan
    · rw [← Except.ok.inj hscan] at hfix
      simp at hfix
    · rw [← Except.ok.inj hscan] at hfix
      exact hfix
  · rw [ScanResult.applyFix, hfix]

theorem exists_planned_of_scan [Stack] {config : Configuration} {filename : String} {source : Text}
    {result : ScanResult}
    {edit : Edit} (hscan : scan config filename source = .ok result) (hfix : result.fix = some edit) :
    ∃ document front middle back first last, Planned config source document (span source document.statements) edit
      front middle back first last ∧ result.applyFix source = edit.apply source := by
  obtain ⟨document, hparse⟩ := exists_parse_of_scan hscan
  obtain ⟨hplan, happly⟩ := plan_of_scan hparse hscan hfix
  obtain ⟨front, middle, back, first, last, hplanned⟩ := exists_planned hparse hplan
  exact ⟨document, front, middle, back, first, last, hplanned, happly⟩

section

open ImportOrder.Runtime

theorem scan_knitSource :
    ∃ document result, Document.parse knitSource = .ok document ∧
      span knitSource document.statements = knitSpan ∧ scan {} "" knitSource = .ok result ∧
      result.fix = some knitEdit := by
  have hread : (Document.parse knitSource).toOption.map (fun document => span knitSource document.statements) =
      some knitSpan := by
    decide +kernel
  have hfixed : (scan {} "" knitSource).toOption.map (·.fix.isSome) = some true := by
    decide +kernel
  cases hparse : Document.parse knitSource with
  | error error => simp [hparse, Except.toOption] at hread
  | ok document =>
    have hspan : span knitSource document.statements = knitSpan := by
      simpa [hparse, Except.toOption] using hread
    cases hscan : scan {} "" knitSource with
    | error error => simp [hscan, Except.toOption] at hfixed
    | ok result =>
      obtain ⟨edit, hfix⟩ : ∃ edit, result.fix = some edit := by
        simpa [hscan, Except.toOption, Option.isSome_iff_exists] using hfixed
      obtain rfl : edit = knitEdit :=
        Option.some.inj ((plan_of_scan hparse hscan hfix).1.symm.trans (plan_knitSource hspan))
      exact ⟨document, result, rfl, hspan, rfl, hfix⟩

end

end Plan

end ImportOrder
