import ImportOrder.Proofs.Span
import Mathlib.Data.List.Perm.Basic
import ImportOrder.Runtime

/-!
# An edit keeps all text

The replacement of an edit is made of the pieces of the text that it replaces: each statement with the comment
that closes its line, and each comment block between statements. Every piece is used once, only line breaks are
put between pieces, and only blanks are left out.
-/

namespace ImportOrder

theorem Text.joinWith_cons (sep t : Text) (ts : List Text) :
    Text.joinWith sep (t :: ts) = t ++ ts.flatMap (sep ++ ·) := by
  induction ts generalizing t with
  | nil => simp [Text.joinWith]
  | cons u ts ih => rw [Text.joinWith, ih, List.flatMap_cons, List.append_assoc, List.append_assoc]

/-- Taking the members of each key in turn gives every member of a key once. -/
theorem flatMap_filter_perm {α β : Type} [DecidableEq β] (key : α → Option β) {keys : List β}
    (hkeys : keys.Nodup) (l : List α) :
    (keys.flatMap fun k => l.filter fun a => key a == some k).Perm
      (l.filter fun a => keys.any fun k => key a == some k) := by
  induction keys with
  | nil => simp
  | cons k keys ih =>
    obtain ⟨hk, hrest⟩ := List.nodup_cons.mp hkeys
    rw [List.flatMap_cons]
    refine ((ih hrest).append_left _).trans ?_
    -- the members of `k` and the others make up all of them
    have hsplit := List.filter_append_perm (fun a => key a == some k)
      (l.filter fun a => (k :: keys).any fun k' => key a == some k')
    rw [List.filter_filter, List.filter_filter] at hsplit
    have hfirst : (l.filter fun a => (key a == some k) && (k :: keys).any fun k' => key a == some k') =
        l.filter fun a => key a == some k := by
      apply List.filter_congr
      intro a _
      cases h : key a == some k <;> simp_all
    have hothers : (l.filter fun a => (!(key a == some k)) && (k :: keys).any fun k' => key a == some k') =
        l.filter fun a => keys.any fun k' => key a == some k' := by
      apply List.filter_congr
      intro a _
      cases h : key a == some k with
      | false => simp_all
      | true =>
        have hne : keys.any (fun k' => key a == some k') = false := by
          rw [List.any_eq_false]
          intro k' hk'
          have heq : key a = some k := by simpa using h
          simp only [heq, beq_iff_eq, Option.some.injEq]
          rintro rfl
          exact hk hk'
        simp [hne]
    rw [hfirst, hothers] at hsplit
    exact hsplit

/-- The pieces of a bundle: the comments above it, if there are any, and the statement with its comment. -/
def Bundle.pieces (b : Bundle) : List Text :=
  [b.leading].filter (!·.isEmpty) ++ [b.body]

namespace Plan

/-! ## Pieces one below another -/

/-- Texts one below another: line breaks stand between each two of them and perhaps behind the last. -/
inductive Stacked : List Text → Text → Prop
  | last {piece breaks : Text} : (∀ c ∈ breaks, isLineBreak c = true) → Stacked [piece] (piece ++ breaks)
  | next {piece breaks t : Text} {pieces : List Text} : breaks ≠ [] →
      (∀ c ∈ breaks, isLineBreak c = true) → Stacked pieces t →
      Stacked (piece :: pieces) (piece ++ (breaks ++ t))

theorem Stacked.append {pieces pieces' : List Text} {t t' sep : Text} (h : Stacked pieces t)
    (hne : sep ≠ []) (hsep : ∀ c ∈ sep, isLineBreak c = true) (h' : Stacked pieces' t') :
    Stacked (pieces ++ pieces') (t ++ (sep ++ t')) := by
  induction h with
  | @last piece breaks hbreaks =>
    have hne' : breaks ++ sep ≠ [] := fun hnil => hne (List.append_eq_nil_iff.mp hnil).2
    have hall : ∀ c ∈ breaks ++ sep, isLineBreak c = true := by
      intro c hc
      rcases List.mem_append.mp hc with hc | hc
      · exact hbreaks c hc
      · exact hsep c hc
    have hnext : Stacked (piece :: pieces') (piece ++ ((breaks ++ sep) ++ t')) := .next hne' hall h'
    rwa [List.append_assoc] at hnext ⊢
  | @next piece breaks t pieces hbreaks hall _ ih =>
    rw [List.append_assoc, List.append_assoc]
    exact .next hbreaks hall ih

theorem Stacked.append_breaks {pieces : List Text} {t breaks : Text} (h : Stacked pieces t)
    (hbreaks : ∀ c ∈ breaks, isLineBreak c = true) : Stacked pieces (t ++ breaks) := by
  induction h with
  | @last piece breaks' hbreaks' =>
    rw [List.append_assoc]
    apply Stacked.last
    intro c hc
    rcases List.mem_append.mp hc with hc | hc
    · exact hbreaks' c hc
    · exact hbreaks c hc
  | next hne hall _ ih =>
    rw [List.append_assoc, List.append_assoc]
    exact .next hne hall ih

/-- Line breaks are blank, so the pieces hold all other characters. -/
theorem Stacked.nonblank_eq {pieces : List Text} {t : Text} (h : Stacked pieces t) :
    t.nonblank = pieces.flatMap Text.nonblank := by
  have hblank : ∀ {breaks : Text}, (∀ c ∈ breaks, isLineBreak c = true) → breaks.nonblank = [] :=
    fun hall => Text.nonblank_of_blanks fun c hc => isBlank_of_isLineBreak (hall c hc)
  induction h with
  | last hbreaks => rw [Text.nonblank_append, hblank hbreaks, List.flatMap_singleton, List.append_nil]
  | next _ hall _ ih =>
    rw [Text.nonblank_append, Text.nonblank_append, hblank hall, List.nil_append, ih, List.flatMap_cons]

theorem stacked_joinWith {sep : Text} (hne : sep ≠ []) (hsep : ∀ c ∈ sep, isLineBreak c = true)
    {blocks : List (List Text × Text)} (hblocks : blocks ≠ [])
    (h : ∀ block ∈ blocks, Stacked block.1 block.2) :
    Stacked (blocks.flatMap Prod.fst) (sep.joinWith (blocks.map Prod.snd)) := by
  induction blocks with
  | nil => exact absurd rfl hblocks
  | cons block blocks ih =>
    have hfirst := h block (by simp)
    cases blocks with
    | nil => simpa [Text.joinWith] using hfirst
    | cons next rest =>
      have hrest := ih (by simp) fun b hb => h b (List.mem_cons_of_mem _ hb)
      rw [List.flatMap_cons, List.map_cons, List.map_cons, Text.joinWith, List.append_assoc]
      exact hfirst.append hne hsep hrest

/-- Lines joined by line breaks are the pieces of the joined text. -/
theorem stacked_lines {sep : Text} (hne : sep ≠ []) (hsep : ∀ c ∈ sep, isLineBreak c = true)
    {lines : List Text} (hlines : lines ≠ []) : Stacked lines (sep.joinWith lines) := by
  have hone : ∀ block ∈ lines.map fun line => ([line], line), Stacked block.1 block.2 := by
    intro block hblock
    obtain ⟨line, -, rfl⟩ := List.mem_map.mp hblock
    have hlast : Stacked [line] (line ++ []) := .last (by simp)
    rwa [List.append_nil] at hlast
  have hall := stacked_joinWith hne hsep (by simpa using hlines) hone
  have hmap : (lines.map fun line => ([line], line)).map Prod.snd = lines := by
    rw [List.map_map]
    exact List.map_id lines
  rwa [hmap, List.flatMap_map, List.flatMap_singleton'] at hall

/-! ## The pieces of the canonical form -/

theorem groupLines_perm (all : List Bundle) : (groupLines all).Perm (all.flatMap Bundle.pieces) := by
  have hleading : (all.map Bundle.leading).filter (!·.isEmpty) =
      all.flatMap fun b => [b.leading].filter (!·.isEmpty) := by
    induction all with
    | nil => rfl
    | cons b all ih => rw [List.map_cons, List.flatMap_cons, ← ih, ← List.filter_append, List.singleton_append]
  have hbody : all.map Bundle.body = all.flatMap fun b => [b.body] := List.map_eq_flatMap
  rw [groupLines, hleading, hbody]
  exact List.flatMap_append_perm all _ _

/-- Sorting by group takes every import once. -/
theorem members_perm (config : Configuration) (all : List Bundle) :
    (Group.canonical.flatMap (members config all)).Perm (all.filter (·.statement.isImport)) := by
  have hsort : (Group.canonical.flatMap (members config all)).Perm (Group.canonical.flatMap fun g =>
      all.filter fun b => b.statement.path.map config.classify == some g) :=
    List.Perm.flatMap_left _ fun g _ => List.mergeSort_perm _ _
  refine (hsort.trans (flatMap_filter_perm _ (by decide) all)).trans ?_
  apply List.Perm.of_eq
  apply List.filter_congr
  intro b _
  -- every group is a canonical one
  rw [Statement.isImport]
  cases b.statement.path with
  | none => rfl
  | some path =>
    show (Group.canonical.any fun g => some (config.classify path) == some g) = true
    cases config.classify path <;> rfl

theorem flatten_groups (config : Configuration) (all : List Bundle) :
    ((Group.canonical.map (members config all)).filter (!·.isEmpty)).flatten =
      Group.canonical.flatMap (members config all) := by
  rw [List.flatten_filter_not_isEmpty, List.flatMap_def]

theorem newlineOf_ne_nil (source : Text) : newlineOf source ≠ [] := by
  rcases isNewline_newlineOf source with h | h <;> rw [h] <;> simp

theorem isLineBreak_newlineOf (source : Text) : ∀ c ∈ newlineOf source, isLineBreak c = true := by
  rcases isNewline_newlineOf source with h | h <;> rw [h] <;> simp [isLineBreak]

/-- The blocks of the canonical form, each with the pieces that it stacks. -/
def piecedBlocks (config : Configuration) (newline : Text) (all : List Bundle) : List (List Text × Text) :=
  ((Group.canonical.map (members config all)).filter (!·.isEmpty)).map
      (fun bs => (groupLines bs, newline.joinWith (groupLines bs))) ++
    (all.filter (!·.statement.isImport)).map fun b => (b.pieces, movedText newline b)

theorem canonicalText_eq_joinWith (config : Configuration) (newline : Text) (all : List Bundle) :
    canonicalText config newline all =
      (newline ++ newline).joinWith ((piecedBlocks config newline all).map Prod.snd) := by
  rw [canonicalText, blocks, piecedBlocks, List.map_append, List.map_map, List.map_map]
  rfl

/-- Where there is an import, there is a group. -/
theorem piecedBlocks_ne_nil {config : Configuration} {newline : Text} {all : List Bundle}
    (himport : ∃ b ∈ all, b.statement.isImport = true) : piecedBlocks config newline all ≠ [] := by
  obtain ⟨b, hb, hpath⟩ := himport
  have hmem : b ∈ ((Group.canonical.map (members config all)).filter (!·.isEmpty)).flatten := by
    rw [flatten_groups]
    exact (members_perm config all).mem_iff.mpr (List.mem_filter.mpr ⟨hb, hpath⟩)
  obtain ⟨bs, hbs, -⟩ := List.mem_flatten.mp hmem
  exact List.ne_nil_of_mem (List.mem_append_left _ (List.mem_map_of_mem hbs))

theorem piecedBlocks_stacked {config : Configuration} {newline : Text} {all : List Bundle}
    (hne : newline ≠ []) (hnewline : ∀ c ∈ newline, isLineBreak c = true) (hbody : ∀ b ∈ all, b.body ≠ []) :
    ∀ block ∈ piecedBlocks config newline all, Stacked block.1 block.2 := by
  intro block hblock
  rcases List.mem_append.mp hblock with hblock | hblock
  · obtain ⟨bs, hbs, rfl⟩ := List.mem_map.mp hblock
    have hbs' : bs ≠ [] := by simpa using (List.mem_filter.mp hbs).2
    exact stacked_lines hne hnewline (by simp [groupLines, hbs'])
  · obtain ⟨b, hb, rfl⟩ := List.mem_map.mp hblock
    have hpieces : [b.leading, b.body].filter (!·.isEmpty) = b.pieces := by
      have hb' := hbody b (List.mem_filter.mp hb).1
      rw [Bundle.pieces, List.filter_cons, List.filter_cons_of_pos (by simp [hb'])]
      split <;> simp_all
    dsimp only
    rw [movedText, hpieces]
    exact stacked_lines hne hnewline (by simp [Bundle.pieces])

theorem piecedBlocks_perm (config : Configuration) (newline : Text) (all : List Bundle) :
    ((piecedBlocks config newline all).flatMap Prod.fst).Perm (all.flatMap Bundle.pieces) := by
  generalize hgroups : (Group.canonical.map (members config all)).filter (!·.isEmpty) = groups
  have hfst : (piecedBlocks config newline all).flatMap Prod.fst =
      groups.flatMap groupLines ++ (all.filter (!·.statement.isImport)).flatMap Bundle.pieces := by
    rw [piecedBlocks, hgroups, List.flatMap_append, List.flatMap_map, List.flatMap_map]
  have hlines : (groups.flatMap groupLines).Perm (groups.flatMap fun bs => bs.flatMap Bundle.pieces) :=
    List.Perm.flatMap_left _ fun bs _ => groupLines_perm bs
  have hflat : (groups.flatMap fun bs => bs.flatMap Bundle.pieces) =
      groups.flatten.flatMap Bundle.pieces := by
    rw [← List.flatMap_id, List.flatMap_assoc]
    rfl
  have hperm : (groups.flatten ++ all.filter (!·.statement.isImport)).Perm all := by
    rw [← hgroups, flatten_groups]
    exact ((members_perm config all).append_right _).trans (List.filter_append_perm _ all)
  rw [hfst]
  refine (hlines.append_right _).trans ?_
  rw [hflat, ← List.flatMap_append]
  exact hperm.flatMap_right _

/-- The canonical form stacks the pieces of all bundles. -/
theorem canonicalText_stacked (config : Configuration) {newline : Text} {all : List Bundle}
    (hne : newline ≠ []) (hnewline : ∀ c ∈ newline, isLineBreak c = true)
    (himport : ∃ b ∈ all, b.statement.isImport = true) (hbody : ∀ b ∈ all, b.body ≠ []) :
    ∃ pieces, Stacked pieces (canonicalText config newline all) ∧
      pieces.Perm (all.flatMap Bundle.pieces) := by
  refine ⟨(piecedBlocks config newline all).flatMap Prod.fst, ?_, piecedBlocks_perm config newline all⟩
  have hsep : newline ++ newline ≠ [] := fun hnil => hne (List.append_eq_nil_iff.mp hnil).1
  have hbreaks : ∀ c ∈ newline ++ newline, isLineBreak c = true := by
    intro c hc
    rcases List.mem_append.mp hc with hc | hc <;> exact hnewline c hc
  rw [canonicalText_eq_joinWith]
  exact stacked_joinWith hsep hbreaks (piecedBlocks_ne_nil himport) (piecedBlocks_stacked hne hnewline hbody)

/-! ## The pieces of a source -/

/-- The pieces that the statements of a span and the gaps between them fall into: each statement with the
comment that closes its line, and the rest of each gap when there is anything in it. -/
def spanPieces (source : Text) (back : List Statement) : List Statement → List Text
  | [] => []
  | [s] => [s.text ++ (splitGap (gapAfter source s back)).1]
  | s :: s' :: rest =>
    (s.text ++ (splitGap (gapAfter source s [s'])).1) ::
      ([(splitGap (gapAfter source s [s'])).2.strip].filter (!·.isEmpty) ++
        spanPieces source back (s' :: rest))

theorem flatMap_pieces_bundles (source leading : Text) (middle back : List Statement) (hne : middle ≠ []) :
    ((bundles source leading (middle ++ back)).take middle.length).flatMap Bundle.pieces =
      [leading].filter (!·.isEmpty) ++ spanPieces source back middle := by
  induction middle generalizing leading with
  | nil => exact absurd rfl hne
  | cons s rest ih =>
    rw [List.cons_append, bundles_cons, List.length_cons, List.take_succ_cons, List.flatMap_cons]
    cases rest with
    | nil => simp [spanPieces, Bundle.pieces, Bundle.body]
    | cons s' rest =>
      rw [ih _ (by simp), spanPieces, Bundle.pieces, List.append_assoc, List.singleton_append]
      rfl

theorem nonblank_splitGap (gap : Text) :
    (splitGap gap).1.nonblank ++ (splitGap gap).2.strip.nonblank = gap.nonblank := by
  obtain ⟨blanks, hparts⟩ := splitGap_parts gap
  have hall : gap.nonblank = ((splitGap gap).1 ++ (blanks ++ (splitGap gap).2)).nonblank :=
    congrArg Text.nonblank hparts.eq_append
  rw [hall, Text.nonblank_append, Text.nonblank_append, Text.nonblank_of_blanks hparts.blank,
    List.nil_append, Text.nonblank_strip]

section

variable {source : Text}

/-- The pieces of a span hold all characters from its first statement up to `stop`, blanks apart, when the
comment on the last line is all that stands between the last statement and `stop`. -/
theorem nonblank_spanPieces {middle back : List Statement} {first last : Statement} {stop : Int}
    (hfits : ∀ s ∈ middle, s.Fits source) (hchain : middle.IsChain (Statement.Follows source))
    (hfirst : middle.head? = some first) (hlast : middle.getLast? = some last)
    (hle : last.stop ≤ stop) (hstop : stop ≤ source.length)
    (hend : (source.slice last.stop stop).nonblank = (splitGap (gapAfter source last back)).1.nonblank) :
    first.stop ≤ stop ∧ (spanPieces source back middle).flatMap Text.nonblank =
      (source.slice first.start stop).nonblank := by
  induction middle generalizing first with
  | nil => simp at hfirst
  | cons s rest ih =>
    obtain rfl : s = first := by simpa using hfirst
    have hs := hfits s (by simp)
    have hstart := hs.start_nonneg
    have hlt := hs.start_lt_stop
    cases rest with
    | nil =>
      obtain rfl : s = last := by simpa using hlast
      refine ⟨hle, ?_⟩
      rw [spanPieces, List.flatMap_singleton, Text.nonblank_append, ← hend, ← Text.nonblank_append,
        hs.text_eq, Text.slice_append_slice source hs.start_nonneg (by omega) hle hstop]
    | cons s' rest =>
      have hfollows := (List.isChain_cons_cons.mp hchain).1
      have hs' := hfits s' (by simp)
      obtain ⟨hle', hrest⟩ := ih (fun t ht => hfits t (List.mem_cons_of_mem _ ht))
        (List.isChain_cons_cons.mp hchain).2 rfl (by simpa using hlast)
      have hgap := hfollows.stop_le_start
      have hlt' := hs'.start_lt_stop
      refine ⟨by omega, ?_⟩
      -- the statement, the gap behind it, and the slice from the next statement on
      have hnonblank := nonblank_splitGap (gapAfter source s [s'])
      have hfilter : ([(splitGap (gapAfter source s [s'])).2.strip].filter (!·.isEmpty)).flatMap
          Text.nonblank = (splitGap (gapAfter source s [s'])).2.strip.nonblank := by
        rw [List.filter_cons]
        split <;> simp_all [Text.nonblank]
      have hslice : source.slice s.start stop =
          s.text ++ (gapAfter source s [s'] ++ source.slice s'.start stop) := by
        have hgap' : gapAfter source s [s'] = source.slice s.stop s'.start := rfl
        rw [hgap', Text.slice_append_slice source (by omega) hgap (by omega) hstop, hs.text_eq,
          Text.slice_append_slice source hs.start_nonneg (by omega) (by omega) hstop]
      rw [spanPieces, List.flatMap_cons, List.flatMap_append, hfilter, hrest, hslice,
        Text.nonblank_append, Text.nonblank_append, Text.nonblank_append, ← hnonblank]
      simp only [List.append_assoc]

/-- The edit ends in the gap behind the last import. -/
theorem EditShape.stop_le {config : Configuration} {all : List Bundle} {first last : Statement}
    {trailing skipped pushed below : Text} {edit : Edit}
    (h : EditShape config source all first last trailing skipped pushed below edit)
    (hfits : last.Fits source) :
    last.stop ≤ edit.stop ∧ edit.stop ≤ source.length ∧
      source.slice last.stop edit.stop = trailing ++ skipped := by
  have hstart := hfits.start_nonneg
  have hlt := hfits.start_lt_stop
  have hlen := Text.length_onward source (by omega : 0 ≤ last.stop) hfits.stop_le
  have hstop := h.stop_eq
  rw [h.behind, List.length_append, List.length_append] at hlen
  have hin : edit.stop ≤ source.length := by
    push_cast at hlen
    omega
  have hout : last.stop ≤ edit.stop := by omega
  refine ⟨hout, hin, ?_⟩
  have hslice := Text.slice_append_onward source (by omega : 0 ≤ last.stop) hout hin
  have hslen := Text.length_slice source (by omega : 0 ≤ last.stop) hout hin
  rw [h.behind, ← List.append_assoc] at hslice
  refine (List.append_inj hslice ?_).1
  rw [List.length_append]
  omega

theorem length_le_of_blanks {b below front rest : Text} {c : Char} (hb : ∀ d ∈ b, isBlank d = true)
    (hc : isBlank c = false) (h : b ++ below = front ++ c :: rest) : b.length ≤ front.length := by
  rcases List.append_eq_append_iff.mp h with ⟨a, rfl, -⟩ | ⟨a, rfl, hrest⟩
  · simp
  · cases a with
    | nil => simp
    | cons d a =>
      obtain ⟨rfl, -⟩ := List.cons.inj hrest
      have hblank := hb c (by simp)
      rw [hc] at hblank
      exact absurd hblank (by simp)

/-- The statement behind the last import stays behind the edit. -/
theorem EditShape.stop_le_next {config : Configuration} {all : List Bundle} {first last next : Statement}
    {skipped pushed below : Text} {edit : Edit}
    (h : EditShape config source all first last (splitGap (gapAfter source last [next])).1 skipped pushed
      below edit)
    (hlast : last.Fits source) (hnext : next.Fits source) (hfollows : last.Follows source next) :
    edit.stop ≤ next.start := by
  obtain ⟨blanks, hparts⟩ := splitGap_parts (gapAfter source last [next])
  have hstart := hlast.start_nonneg
  have hlt := hlast.start_lt_stop
  have hin := hnext.start_lt_stop
  have hend := hnext.stop_le
  have hle := hfollows.stop_le_start
  -- what the edit skips is blank, and the next statement does not begin with a blank
  have hne : source.onward next.start ≠ [] := by
    intro hnil
    have hlen := Text.length_onward source (by omega : 0 ≤ next.start) (by omega)
    rw [hnil, List.length_nil] at hlen
    omega
  obtain ⟨c, u, hcons⟩ := List.exists_cons_of_ne_nil hne
  have htoken := Trivia.startsToken_of_skip (Trivia.drop_eq_cons_iff.mp (hfollows.drop_eq.trans hcons))
  have hgap : gapAfter source last [next] ++ source.onward next.start = source.onward last.stop :=
    Text.slice_append_onward source (by omega : 0 ≤ last.stop) hle (by omega : next.start ≤ source.length)
  have hlen := Text.length_slice source (by omega : 0 ≤ last.stop) hle (by omega)
  have hsplit := congrArg List.length hparts.eq_append
  have hsides := hgap.trans h.behind
  nth_rewrite 1 [hparts.eq_append] at hsides
  rw [hcons, List.append_assoc] at hsides
  have hskipped := length_le_of_blanks (fun d hd => isBlank_of_isInlineBlank (h.skipped_blank d hd))
    htoken.1 (List.append_cancel_left hsides).symm
  have hlen' : ((gapAfter source last [next]).length : Int) = next.start - last.stop := hlen
  rw [List.length_append] at hsplit
  have hstop := h.stop_eq
  omega

end

theorem Spanned.mem_of_mem_span {statements front middle back : List Statement} {source : Text} {b : Bundle}
    (h : Spanned statements front middle back) (hb : b ∈ span source statements) :
    b.statement ∈ middle := by
  have hmap : (span source statements).map Bundle.statement = middle := by
    rw [h.span_eq, List.map_take, map_statement_bundles, List.take_left]
  rw [← hmap]
  exact List.mem_map_of_mem hb

theorem Spanned.exists_import_mem_span {statements front middle back : List Statement}
    (h : Spanned statements front middle back) (source : Text) :
    ∃ b ∈ span source statements, b.statement.isImport = true := by
  obtain ⟨first, hfirst, himport⟩ := h.first_import
  obtain ⟨b, hb, rfl, -⟩ := head?_bundles source [] hfirst back
  rw [← h.span_eq source] at hb
  exact ⟨b, List.mem_of_head? hb, himport⟩

theorem body_ne_nil {source : Text} {b : Bundle} (h : b.statement.Fits source) : b.body ≠ [] := by
  have hstart := h.start_nonneg
  have hlt := h.start_lt_stop
  have hlen := Text.length_slice source hstart (by omega : b.statement.start ≤ b.statement.stop) h.stop_le
  intro hnil
  rw [Bundle.body, List.append_eq_nil_iff] at hnil
  rw [← h.text_eq, hnil.1, List.length_nil] at hlen
  omega

/-- An edit loses and invents nothing. It reaches from the first import to the gap behind the last one; its
replacement stacks the pieces of the span in some order, each of them once, and has the same characters as the
text that it replaces, blanks apart. -/
theorem plan_keeps_text [Stack] (config : Configuration) {source : Text} {document : Document}
    (hparse : Document.parse source = .ok document)
    (himport : ∃ s ∈ document.statements, s.isImport = true) :
    ∃ front middle back first last edit,
      Spanned document.statements front middle back ∧
      middle.head? = some first ∧ middle.getLast? = some last ∧
      plan config source document.statements = some edit ∧
      edit.start = first.start ∧ edit.start ≤ edit.stop ∧ edit.stop ≤ source.length ∧
      last.stop ≤ edit.stop ∧ (∀ next ∈ back.head?, edit.stop ≤ next.start) ∧
      edit.replacement.nonblank.Perm (source.slice edit.start edit.stop).nonblank ∧
      ∃ pieces, Stacked pieces edit.replacement ∧ pieces.Perm (spanPieces source back middle) := by
  have hfits := Document.fits_of_parse hparse
  have hfollows := Document.follows_of_parse hparse
  obtain ⟨front, middle, back, hspanned⟩ := exists_spanned himport
  obtain ⟨first, hfirst, -⟩ := hspanned.first_import
  obtain ⟨last, hlast, hlastImport⟩ := hspanned.last_import
  obtain ⟨edit, skipped, pushed, below, hplan, hshape⟩ :=
    hspanned.exists_edit hfits hfollows config hfirst hlast
  obtain ⟨hlastFits, hbackFits, hbackFollows⟩ := hspanned.behind_last hfits hfollows hlast
  obtain ⟨hle, hin, hbehind⟩ := hshape.stop_le hlastFits
  -- the pieces of the bundles are those of the span
  have hmiddle : ∀ s ∈ middle, s.Fits source := by
    intro s hs
    apply hfits
    rw [hspanned.eq_append]
    simp [hs]
  obtain ⟨pieces, hstacked, hperm⟩ := canonicalText_stacked config (newlineOf_ne_nil source)
    (isLineBreak_newlineOf source) (hspanned.exists_import_mem_span source)
    fun b hb => body_ne_nil (hmiddle _ (hspanned.mem_of_mem_span hb))
  rw [hspanned.span_eq, flatMap_pieces_bundles _ _ _ _ (by rintro rfl; simp at hfirst)] at hperm
  have hstacked' : Stacked pieces edit.replacement := by
    rw [hshape.replacement_eq]
    apply hstacked.append_breaks
    rcases hshape.pushed_eq with rfl | ⟨rfl, -⟩
    · exact isLineBreak_newlineOf source
    · simp
  have hend : (source.slice last.stop edit.stop).nonblank =
      (splitGap (gapAfter source last back)).1.nonblank := by
    have hblank := Text.nonblank_of_blanks fun c hc => isBlank_of_isInlineBlank (hshape.skipped_blank c hc)
    rw [hbehind, Text.nonblank_append, hblank, List.append_nil]
  have hchain : middle.IsChain (Statement.Follows source) := by
    rw [hspanned.eq_append, List.isChain_append, List.isChain_append] at hfollows
    exact hfollows.2.1.1
  obtain ⟨hfirstStop, hchars⟩ := nonblank_spanPieces hmiddle hchain hfirst hlast hle hin hend
  have hfirstFits := hmiddle first (List.mem_of_head? hfirst)
  have hstart := hshape.start_eq
  refine ⟨front, middle, back, first, last, edit, hspanned, hfirst, hlast, hplan, hstart, ?_, hin, hle, ?_,
    ?_, pieces, hstacked', hperm⟩
  · have := hfirstFits.start_lt_stop
    omega
  · intro next hnext
    obtain ⟨others, rfl⟩ := List.head?_eq_some_iff.mp hnext
    exact EditShape.stop_le_next hshape hlastFits (hbackFits next rfl) (hbackFollows next rfl)
  · rw [hstacked'.nonblank_eq, hstart, ← hchars]
    exact hperm.flatMap_right _

/-- Code before, between and behind the imports, comments of both kinds, and code on the last import's line. -/
def interleavedSource : Text :=
  "a(); import z from 'z' // z\n/* top */ import b from './b'; f() // f\n\nimport a from 'a' /* a */ g()\n".toList

section

open ImportOrder.Runtime

theorem plan_keeps_text_interleavedSource :
    ∃ document edit, Document.parse interleavedSource = .ok document ∧
      (∃ s ∈ document.statements, s.isImport = true) ∧
      plan {} interleavedSource document.statements = some edit ∧
      edit.replacement.nonblank.Perm (interleavedSource.slice edit.start edit.stop).nonblank := by
  have hread : (Document.parse interleavedSource).toOption.map
      (fun document => document.statements.any Statement.isImport) = some true := by
    decide +kernel
  cases hparse : Document.parse interleavedSource with
  | error error => simp [hparse, Except.toOption] at hread
  | ok document =>
    have himport : ∃ s ∈ document.statements, s.isImport = true := by
      simpa [hparse, Except.toOption] using hread
    obtain ⟨-, -, -, -, -, edit, -, -, -, hplan, -, -, -, -, -, hperm, -⟩ :=
      plan_keeps_text {} hparse himport
    exact ⟨document, edit, rfl, himport, hplan, hperm⟩

end

end Plan

end ImportOrder
