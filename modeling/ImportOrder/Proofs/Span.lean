import ImportOrder.Proofs.Gaps
import ImportOrder.Proofs.Tiling

/-!
# The span of an edit

An edit reaches from the first import to the last one. The statements of a source fall into those before its
span, those in it, which begin and end with an import, and those behind it.
-/

namespace ImportOrder.Plan

/-- The text behind a statement, up to the next statement or to the end of the source. -/
def gapAfter (source : Text) (s : Statement) (rest : List Statement) : Text :=
  source.slice s.stop ((rest.head?.map Statement.start).getD source.length)

theorem bundles_cons (source leading : Text) (s : Statement) (rest : List Statement) :
    bundles source leading (s :: rest) =
      ⟨s, leading, (splitGap (gapAfter source s rest)).1⟩ ::
        bundles source (splitGap (gapAfter source s rest)).2.strip rest :=
  rfl

theorem map_statement_bundles (source leading : Text) (statements : List Statement) :
    (bundles source leading statements).map Bundle.statement = statements := by
  induction statements generalizing leading with
  | nil => rfl
  | cons s rest ih => rw [bundles_cons, List.map_cons, ih]

/-- The statements of a source before the first import, from there to the last import, and behind it. -/
structure Spanned (statements front middle back : List Statement) : Prop where
  eq_append : statements = front ++ (middle ++ back)
  front_code : ∀ s ∈ front, s.isImport = false
  back_code : ∀ s ∈ back, s.isImport = false
  first_import : ∃ first, middle.head? = some first ∧ first.isImport = true
  last_import : ∃ last, middle.getLast? = some last ∧ last.isImport = true

private theorem head?_dropWhile_code {statements : List Statement}
    (h : ∃ s ∈ statements, s.isImport = true) :
    ∃ first, (statements.dropWhile (!·.isImport)).head? = some first ∧ first.isImport = true := by
  induction statements with
  | nil => simp at h
  | cons s rest ih =>
    by_cases hs : s.isImport = true
    · refine ⟨s, ?_, hs⟩
      rw [List.dropWhile_cons_of_neg (by simp [hs]), List.head?_cons]
    · rw [List.dropWhile_cons_of_pos (by simp [hs])]
      apply ih
      obtain ⟨t, ht, himport⟩ := h
      rcases List.mem_cons.mp ht with rfl | ht
      · exact absurd himport hs
      · exact ⟨t, ht, himport⟩

private theorem code_of_mem_takeWhile {statements : List Statement} {s : Statement}
    (h : s ∈ statements.takeWhile (!·.isImport)) : s.isImport = false := by
  have hall := List.all_eq_true.mp List.all_takeWhile s h
  simpa using hall

/-- A source with an import has a span. -/
theorem exists_spanned {statements : List Statement} (h : ∃ s ∈ statements, s.isImport = true) :
    ∃ front middle back, Spanned statements front middle back := by
  obtain ⟨first, hfirst, himport⟩ := head?_dropWhile_code h
  -- from the first import on, the last one is found in the same way from behind
  generalize hrest : statements.dropWhile (!·.isImport) = rest at hfirst
  have hmem : first ∈ rest.reverse := List.mem_reverse.mpr (List.mem_of_head? hfirst)
  obtain ⟨last, hlast, himport'⟩ := head?_dropWhile_code ⟨first, hmem, himport⟩
  generalize hmiddle : rest.reverse.dropWhile (!·.isImport) = reversed at hlast
  have hsplit : rest = reversed.reverse ++ (rest.reverse.takeWhile (!·.isImport)).reverse := by
    rw [← List.reverse_append, ← hmiddle, List.takeWhile_append_dropWhile, List.reverse_reverse]
  refine ⟨statements.takeWhile (!·.isImport), reversed.reverse,
    (rest.reverse.takeWhile (!·.isImport)).reverse, ?_, ?_, ?_, ⟨first, ?_, himport⟩, ⟨last, ?_, himport'⟩⟩
  · rw [← hsplit, ← hrest, List.takeWhile_append_dropWhile]
  · intro s hs
    exact code_of_mem_takeWhile hs
  · intro s hs
    exact code_of_mem_takeWhile (List.mem_reverse.mp hs)
  · -- the middle is not empty, so it begins as `rest` does
    have hne : reversed.reverse ≠ [] := by
      intro hnil
      rw [List.reverse_eq_nil_iff.mp hnil] at hlast
      simp at hlast
    rw [hsplit, List.head?_append_of_ne_nil _ hne] at hfirst
    exact hfirst
  · rw [List.getLast?_reverse]
    exact hlast

/-- The span takes the bundles of the statements in the middle. -/
theorem Spanned.span_eq {statements front middle back : List Statement}
    (h : Spanned statements front middle back) (source : Text) :
    span source statements = (bundles source [] (middle ++ back)).take middle.length := by
  obtain ⟨first, hfirst, himport⟩ := h.first_import
  obtain ⟨last, hlast, himport'⟩ := h.last_import
  have hdrop : statements.dropWhile (!·.isImport) = middle ++ back := by
    rw [h.eq_append, List.dropWhile_append_of_pos (by simpa using h.front_code)]
    obtain ⟨rest, rfl⟩ := List.head?_eq_some_iff.mp hfirst
    rw [List.cons_append, List.dropWhile_cons_of_neg (by simp [himport])]
  rw [span, hdrop]
  generalize hall : bundles source [] (middle ++ back) = all
  have hmap : all.map Bundle.statement = middle ++ back := by rw [← hall, map_statement_bundles]
  have htake : (all.take middle.length).map Bundle.statement = middle := by
    rw [List.map_take, hmap, List.take_left]
  have hback : (all.drop middle.length).map Bundle.statement = back := by
    rw [List.map_drop, hmap, List.drop_left]
  -- from behind, the bundles of the other code fall away and that of the last import stays
  have hcode : ∀ b ∈ (all.drop middle.length).reverse, (!b.statement.isImport) = true := by
    intro b hb
    have hmem : b.statement ∈ back := by
      rw [← hback]
      exact List.mem_map_of_mem (List.mem_reverse.mp hb)
    simp [h.back_code _ hmem]
  have hend : (all.take middle.length).reverse.dropWhile (!·.statement.isImport) =
      (all.take middle.length).reverse := by
    rw [← htake, List.getLast?_map] at hlast
    obtain ⟨b, hb, rfl⟩ := Option.map_eq_some_iff.mp hlast
    rw [← List.head?_reverse] at hb
    obtain ⟨others, hothers⟩ := List.head?_eq_some_iff.mp hb
    rw [hothers, List.dropWhile_cons_of_neg (by simp [himport'])]
  rw [← List.take_append_drop middle.length all, List.reverse_append,
    List.dropWhile_append_of_pos hcode, List.take_append_drop, hend, List.reverse_reverse]

/-! ## The comments of a span -/

theorem lineComment_of_mem_bundles {source leading : Text} {statements : List Statement} {b : Bundle}
    (h : b ∈ bundles source leading statements) : LineComment b.trailing := by
  induction statements generalizing leading with
  | nil => simp [bundles] at h
  | cons s rest ih =>
    rw [bundles_cons, List.mem_cons] at h
    rcases h with rfl | h
    · obtain ⟨blanks, hparts⟩ := splitGap_parts (gapAfter source s rest)
      exact hparts.lineComment
    · exact ih h

/-- When the comments that close the lines of a span are whole, what stands above its statements are comments. The
comment on the last line is of no account. -/
theorem comments_of_mem_bundles {source leading : Text} {middle back : List Statement}
    (hchain : middle.IsChain (Statement.Follows source)) (hleading : Comments leading)
    (hwhole : ∀ b ∈ ((bundles source leading (middle ++ back)).take middle.length).dropLast,
      Trivia.Closed (b.trailing ++ ['\n'])) :
    ∀ b ∈ (bundles source leading (middle ++ back)).take middle.length, Comments b.leading := by
  induction middle generalizing leading with
  | nil => simp
  | cons s rest ih =>
    rw [List.cons_append, bundles_cons, List.length_cons, List.take_succ_cons] at hwhole ⊢
    intro b hb
    rcases List.mem_cons.mp hb with rfl | hb
    · exact hleading
    · cases rest with
      | nil => simp at hb
      | cons s' rest =>
        rw [List.dropLast_cons_of_ne_nil (List.ne_nil_of_mem hb)] at hwhole
        refine ih (List.isChain_cons.mp hchain).2 ?_ (fun d hd => hwhole d (List.mem_cons_of_mem _ hd)) b hb
        -- the gap between two statements is closed, and so is its rest behind a whole comment
        have hgap := ((List.isChain_cons_cons.mp hchain).1).gap_closed
        obtain ⟨blanks, hparts⟩ := splitGap_parts (gapAfter source s ((s' :: rest) ++ back))
        exact comments_strip (hparts.rest_closed hgap (hwhole _ List.mem_cons_self))

/-! ## The edges of an edit -/

theorem blanksBeforeCode?_some {t : Text} {n : Nat} (h : blanksBeforeCode? t = some n) :
    ∃ b c rest, t = b ++ c :: rest ∧ n = b.length ∧ (∀ d ∈ b, isInlineBlank d = true) ∧
      isLineBreak c = false := by
  obtain ⟨b, hsplit, hb⟩ := inlineBlanks_split t
  unfold blanksBeforeCode? at h
  split at h
  · simp at h
  · rename_i c rest hdrop
    split at h
    · simp at h
    · rename_i hbreak
      rw [hdrop] at hsplit
      refine ⟨b, c, rest, hsplit, ?_, hb, by simpa using hbreak⟩
      have hlen := congrArg List.length hsplit
      rw [List.length_append] at hlen
      have hn := Option.some.inj h
      omega

theorem blanksBeforeCode?_none {t : Text} (h : blanksBeforeCode? t = none) :
    ∃ b rest, t = b ++ rest ∧ (∀ c ∈ b, isInlineBlank c = true) ∧ ∀ c ∈ rest.head?, isLineBreak c = true := by
  obtain ⟨b, hsplit, hb⟩ := inlineBlanks_split t
  refine ⟨b, t.dropWhile isInlineBlank, hsplit, hb, ?_⟩
  unfold blanksBeforeCode? at h
  split at h
  · rename_i hdrop
    simp [hdrop]
  · rename_i c rest hdrop
    split at h
    · rename_i hbreak
      simpa [hdrop] using hbreak
    · simp at h

theorem head?_bundles (source leading : Text) {middle : List Statement} {first : Statement}
    (h : middle.head? = some first) (back : List Statement) :
    ∃ b, ((bundles source leading (middle ++ back)).take middle.length).head? = some b ∧
      b.statement = first ∧ b.leading = leading := by
  obtain ⟨rest, rfl⟩ := List.head?_eq_some_iff.mp h
  exact ⟨_, rfl, rfl, rfl⟩

theorem getLast?_bundles (source leading : Text) {middle : List Statement} {last : Statement}
    (h : middle.getLast? = some last) (back : List Statement) :
    ∃ b, ((bundles source leading (middle ++ back)).take middle.length).getLast? = some b ∧
      b.statement = last ∧ b.trailing = (splitGap (gapAfter source last back)).1 := by
  induction middle generalizing leading with
  | nil => simp at h
  | cons s rest ih =>
    rw [List.cons_append, bundles_cons, List.length_cons, List.take_succ_cons]
    cases rest with
    | nil =>
      obtain rfl : s = last := by simpa using h
      exact ⟨_, rfl, rfl, rfl⟩
    | cons s' rest =>
      obtain ⟨b, hb, hstatement, htrailing⟩ :=
        ih (splitGap (gapAfter source s ((s' :: rest) ++ back))).2.strip (by simpa using h)
      refine ⟨b, ?_, hstatement, htrailing⟩
      rw [List.getLast?_cons, hb, Option.getD_some]

/-- The edit of a source whose last import has the comment `trailing` on its line. Of the text behind, `skipped`
is taken out and `pushed` is put before what is left, which is `below`. -/
structure EditShape (config : Configuration) (source : Text) (all : List Bundle) (first last : Statement)
    (trailing skipped pushed below : Text) (edit : Edit) : Prop where
  start_eq : edit.start = first.start
  stop_eq : edit.stop = last.stop + trailing.length + skipped.length
  replacement_eq : edit.replacement = canonicalText config (newlineOf source) all ++ pushed
  behind : source.onward last.stop = trailing ++ (skipped ++ below)
  skipped_blank : ∀ c ∈ skipped, isInlineBlank c = true
  pushed_eq : pushed = newlineOf source ∨ pushed = [] ∧ skipped = [] ∧
    ∃ b rest, below = b ++ rest ∧ (∀ c ∈ b, isInlineBlank c = true) ∧ ∀ c ∈ rest.head?, isLineBreak c = true

/-- The text from the next statement on. -/
def onwardNext (source : Text) (rest : List Statement) : Text :=
  (rest.head?.map fun s => source.onward s.start).getD []

theorem gapAfter_append {source : Text} {s : Statement} {rest : List Statement} (hfits : s.Fits source)
    (hrest : ∀ s' ∈ rest.head?, s'.Fits source) (hnext : ∀ s' ∈ rest.head?, s.Follows source s') :
    gapAfter source s rest ++ onwardNext source rest = source.onward s.stop := by
  have hstop : 0 ≤ s.stop := by
    have := hfits.start_nonneg
    have := hfits.start_lt_stop
    omega
  unfold gapAfter onwardNext
  cases hhead : rest.head? with
  | none =>
    have hend := Text.slice_append_onward source hstop hfits.stop_le (Int.le_refl _)
    have hnil : source.onward (source.length : Int) = [] := by
      rw [Text.onward, Text.place_natCast, Nat.min_self, List.drop_length]
    rwa [hnil] at hend
  | some s' =>
    have hle := (hnext s' hhead).stop_le_start
    have hstart := (hrest s' hhead).start_lt_stop
    have hin := (hrest s' hhead).stop_le
    rw [Option.map_some, Option.map_some, Option.getD_some, Option.getD_some]
    exact Text.slice_append_onward source hstop hle (by omega)

section

variable {source : Text} {statements front middle back : List Statement}

/-- The last import of the span, with what the tiling says of it and of the statement behind it. -/
theorem Spanned.behind_last (h : Spanned statements front middle back)
    (hfits : ∀ s ∈ statements, s.Fits source)
    (hfollows : statements.IsChain (Statement.Follows source))
    {last : Statement} (hlast : middle.getLast? = some last) :
    last.Fits source ∧ (∀ s ∈ back.head?, s.Fits source) ∧ ∀ s ∈ back.head?, last.Follows source s := by
  have hmem : last ∈ middle := List.mem_of_getLast? hlast
  refine ⟨hfits _ ?_, ?_, ?_⟩
  · rw [h.eq_append]
    simp [hmem]
  · intro s hs
    apply hfits
    rw [h.eq_append]
    simp [List.mem_of_head? hs]
  · intro s hs
    rw [h.eq_append, List.isChain_append, List.isChain_append] at hfollows
    exact hfollows.2.1.2.2 last hlast s hs

theorem plan_eq (config : Configuration) {first last : Bundle}
    (hfirst : (span source statements).head? = some first)
    (hlast : (span source statements).getLast? = some last) :
    plan config source statements =
      let place := min (last.statement.stop + last.trailing.length).toNat source.length
      let text := canonicalText config (newlineOf source) (span source statements)
      match blanksBeforeCode? (source.drop place) with
      | some blanks => some ⟨first.statement.start, (place + blanks : Nat), text ++ newlineOf source⟩
      | none => some ⟨first.statement.start, last.statement.stop + last.trailing.length, text⟩ := by
  obtain ⟨rest, hspan⟩ := List.head?_eq_some_iff.mp hfirst
  have hgetLast : (first :: rest).getLast (by simp) = last := by
    rw [hspan, List.getLast?_eq_some_getLast (by simp)] at hlast
    exact Option.some.inj hlast
  unfold plan
  rw [hspan]
  dsimp only
  exact hgetLast ▸ rfl

/-- The place behind a piece of the text behind a statement lies in the source, and what follows the piece is
found there. -/
theorem drop_behind {s : Statement} {trailing rest : Text} (hfits : s.Fits source)
    (hbehind : trailing ++ rest = source.onward s.stop) :
    s.stop + trailing.length ≤ source.length ∧
      source.drop (min (s.stop + trailing.length).toNat source.length) = rest := by
  have hstop : 0 ≤ s.stop := by
    have := hfits.start_nonneg
    have := hfits.start_lt_stop
    omega
  have hlen := congrArg List.length hbehind
  have hslice := Text.length_onward source hstop hfits.stop_le
  rw [List.length_append] at hlen
  have hplace : s.stop + trailing.length ≤ source.length := by omega
  refine ⟨hplace, ?_⟩
  have hskip := Text.drop_onward source hstop trailing.length hplace
  rw [← hbehind, List.drop_left, Text.onward, Text.place_of_le (by omega) hplace] at hskip
  rw [Nat.min_eq_left (by omega), ← hskip]

/-- A source with an import has an edit, and this is its shape. -/
theorem Spanned.exists_edit (h : Spanned statements front middle back)
    (hfits : ∀ s ∈ statements, s.Fits source)
    (hfollows : statements.IsChain (Statement.Follows source)) (config : Configuration)
    {first last : Statement} (hfirst : middle.head? = some first) (hlast : middle.getLast? = some last) :
    ∃ edit skipped pushed below, plan config source statements = some edit ∧
      EditShape config source (span source statements) first last
        (splitGap (gapAfter source last back)).1 skipped pushed below edit := by
  obtain ⟨hfits, hfits', hfollows⟩ := h.behind_last hfits hfollows hlast
  have hbehind := gapAfter_append hfits hfits' hfollows
  obtain ⟨blanks, hparts⟩ := splitGap_parts (gapAfter source last back)
  generalize hgap : splitGap (gapAfter source last back) = gap at hparts ⊢
  obtain ⟨trailing, rest⟩ := gap
  dsimp only at hparts ⊢
  rw [hparts.eq_append, List.append_assoc] at hbehind
  have hstart := hfits.start_nonneg
  have hlt := hfits.start_lt_stop
  obtain ⟨hplace, hdrop⟩ := drop_behind hfits hbehind
  obtain ⟨b, hb, rfl, -⟩ := head?_bundles source [] hfirst back
  obtain ⟨b', hb', rfl, htrailing⟩ := getLast?_bundles source [] hlast back
  rw [← h.span_eq source] at hb hb'
  rw [hgap] at htrailing
  rw [plan_eq config hb hb', htrailing]
  dsimp only
  rw [hdrop]
  -- code on the last line is pushed to a line of its own
  cases hblanks : blanksBeforeCode? ((blanks ++ rest) ++ onwardNext source back) with
  | none =>
    obtain ⟨c, below, hbelow, hc, hbreak⟩ := blanksBeforeCode?_none hblanks
    refine ⟨_, [], [], _, rfl, rfl, ?_, ?_, ?_, by simp, .inr ⟨rfl, rfl, c, below, hbelow, hc, hbreak⟩⟩
    · show b'.statement.stop + trailing.length = b'.statement.stop + trailing.length + 0
      omega
    · rw [List.append_nil]
    · rw [List.nil_append, hbehind]
  | some n =>
    obtain ⟨skipped, c, below, hbelow, rfl, hskipped, -⟩ := blanksBeforeCode?_some hblanks
    refine ⟨_, skipped, _, c :: below, rfl, rfl, ?_, rfl, ?_, hskipped, .inl rfl⟩
    · show ((min (b'.statement.stop + trailing.length).toNat source.length + skipped.length : Nat) : Int) =
        b'.statement.stop + trailing.length + skipped.length
      omega
    · rw [← hbelow, hbehind]

end

end ImportOrder.Plan
