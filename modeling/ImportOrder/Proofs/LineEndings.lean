import ImportOrder.Proofs.Header
import ImportOrder.Proofs.Rewriting
import ImportOrder.Runtime

/-!
# Line endings

A text whose line feeds all follow a carriage return keeps this in its fix, and a text without carriage returns gets
none. The fix is put together from parts of the source and from line breaks; no part begins with a line feed, and
where the source goes on behind the edit no carriage return was cut off.
-/

namespace ImportOrder

open Source

namespace Text

/-! ## Line feeds behind carriage returns -/

/-- Every line feed is preceded by a carriage return. -/
def Paired (t : Text) : Prop :=
  t.head? ≠ some '\n' ∧ t.IsChain fun c d => d = '\n' → c = '\r'

instance (t : Text) : Decidable (Paired t) :=
  inferInstanceAs (Decidable (_ ∧ _))

theorem paired_nil : Paired [] :=
  ⟨by simp, .nil⟩

theorem Paired.append {a b : Text} (ha : Paired a) (hb : Paired b) : Paired (a ++ b) := by
  refine ⟨?_, List.isChain_append.mpr ⟨ha.2, hb.2, ?_⟩⟩
  · cases a with
    | nil => exact hb.1
    | cons c a => exact ha.1
  · rintro c - d hd rfl
    exact absurd hd hb.1

/-- A part of the text that does not begin with a line feed. -/
theorem Paired.part {t u : Text} (h : Paired t) (hu : u <:+: t) (hhead : u.head? ≠ some '\n') : Paired u :=
  ⟨hhead, List.IsChain.infix h.2 hu⟩

/-- The rest of the text from a place with no carriage return before it. -/
theorem Paired.right {a b : Text} (h : Paired (a ++ b)) (ha : a.getLast? ≠ some '\r') : Paired b := by
  obtain ⟨-, hchain, hseam⟩ := List.isChain_append.mp h.2
  refine ⟨fun hfeed => ?_, hchain⟩
  cases hlast : a.getLast? with
  | none =>
    rw [List.getLast?_eq_none_iff.mp hlast] at h
    exact h.1 hfeed
  | some c =>
    obtain rfl : c = '\r' := hseam c hlast '\n' hfeed rfl
    exact ha hlast

/-- The two characters stand together where there is a line feed. -/
theorem Paired.infix_of_mem {t : Text} (h : Paired t) (hmem : '\n' ∈ t) : ['\r', '\n'] <:+: t := by
  obtain ⟨a, b, rfl⟩ := List.append_of_mem hmem
  obtain ⟨-, -, hseam⟩ := List.isChain_append.mp h.2
  cases hlast : a.getLast? with
  | none =>
    rw [List.getLast?_eq_none_iff.mp hlast] at h
    exact absurd rfl h.1
  | some c =>
    obtain rfl : c = '\r' := hseam c hlast '\n' rfl rfl
    obtain ⟨a', rfl⟩ := List.getLast?_eq_some_iff.mp hlast
    exact ⟨a', b, by simp⟩

theorem hasInfix_of_isInfix {u t : Text} (h : u <:+: t) : hasInfix u t = true := by
  obtain ⟨a, b, rfl⟩ := h
  induction a with
  | nil =>
    cases u with
    | nil => cases b <;> simp [hasInfix]
    | cons c u =>
      rw [List.nil_append, List.cons_append, hasInfix, Bool.or_eq_true]
      exact .inl (List.isPrefixOf_iff_prefix.mpr (List.prefix_append (c :: u) b))
  | cons c a ih =>
    rw [List.cons_append, List.cons_append, hasInfix, ih, Bool.or_true]

end Text

namespace Plan

/-- Such a text breaks its lines with both characters. -/
theorem newlineOf_of_paired {source : Text} (h : source.Paired) (hmem : '\n' ∈ source) :
    newlineOf source = ['\r', '\n'] := by
  rw [newlineOf, Text.hasInfix_of_isInfix (h.infix_of_mem hmem)]
  rfl

theorem getLast?_ne_return {t : Text} (h : ∀ c ∈ t, isLineBreak c = false) : t.getLast? ≠ some '\r' := by
  intro hlast
  exact absurd (h _ (List.mem_of_getLast? hlast)) (by decide)

/-! ## The parts of an edit -/

namespace Planned

variable [Stack] {config : Configuration} {source : Text} {document : Document} {all : List Bundle} {edit : Edit}
  {front middle back : List Statement} {first last : Statement}
  (h : Planned config source document all edit front middle back first last) (hsource : source.Paired)

include h hsource

theorem paired_leading {b : Bundle} (hb : b ∈ all) : Text.Paired b.leading := by
  have hpart := (h.infix_of_mem hb).1
  rw [h.all_eq] at hb
  rcases (infix_of_mem_bundles (List.mem_of_mem_take hb)).1 with hnil | ⟨rest, -, hstrip⟩
  · rw [hnil]
    exact Text.paired_nil
  · refine hsource.part hpart fun hfeed => ?_
    rw [hstrip] at hfeed
    exact absurd (Text.strip_head? rest _ hfeed) (by decide)

theorem paired_body {b : Bundle} (hb : b ∈ all) : Text.Paired b.body := by
  obtain ⟨-, htext, htrailing⟩ := h.infix_of_mem hb
  refine (hsource.part htext fun hfeed => ?_).append (hsource.part htrailing fun hfeed => ?_)
  · -- no trivia stands at the front of a statement
    have hdrop := Document.drop_start_of_parse h.parse (h.mem_statements (h.mem_middle hb))
    obtain ⟨rest, hrest⟩ := List.head?_eq_some_iff.mp hfeed
    rw [← (h.fits hb).text_append, hrest, List.cons_append] at hdrop
    exact absurd (Trivia.startsToken_of_skip (Trivia.drop_eq_cons_iff.mp hdrop)).1 (by decide)
  · exact not_mem_lineFeed (h.lineComment hb).oneLine (List.mem_of_head? hfeed)

/-- Right before the end of an edit stands no carriage return. -/
theorem paired_onward : Text.Paired (source.onward edit.stop) := by
  obtain ⟨skipped, pushed, below, hshape⟩ := h.shape
  obtain ⟨blanks, hparts⟩ := splitGap_parts (gapAfter source last back)
  have hmem := h.mem_statements (List.mem_of_getLast? h.getLast)
  obtain ⟨last', hlast', himport⟩ := h.spanned.last_import
  obtain rfl : last = last' := Option.some.inj (h.getLast.symm.trans hlast')
  obtain ⟨c, hc, hgetLast⟩ := (isDeclaration_of_parse h.parse hmem himport).getLast?
  have hbelow := hshape.onward_eq h.last_fits
  -- the last import, the comment on its line and the blanks that are skipped, one after another
  have hwhole : source.Paired := hsource
  rw [← Text.upTo_append_onward source last.start, ← h.last_fits.text_append, hshape.behind, ← List.append_assoc]
    at hwhole
  have hbehind := hwhole.right fun hreturn => by
    rw [List.getLast?_append, hgetLast] at hreturn
    obtain rfl := Option.some.inj hreturn
    exact absurd hc (by decide)
  have hbehind' := hbehind.right (getLast?_ne_return hparts.lineComment.oneLine)
  rw [hbelow]
  exact hbehind'.right (getLast?_ne_return fun c hc => isLineBreak_of_isInlineBlank (hshape.skipped_blank c hc))

/-- An edit of a text that has a line feed keeps line feeds behind carriage returns. -/
theorem paired_apply (hmem : '\n' ∈ source) : (edit.apply source).Paired := by
  have hnewline : Text.Paired (newlineOf source) := by
    rw [newlineOf_of_paired hsource hmem]
    decide
  have hcanonical : Text.Paired (canonicalText config (newlineOf source) all) :=
    canonicalText_of_parts Text.paired_nil (fun _ _ => Text.Paired.append) config hnewline
      fun b hb => ⟨h.paired_leading hsource hb, h.paired_body hsource hb⟩
  have hfront : Text.Paired (source.upTo edit.start) := by
    refine hsource.part (List.take_prefix _ _).isInfix fun hfeed => ?_
    obtain ⟨rest, hrest⟩ := List.head?_eq_some_iff.mp hfeed
    apply hsource.1
    rw [← Text.upTo_append_onward source edit.start, hrest]
    rfl
  obtain ⟨skipped, pushed, below, hshape⟩ := h.shape
  have hreplacement : Text.Paired edit.replacement := by
    rw [hshape.replacement_eq]
    refine hcanonical.append ?_
    rcases hshape.pushed_eq with hpushed | ⟨hpushed, -⟩
    · rwa [hpushed]
    · rw [hpushed]
      exact Text.paired_nil
  exact (hfront.append hreplacement).append (h.paired_onward hsource)

end Planned

end Plan

/-- Where a scan finds a violation, the source has a line feed. -/
theorem lineFeed_mem_of_fix [Stack] {config : Configuration} {filename : String} {source : Text} {document : Document}
    {result : ScanResult} {edit : Edit} (hparse : Document.parse source = .ok document)
    (h : scan config filename source = .ok result) (hfix : result.fix = some edit) : '\n' ∈ source := by
  rw [scan_of_parse hparse] at h
  obtain rfl := Except.ok.inj h
  dsimp only at hfix
  split at hfix
  · simp at hfix
  · rename_i hfound
    obtain ⟨violation, hviolation⟩ := List.exists_mem_of_ne_nil _ (by simpa using hfound)
    obtain ⟨s, hs, s', hs', -, -, -, -, hlt⟩ := Violation.exists_of_mem_analyze hviolation
    have hends := (Document.fits_of_parse hparse s hs).endLine_eq
    have hbegins := (Document.fits_of_parse hparse s' hs').line_eq
    -- the second import begins below the end of the first, so a line feed stands before it
    have hpos : 0 < (source.upTo s'.start).count '\n' := by omega
    exact List.mem_of_mem_take (List.count_pos_iff.mp hpos)

/-- A fix keeps the line endings of its source: line feeds that all follow a carriage return do so in the fixed text,
and a carriage return comes in only where the source has one. -/
theorem scan_keeps_lineEndings [Stack] {config : Configuration} {filename : String} {source : Text}
    {result : ScanResult} (h : scan config filename source = .ok result) :
    (source.Paired → (result.applyFix source).Paired) ∧ ('\r' ∉ source → '\r' ∉ result.applyFix source) := by
  cases hfix : result.fix with
  | none =>
    have hsame : result.applyFix source = source := by rw [ScanResult.applyFix, hfix]
    rw [hsame]
    exact ⟨id, id⟩
  | some edit =>
    obtain ⟨document, front, middle, back, first, last, hplanned, happly⟩ := Plan.exists_planned_of_scan h hfix
    rw [happly]
    refine ⟨fun hsource => hplanned.paired_apply hsource (lineFeed_mem_of_fix hplanned.parse h hfix), ?_⟩
    intro hsource
    rw [Edit.apply, List.mem_append, List.mem_append, not_or, not_or]
    exact ⟨⟨fun hmem => hsource (List.mem_of_mem_take hmem), hplanned.not_mem_replacement hsource⟩,
      fun hmem => hsource (List.mem_of_mem_drop hmem)⟩

/-- Two imports in the wrong order, and a third one below a string that is not closed on its line. The string takes the
carriage return at the end of the line but not the line feed. -/
def cutReturnSource : Text :=
  "import './c'\r\nimport 'b' // b\r\ng = 'open\r\n/* a */ import 'a'; f()\r\n".toList

section

open ImportOrder.Runtime

theorem scan_keeps_lineEndings_cutReturnSource :
    (∃ result, scan {} "" cutReturnSource = .ok result ∧ result.fix.isSome = true ∧ cutReturnSource.Paired ∧
      (result.applyFix cutReturnSource).Paired) ∧
    ∃ result, scan {} "" unsortedSource = .ok result ∧ result.fix.isSome = true ∧ '\r' ∉ unsortedSource ∧
      '\r' ∉ result.applyFix unsortedSource := by
  have hpaired : (scan {} "" cutReturnSource).toOption.map (·.fix.isSome) = some true := by decide +kernel
  have hplain : (scan {} "" unsortedSource).toOption.map (·.fix.isSome) = some true := by decide +kernel
  have hsource : cutReturnSource.Paired := by decide +kernel
  have hsource' : '\r' ∉ unsortedSource := by decide +kernel
  constructor
  · cases hscan : scan {} "" cutReturnSource with
    | error error => simp [hscan, Except.toOption] at hpaired
    | ok result =>
      exact ⟨result, rfl, by simpa [hscan, Except.toOption] using hpaired, hsource,
        (scan_keeps_lineEndings hscan).1 hsource⟩
  · cases hscan : scan {} "" unsortedSource with
    | error error => simp [hscan, Except.toOption] at hplain
    | ok result =>
      exact ⟨result, rfl, by simpa [hscan, Except.toOption] using hplain, hsource',
        (scan_keeps_lineEndings hscan).2 hsource'⟩

end

end ImportOrder
