import ImportOrder.Proofs.Header
import ImportOrder.Report
import ImportOrder.Runtime

/-!
# Where diagnostics stand

A diagnostic names the line and the column of an import and shows the line that the import begins on. The report puts
carets under the characters of the import on that line: as many as the line holds of it, and never past its end.
-/

namespace ImportOrder

open Source

/-! ## Texts on one line -/

namespace LineIndex

/-- A text without a line feed that stands at the offset of a cut stands on the line. -/
theorem LineCut.prefix_behind {t above before behind below u : Text} (h : LineCut t above before behind below)
    (hu : u <+: behind ++ below) (hfree : '\n' ∉ u) : u <+: behind := by
  rcases h.below_begins with rfl | ⟨rest, rfl⟩
  · rwa [List.append_nil] at hu
  · obtain ⟨v, hv⟩ := hu
    rcases List.append_eq_append_iff.mp hv with ⟨u', rfl, -⟩ | ⟨v', rfl, hrest⟩
    · exact List.prefix_append u u'
    · -- what reaches past the line begins with the line feed
      cases v' with
      | nil => simp
      | cons c v' =>
        obtain ⟨rfl, -⟩ := List.cons.inj hrest
        exact absurd (by simp) hfree

theorem LineCut.drop_eq {t above before behind below : Text} (h : LineCut t above before behind below) :
    t.drop (above ++ before).length = behind ++ below := by
  rw [h.eq_append, ← List.append_assoc, List.drop_left]

end LineIndex

namespace Text

/-- A text ends in some number of carriage returns, and in no further one. -/
theorem exists_returns (t : Text) : ∃ n, t = t.dropEndWhile (· == '\r') ++ List.replicate n '\r' ∧
    (t.dropEndWhile (· == '\r')).getLast? ≠ some '\r' := by
  obtain ⟨b, hb, hsplit⟩ := dropEndWhile_split (· == '\r') t
  refine ⟨b.length, ?_, ?_⟩
  · have hreplicate : b = List.replicate b.length '\r' :=
      List.eq_replicate_iff.mpr ⟨rfl, fun c hc => by simpa using hb c hc⟩
    rw [← hreplicate]
    exact hsplit
  · rw [dropEndWhile, List.getLast?_reverse]
    intro hlast
    have hnot := List.head?_dropWhile_not (· == '\r') t.reverse
    rw [hlast] at hnot
    simp at hnot

/-- What is dropped from the end does not reach into a front part whose last character stays. -/
theorem prefix_dropEndWhile {p : Char → Bool} {c : Char} (hc : p c = false) {u t : Text} (h : u ++ [c] <+: t) :
    u ++ [c] <+: t.dropEndWhile p := by
  obtain ⟨rest, rfl⟩ := h
  rw [List.append_assoc, List.singleton_append]
  obtain ⟨rest', hrest⟩ := dropEndWhile_append_cons hc u rest
  rw [hrest]
  exact ⟨rest', by simp⟩

/-- A number in decimal digits, with a sign where it is negative. -/
def decimal (n : Int) : Text :=
  if n < 0 then '-' :: Nat.toDigits 10 n.natAbs else Nat.toDigits 10 n.natAbs

theorem toList_toString (n : Int) : (toString n).toList = decimal n := by
  cases n with
  | ofNat n =>
    show (Nat.repr n).toList = _
    simp [decimal, Nat.repr]
  | negSucc n =>
    show ("-" ++ Nat.repr (n + 1)).toList = _
    simp [decimal, Nat.repr, Int.negSucc_lt_zero]

end Text

/-! ## Diagnostics -/

/-- The carets of the report under the line of a diagnostic: `width` of them, from its column on. They stand under
the first characters of an import, as far as its text and the line reach. -/
structure Diagnostic.Underlines (s : Statement) (d : Diagnostic) (width : Nat) : Prop where
  width_eq : (width : Int) = min (d.stop - d.start) (d.sourceLine.length - (d.column - 1))
  six_le : 6 ≤ width
  in_line : d.column - 1 + width ≤ d.sourceLine.length
  in_text : width ≤ s.text.length
  take_eq : (d.sourceLine.drop (d.column - 1).toNat).take width = s.text.take width
  report_eq : ∀ filename,
    Report.violation false filename d.line d.column d.rule.message d.sourceLine (d.stop - d.start) =
      Text.joinWith ['\n'] [
        "  ".toList ++ (filename.toList ++ ':' :: Text.decimal d.line ++ ':' :: Text.decimal d.column),
        "    ".toList ++ d.sourceLine,
        "    ".toList ++ (List.replicate (d.column - 1).toNat ' ' ++ List.replicate width '^'),
        "  ".toList ++ d.rule.message.toList]

/-- A diagnostic tells where an import stands, and the report underlines the import there. The source is cut at the
first character of the import and around its line; `returns` carriage returns at the end of the line are not shown. -/
structure Diagnostic.Marks (source : Text) (s : Statement) (d : Diagnostic) : Prop where
  start_eq : d.start = s.start
  stop_eq : d.stop = s.stop
  line_eq : d.line - 1 = ((source.upTo d.start).count '\n' : Nat)
  placed : ∃ above before behind below returns, LineIndex.LineCut source above before behind below ∧
    source.upTo d.start = above ++ before ∧ d.column - 1 = before.length ∧
    before ++ behind = d.sourceLine ++ List.replicate returns '\r' ∧ d.sourceLine.getLast? ≠ some '\r'
  keyword : importWord <+: d.sourceLine.drop (d.column - 1).toNat
  underlined : ∃ width, d.Underlines s width

theorem Report.inked_false (role : String) (t : Text) : inked false role t = t := by
  simp [inked, ink]

theorem Report.toList_location (filename : String) (line column : Int) :
    (Wording.location filename (toString line) (toString column)).toList =
      filename.toList ++ ':' :: Text.decimal line ++ ':' :: Text.decimal column := by
  have hcolon : ":".toList = [':'] := rfl
  simp only [Wording.location, String.toList_append, Text.toList_toString, hcolon, List.append_assoc,
    List.cons_append, List.nil_append]

/-- What is said about a violation without colour, when there is a source line and room for a caret on it. -/
theorem Report.violation_plain {sourceLine : Text} {column width : Int} {n : Nat} (hline : sourceLine ≠ [])
    (hwidth : (n : Int) = min width (sourceLine.length - (column - 1))) (hpos : 1 ≤ n) (filename : String)
    (line : Int) (message : String) :
    violation false filename line column message sourceLine width =
      Text.joinWith ['\n'] [
        "  ".toList ++ (filename.toList ++ ':' :: Text.decimal line ++ ':' :: Text.decimal column),
        "    ".toList ++ sourceLine,
        "    ".toList ++ (List.replicate (column - 1).toNat ' ' ++ List.replicate n '^'),
        "  ".toList ++ message.toList] := by
  have hcarets : underlineWidth sourceLine column width = n := by
    unfold underlineWidth
    omega
  have hempty : sourceLine.isEmpty = false := by simpa using hline
  unfold violation violationLines caretLine
  rw [hempty, hcarets, toList_location]
  simp only [inked_false, Bool.false_eq_true, if_false]
  rfl

/-- Two texts that stand at the same place agree as far as both reach. -/
theorem take_eq_take_of_prefix {t u v : Text} {n : Nat} (hu : u <+: t) (hv : v <+: t) (hn : n ≤ u.length)
    (hn' : n ≤ v.length) : u.take n = v.take n := by
  obtain ⟨u', hu'⟩ := hu
  obtain ⟨v', hv'⟩ := hv
  rw [← List.take_append_of_le_length hn, hu', ← hv', List.take_append_of_le_length hn']

/-- The line that an import begins on shows the import from its column on. -/
theorem exists_shown {t above before behind below text : Text} (hcut : LineIndex.LineCut t above before behind below)
    (htext : text <+: behind ++ below) (hkeyword : importWord <+: text) :
    ∃ shown, (before ++ behind).dropEndWhile (· == '\r') = before ++ shown ∧ importWord <+: shown ∧
      shown <+: behind ++ below := by
  have hbehind : importWord <+: behind := hcut.prefix_behind (hkeyword.trans htext) (by decide)
  have hfront : (before ++ "impor".toList) ++ ['t'] <+: before ++ behind := by
    rw [List.append_assoc]
    exact (List.prefix_append_right_inj before).mpr hbehind
  obtain ⟨rest, hrest⟩ := Text.prefix_dropEndWhile (p := (· == '\r')) (by decide) hfront
  refine ⟨importWord ++ rest, ?_, List.prefix_append _ _, ?_⟩
  · rw [← hrest, List.append_assoc, List.append_assoc]
    rfl
  · obtain ⟨returns, hreturns, -⟩ := Text.exists_returns (before ++ behind)
    rw [← hrest, List.append_assoc, List.append_assoc, List.append_assoc] at hreturns
    have hshown : behind = (importWord ++ rest) ++ List.replicate returns '\r' := by
      rw [List.append_assoc]
      exact List.append_cancel_left hreturns
    rw [hshown, List.append_assoc]
    exact List.prefix_append _ _

section

variable {source : Text} {s : Statement}

/-- The line that a statement begins on, cut at the statement. -/
theorem Statement.Fits.exists_lineCut (h : s.Fits source) : ∃ above before behind below,
    LineIndex.LineCut source above before behind below ∧ source.upTo s.start = above ++ before ∧
      s.start = ((above ++ before).length : Nat) ∧ s.line = (above.count '\n' : Nat) ∧ s.text <+: behind ++ below := by
  have hlt := h.start_lt_stop
  have hle := h.stop_le
  obtain ⟨n, hn⟩ := Int.eq_ofNat_of_zero_le h.start_nonneg
  have hplace : Text.place source.length s.start = n := by
    rw [hn, Text.place_natCast, Nat.min_eq_left (by omega)]
  obtain ⟨above, before, behind, below, hcut, htake⟩ := LineIndex.exists_lineCut source n
  obtain rfl : n = (above ++ before).length := by
    rw [← htake, List.length_take]
    omega
  have hupTo : source.upTo s.start = above ++ before := by rw [Text.upTo, hplace, htake]
  have honward : source.onward s.start = behind ++ below := by rw [Text.onward, hplace, hcut.drop_eq]
  refine ⟨above, before, behind, below, hcut, hupTo, hn, ?_, source.onward s.stop, ?_⟩
  · rw [h.line_eq, hupTo, hcut.count_front]
  · rw [h.text_append, honward]

/-- The carets under an import that the line shows from the column on. -/
theorem Diagnostic.underlines {d : Diagnostic} {before shown rest : Text} (htext : s.text <+: rest)
    (hshown : shown <+: rest) (hkeyword : importWord <+: s.text) (hkeyword' : importWord <+: shown)
    (hlength : (s.text.length : Int) = d.stop - d.start) (hcolumn : d.column - 1 = before.length)
    (hline : d.sourceLine = before ++ shown) : d.Underlines s (min s.text.length shown.length) := by
  have hsix : 6 ≤ min s.text.length shown.length := Nat.le_min.mpr ⟨hkeyword.length_le, hkeyword'.length_le⟩
  have hlineLength : d.sourceLine.length = before.length + shown.length := by rw [hline, List.length_append]
  have hdrop : d.sourceLine.drop (d.column - 1).toNat = shown := by
    rw [hline, hcolumn, Int.toNat_natCast, List.drop_left]
  have hwidth : ((min s.text.length shown.length : Nat) : Int) =
      min (d.stop - d.start) (d.sourceLine.length - (d.column - 1)) := by omega
  refine ⟨hwidth, hsix, by omega, Nat.min_le_left _ _, ?_, fun filename => ?_⟩
  · rw [hdrop]
    exact take_eq_take_of_prefix hshown htext (Nat.min_le_right _ _) (Nat.min_le_left _ _)
  · refine Report.violation_plain ?_ hwidth (by omega) filename _ _
    intro hnil
    rw [hnil, List.length_nil] at hlineLength
    omega

/-- The diagnostic of a violation at an import. -/
theorem Diagnostic.marks_ofViolation (hfits : s.Fits source) (hkeyword : importWord <+: s.text) {v : Violation}
    (hstart : v.start = s.start) (hstop : v.stop = s.stop) (hline : v.line = s.line) :
    (ofViolation (LineIndex.ofText source) v).Marks source s := by
  obtain ⟨above, before, behind, below, hcut, hupTo, hoffset, hcount, htext⟩ := hfits.exists_lineCut
  obtain ⟨shown, hshown, hkeyword', hprefix⟩ := exists_shown hcut htext hkeyword
  obtain ⟨returns, hreturns, hlast⟩ := Text.exists_returns (before ++ behind)
  rw [hshown] at hreturns hlast
  have hlt := hfits.start_lt_stop
  have hlength := Text.length_slice source hfits.start_nonneg (by omega : s.start ≤ s.stop) hfits.stop_le
  rw [← hfits.text_eq] at hlength
  generalize hd : ofViolation (LineIndex.ofText source) v = d
  have hdstart : d.start = s.start := by rw [← hd, ← hstart, ofViolation]
  have hdstop : d.stop = s.stop := by rw [← hd, ← hstop, ofViolation]
  have hdline : d.line - 1 = s.line := by
    rw [← hd, ← hline, ofViolation]
    exact Int.add_sub_cancel v.line 1
  have hcolumn : d.column - 1 = before.length := by
    rw [← hd, ← hcut.columnOf_eq, ← hoffset, ← hstart, ofViolation]
    exact Int.add_sub_cancel _ 1
  have hsourceLine : d.sourceLine = before ++ shown := by
    rw [← hd, ofViolation, hline, hcount]
    show ((LineIndex.ofText source).lineText? _).getD [] = _
    rw [hcut.lineText?_eq, Option.getD_some, hshown]
  refine ⟨hdstart, hdstop, ?_, ⟨above, before, behind, below, returns, hcut, ?_, hcolumn, ?_, ?_⟩, ?_,
    min s.text.length shown.length, ?_⟩
  · rw [hdline, hdstart, hfits.line_eq]
  · rw [hdstart, hupTo]
  · rw [hsourceLine, hreturns]
  · rwa [hsourceLine]
  · rw [hsourceLine, hcolumn, Int.toNat_natCast, List.drop_left]
    exact hkeyword'
  · rw [← hdstart, ← hdstop] at hlength
    exact Diagnostic.underlines htext hprefix hkeyword hkeyword' hlength hcolumn hsourceLine

end

/-- A diagnostic of a scan is that of a violation at an import. -/
theorem exists_violation_of_scan [Stack] {config : Configuration} {filename : String} {source : Text}
    {result : ScanResult} (h : scan config filename source = .ok result) {d : Diagnostic}
    (hd : d ∈ result.diagnostics) :
    ∃ document v s, Document.parse source = .ok document ∧ s ∈ document.statements ∧ s.isImport = true ∧
      d = .ofViolation (LineIndex.ofText source) v ∧ v.start = s.start ∧ v.stop = s.stop ∧ v.line = s.line := by
  obtain ⟨document, hparse⟩ := exists_parse_of_scan h
  rw [scan_of_parse hparse, index_of_parse hparse] at h
  obtain rfl := Except.ok.inj h
  dsimp only at hd
  split at hd
  · simp at hd
  · obtain ⟨v, hv, rfl⟩ := List.mem_map.mp hd
    obtain ⟨-, -, s, hs, himport, hstart, hstop, hline, -⟩ := Violation.exists_of_mem_analyze hv
    exact ⟨document, v, s, hparse, hs, himport, rfl, hstart, hstop, hline⟩

/-- The source line of a diagnostic is one line. -/
theorem sourceLine_of_scan [Stack] {config : Configuration} {filename : String} {source : Text} {result : ScanResult}
    (h : scan config filename source = .ok result) {d : Diagnostic} (hd : d ∈ result.diagnostics) :
    '\n' ∉ d.sourceLine := by
  obtain ⟨document, v, s, hparse, hs, himport, rfl, hstart, hstop, hline⟩ := exists_violation_of_scan h hd
  have hkeyword := (Plan.isDeclaration_of_parse hparse hs himport).keyword
  have hmarks := Diagnostic.marks_ofViolation (Document.fits_of_parse hparse s hs) hkeyword hstart hstop hline
  obtain ⟨above, before, behind, below, returns, hcut, -, -, happend, -⟩ := hmarks.placed
  intro hfeed
  apply hcut.oneLine
  rw [happend]
  exact List.mem_append_left _ hfeed

/-- Every diagnostic of a scan marks an import of the source: it tells the line and the column at which the import
begins and shows that line, and the report underlines what the line holds of the import. -/
theorem scan_marks [Stack] {config : Configuration} {filename : String} {source : Text} {result : ScanResult}
    (h : scan config filename source = .ok result) {d : Diagnostic} (hd : d ∈ result.diagnostics) :
    ∃ document s, Document.parse source = .ok document ∧ s ∈ document.statements ∧ s.isImport = true ∧
      d.Marks source s := by
  obtain ⟨document, v, s, hparse, hs, himport, rfl, hstart, hstop, hline⟩ := exists_violation_of_scan h hd
  have hkeyword := (Plan.isDeclaration_of_parse hparse hs himport).keyword
  exact ⟨document, s, hparse, hs, himport,
    Diagnostic.marks_ofViolation (Document.fits_of_parse hparse s hs) hkeyword hstart hstop hline⟩

/-- Two imports in the wrong order. The second one shares its line with a comment and a tab before it, and goes on over
two more lines. -/
def foldedSource : Text :=
  "import './b'\r\n/* c */\timport \x7b\r\n  x\r\n\x7d from 'a'\r\n".toList

/-- The edit that puts them in order. -/
def unfoldEdit : Edit :=
  ⟨0, 47, "/* c */\r\nimport \x7b\r\n  x\r\n\x7d from 'a'\r\n\r\nimport './b'".toList⟩

/-- The diagnostic of the second import. -/
def foldedMark : Diagnostic :=
  ⟨22, 47, 2, 9, .notSeparated, ['a'], "/* c */\timport \x7b".toList, some unfoldEdit⟩

section

open ImportOrder.Runtime

theorem scan_marks_foldedSource :
    scan ⟨[], false⟩ "a.ts" foldedSource = .ok ⟨"a.ts", .rejected, [foldedMark], some unfoldEdit, false⟩ ∧
      ∃ document s, Document.parse foldedSource = .ok document ∧ s ∈ document.statements ∧ s.isImport = true ∧
        foldedMark.Marks foldedSource s := by
  have hscan : scan ⟨[], false⟩ "a.ts" foldedSource =
      .ok ⟨"a.ts", .rejected, [foldedMark], some unfoldEdit, false⟩ := by decide +kernel
  exact ⟨hscan, scan_marks hscan (List.mem_singleton_self foldedMark)⟩

end

end ImportOrder
