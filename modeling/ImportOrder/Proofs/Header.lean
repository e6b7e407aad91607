import ImportOrder.Proofs.Faults
import ImportOrder.Proofs.FixedPoint
import ImportOrder.Runtime

/-!
# Sources below a header

Trivia put in front of a source moves everything down and changes nothing else: statements, violations and edits keep
their shape, offsets grow by the length of the header and lines by its line feeds. Columns and the lines shown stay
the same even where the header ends in the middle of a line, because the first line of a source never holds a
violation.
-/

namespace ImportOrder

open Source

/-! ## Things below a header -/

/-- The error of a source below a header. -/
def SourceError.below (header : Text) (error : SourceError) : SourceError :=
  { error with offset := header.length + error.offset }

/-- The statement below a header. -/
def Statement.below (header : Text) (s : Statement) : Statement :=
  { s with
    start := header.length + s.start
    stop := header.length + s.stop
    line := header.count '\n' + s.line
    endLine := header.count '\n' + s.endLine }

/-- The edit below a header. -/
def Edit.below (header : Text) (edit : Edit) : Edit :=
  { edit with start := header.length + edit.start, stop := header.length + edit.stop }

/-- The violation below a header. -/
def Violation.below (header : Text) (violation : Violation) : Violation :=
  { violation with
    start := header.length + violation.start
    stop := header.length + violation.stop
    line := header.count '\n' + violation.line
    fix := violation.fix.map (Edit.below header) }

/-- The diagnostic below a header: its rule, path, column and source line stay. -/
def Diagnostic.below (header : Text) (diagnostic : Diagnostic) : Diagnostic :=
  { diagnostic with
    start := header.length + diagnostic.start
    stop := header.length + diagnostic.stop
    line := header.count '\n' + diagnostic.line
    fix := diagnostic.fix.map (Edit.below header) }

/-- The outcome of a scan below a header. -/
def ScanResult.below (header : Text) (result : ScanResult) : ScanResult :=
  { result with
    diagnostics := result.diagnostics.map (Diagnostic.below header)
    fix := result.fix.map (Edit.below header) }

/-- The bundle below a header. -/
def Bundle.below (header : Text) (b : Bundle) : Bundle :=
  { b with statement := b.statement.below header }

/-! ## Slices -/

namespace Text

variable {header source : Text} {i j : Int}

theorem place_below (hi : 0 ≤ i) :
    place (header ++ source).length (header.length + i) = header.length + place source.length i := by
  unfold place
  rw [if_neg (by omega), if_neg (by omega), List.length_append]
  omega

theorem upTo_below (hi : 0 ≤ i) : (header ++ source).upTo (header.length + i) = header ++ source.upTo i := by
  rw [upTo, place_below hi, List.take_length_add_append, upTo]

theorem onward_below (hi : 0 ≤ i) : (header ++ source).onward (header.length + i) = source.onward i := by
  rw [onward, place_below hi, List.drop_length_add_append, onward]

theorem slice_below (hi : 0 ≤ i) (hj : 0 ≤ j) :
    (header ++ source).slice (header.length + i) (header.length + j) = source.slice i j := by
  rw [slice, place_below hi, place_below hj, List.take_length_add_append, List.drop_length_add_append, slice]

end Text

/-! ## Lines -/

namespace LineIndex

theorem breaksFrom_add (offset n : Nat) (t : Text) :
    breaksFrom (offset + n) t = (breaksFrom offset t).map (n + ·) := by
  induction t generalizing offset with
  | nil => rfl
  | cons c t ih =>
    have hoffset : offset + n + 1 = offset + 1 + n := by omega
    rw [breaksFrom, breaksFrom, hoffset, ih]
    split
    · rw [List.map_cons, Nat.add_comm n]
    · rfl

variable {header source : Text}

theorem breaks_below : breaksFrom 0 (header ++ source) =
    breaksFrom 0 header ++ (breaksFrom 0 source).map (header.length + ·) := by
  rw [breaksFrom_append, breaksFrom_add]

theorem lineOf_below (n : Nat) : (ofText (header ++ source)).lineOf ((header.length + n : Nat) : Int) =
    header.count '\n' + (ofText source).lineOf n := by
  rw [lineOf_ofText, lineOf_ofText, List.take_length_add_append, List.count_append]
  omega

/-- Lines behind the first one start at the place they had, counted from the header's end. -/
theorem startOf?_below {line : Int} (h : 1 ≤ line) :
    (ofText (header ++ source)).startOf? (header.count '\n' + line) =
      ((ofText source).startOf? line).map (header.length + ·) := by
  obtain ⟨n, rfl⟩ : ∃ n : Nat, line = n + 1 := ⟨(line - 1).toNat, by omega⟩
  have hline : ((header.count '\n' : Nat) + ((n : Int) + 1)).toNat = header.count '\n' + n + 1 := by omega
  have hline' : ((n : Int) + 1).toNat = n + 1 := by omega
  unfold startOf?
  rw [if_neg (by omega), if_neg (by omega), hline, hline', ofText, ofText, List.getElem?_toArray,
    List.getElem?_toArray, List.getElem?_cons_succ, List.getElem?_cons_succ, breaks_below]
  rw [List.getElem?_append_right (by rw [length_breaksFrom]; omega), length_breaksFrom, Nat.add_sub_cancel_left,
    List.getElem?_map]

theorem isSome_startOf?_lineOf (source : Text) (n : Nat) :
    ∃ start, (ofText source).startOf? ((ofText source).lineOf n) = some start := by
  have hle : (source.take n).count '\n' ≤ source.count '\n' := (List.take_sublist n source).count_le '\n'
  have hsize := size_starts source
  rw [lineOf_ofText]
  unfold startOf?
  rw [if_neg (by omega), Int.toNat_natCast]
  exact ⟨_, Array.getElem?_eq_getElem (by omega)⟩

theorem columnOf_below {n : Nat} (h : 1 ≤ (ofText source).lineOf n) :
    (ofText (header ++ source)).columnOf ((header.length + n : Nat) : Int) = (ofText source).columnOf n := by
  obtain ⟨start, hstart⟩ := isSome_startOf?_lineOf source n
  unfold columnOf
  rw [lineOf_below, startOf?_below h, hstart, Option.map_some, Option.getD_some, Option.getD_some]
  omega

theorem startOf?_pos {line : Int} {start : Nat} (h : 1 ≤ line)
    (hstart : (ofText source).startOf? line = some start) : 0 < start := by
  obtain ⟨n, rfl⟩ : ∃ n : Nat, line = n + 1 := ⟨(line - 1).toNat, by omega⟩
  have hline : ((n : Int) + 1).toNat = n + 1 := by omega
  unfold startOf? at hstart
  rw [if_neg (by omega), hline, ofText, List.getElem?_toArray, List.getElem?_cons_succ] at hstart
  exact lt_of_mem_breaksFrom (List.mem_of_getElem? hstart)

theorem stopOf?_nonneg {line stop : Int} (h : 1 ≤ line) (hstop : (ofText source).stopOf? line = some stop) :
    0 ≤ stop := by
  unfold stopOf? at hstop
  split at hstop
  · obtain ⟨next, hnext, rfl⟩ := Option.map_eq_some_iff.mp hstop
    have hpos := startOf?_pos (by omega) hnext
    omega
  · obtain rfl := Option.some.inj hstop
    omega

theorem stopOf?_below {line : Int} (h : 1 ≤ line) :
    (ofText (header ++ source)).stopOf? (header.count '\n' + line) =
      ((ofText source).stopOf? line).map fun stop : Int => header.length + stop := by
  have hsize := size_starts (header ++ source)
  have hsize' := size_starts source
  rw [List.count_append] at hsize
  have hnext : (header.count '\n' : Int) + line + 1 = header.count '\n' + (line + 1) := by omega
  unfold stopOf?
  rw [hnext, startOf?_below (by omega)]
  by_cases hlast : line + 1 < (ofText source).starts.size
  · rw [if_pos (by omega), if_pos hlast, Option.map_map, Option.map_map]
    congr 1
    funext next
    show ((header.length + next : Nat) : Int) - 1 = header.length + ((next : Int) - 1)
    omega
  · rw [if_neg (by omega), if_neg hlast]
    show some (((header ++ source).length : Nat) : Int) = some ((header.length : Int) + source.length)
    rw [List.length_append]
    rfl

theorem lineText?_below {line : Int} (h : 1 ≤ line) :
    (ofText (header ++ source)).lineText? (header.count '\n' + line) = (ofText source).lineText? line := by
  rw [lineText?_eq, lineText?_eq, startOf?_below h, stopOf?_below h]
  cases (ofText source).startOf? line with
  | none => rfl
  | some start =>
    cases hstop : (ofText source).stopOf? line with
    | none => rfl
    | some stop =>
      have hslice : (header ++ source).slice (header.length + start) (header.length + stop) =
          source.slice start stop :=
        Text.slice_below (by omega) (stopOf?_nonneg h hstop)
      show some (((header ++ source).slice ((header.length + start : Nat) : Int) (header.length + stop)).dropEndWhile
        (· == '\r')) = some ((source.slice start stop).dropEndWhile (· == '\r'))
      rw [← hslice, Int.natCast_add]

end LineIndex

/-! ## Statements -/


namespace Document

variable {header source : Text}

/-- A piece of a source, as a statement below a header. -/
theorem statementIn_below {piece : Piece} (hstart : piece.start <:+ source) (hrest : piece.rest <:+ piece.start) :
    statementIn (header ++ source) piece = (statementIn source piece).below header := by
  have hlen := hstart.length_le
  have hlen' := hrest.length_le
  have hlength : (header ++ source).length = header.length + source.length := List.length_append
  have hstart' : (header ++ source).length - piece.start.length =
      header.length + (source.length - piece.start.length) := by omega
  have hstop' : (header ++ source).length - piece.rest.length =
      header.length + (source.length - piece.rest.length) := by omega
  -- the place of the last character, which is not before the first
  obtain ⟨n, hn⟩ : ∃ n : Nat, max ((source.length - piece.start.length : Nat) : Int)
      ((source.length - piece.rest.length : Nat) - 1) = n := ⟨_, (Int.toNat_of_nonneg (by omega)).symm⟩
  have hn' : max ((header.length + (source.length - piece.start.length) : Nat) : Int)
      ((header.length + (source.length - piece.rest.length) : Nat) - 1) = (header.length + n : Nat) := by omega
  unfold statementIn statementOf Statement.below
  rw [hstart', hstop']
  dsimp only
  rw [hn, hn', LineIndex.lineOf_below, LineIndex.lineOf_below, Int.natCast_add, Int.natCast_add]

theorem dropInterpreterLine_below (hheader : Trivia.Closed header) (hsource : ¬['#', '!'] <+: source) :
    dropInterpreterLine (header ++ source) = header ++ source := by
  apply dropInterpreterLine_eq_self
  cases hheader with
  | nil => exact hsource
  | @blank c g hc _ =>
    intro hline
    obtain rfl : '#' = c := (List.cons_prefix_cons.mp hline).1
    exact absurd hc (by decide)
  | line => simp
  | block => simp

theorem pieces_below [Stack] (hheader : Trivia.Closed header) (hsource : ¬['#', '!'] <+: source) :
    pieces State.initial (dropInterpreterLine (header ++ source)) =
      pieces State.initial (dropInterpreterLine source) := by
  rw [dropInterpreterLine_below hheader hsource, dropInterpreterLine_eq_self hsource]
  exact pieces_of_drop_eq (hheader.drop_append source)

/-- A source that cannot be read cannot be read below a header, for the same reason. -/
theorem parse_below_error [Stack] (hheader : Trivia.Closed header) (hsource : ¬['#', '!'] <+: source)
    {error : SourceError}
    (h : parse source = .error error) : parse (header ++ source) = .error (error.below header) := by
  unfold parse at h ⊢
  rw [pieces_below hheader hsource]
  split at h
  · rename_i fault hfault
    have hlen := ((pieces_fault hfault).suffix.trans (dropInterpreterLine_suffix source)).length_le
    have hoffset : (header ++ source).length - fault.tail.length =
        header.length + (source.length - fault.tail.length) := by
      rw [List.length_append]
      omega
    rw [← Except.error.inj h, SourceError.below, hoffset]
  · simp at h

/-- A source that can be read has the same statements below a header. -/
theorem parse_below [Stack] (hheader : Trivia.Closed header) (hsource : ¬['#', '!'] <+: source) {document : Document}
    (h : parse source = .ok document) : parse (header ++ source) =
      .ok ⟨LineIndex.ofText (header ++ source), document.statements.map (Statement.below header)⟩ := by
  obtain ⟨sections, houtline, hstatements⟩ := outline_of_parse h
  have hpieces := (pieces_below hheader hsource).trans houtline.pieces_eq
  have hbelow : ∀ s ∈ sections,
      statementIn (header ++ source) s.piece = (statementIn source s.piece).below header := by
    intro s hs
    obtain ⟨hstart, hrest⟩ := houtline.forall_suffix s hs
    exact statementIn_below (hstart.trans (dropInterpreterLine_suffix source)) hrest.1
  unfold parse
  rw [hpieces]
  dsimp only
  rw [houtline.joinCode_eq, hstatements, List.map_map, List.map_map]
  congr 2
  exact List.map_congr_left hbelow

end Document

/-! ## Violations -/

namespace Violation

variable {header : Text} {config : Configuration} {fix : Option Edit}

theorem between?_below (s s' : Statement) :
    between? config (fix.map (Edit.below header)) (s.below header) (s'.below header) =
      (between? config fix s s').map (Violation.below header) := by
  have hgap : (header.count '\n' : Int) + s'.line - (header.count '\n' + s.endLine) = s'.line - s.endLine := by omega
  unfold between?
  dsimp only [Statement.below]
  rw [hgap]
  split
  · rw [Option.map_map]
    rfl
  · rfl

theorem analyze_below (statements : List Statement) :
    analyze config (fix.map (Edit.below header)) (statements.map (Statement.below header)) =
      (analyze config fix statements).map (Violation.below header) := by
  induction statements with
  | nil => rfl
  | cons s rest ih =>
    cases rest with
    | nil => rfl
    | cons s' rest =>
      rw [List.map_cons, List.map_cons, analyze, between?_below, ← List.map_cons, ih, analyze, List.map_append,
        Option.toList_map]

/-- Only imports on different lines are compared. -/
theorem one_le_gap {gap : Int} {path path' : Text} {rule : Rule} (h : rule? config gap path path' = some rule) :
    1 ≤ gap := by
  by_contra hgap
  unfold rule? at h
  rw [if_neg (by omega), if_neg (by omega)] at h
  simp at h

/-- A violation is placed at an import that begins below the end of another statement. -/
theorem exists_of_mem_analyze {statements : List Statement} {violation : Violation}
    (h : violation ∈ analyze config fix statements) : ∃ s ∈ statements, ∃ s' ∈ statements, s'.isImport = true ∧
      violation.start = s'.start ∧ violation.stop = s'.stop ∧ violation.line = s'.line ∧ s.endLine < s'.line := by
  induction statements with
  | nil => simp [analyze] at h
  | cons s rest ih =>
    cases rest with
    | nil => simp [analyze] at h
    | cons s' rest =>
      rw [analyze, List.mem_append] at h
      rcases h with h | h
      · refine ⟨s, List.mem_cons_self, s', by simp, ?_⟩
        unfold between? at h
        split at h
        · rename_i path path' _ hpath'
          obtain ⟨rule, hrule, rfl⟩ := Option.map_eq_some_iff.mp (Option.mem_toList.mp h)
          have hgap := one_le_gap hrule
          exact ⟨by simp [Statement.isImport, hpath'], rfl, rfl, rfl, by omega⟩
        · simp at h
      · obtain ⟨s₁, hs₁, s₂, hs₂, hplace⟩ := ih h
        exact ⟨s₁, List.mem_cons_of_mem _ hs₁, s₂, List.mem_cons_of_mem _ hs₂, hplace⟩

end Violation

/-- A violation of a source is shown below a header with its column and its source line. -/
theorem Diagnostic.ofViolation_below {header source : Text} {config : Configuration} {fix : Option Edit}
    {statements : List Statement} {violation : Violation} (hfits : ∀ s ∈ statements, s.Fits source)
    (h : violation ∈ Violation.analyze config fix statements) :
    ofViolation (LineIndex.ofText (header ++ source)) (violation.below header) =
      (ofViolation (LineIndex.ofText source) violation).below header := by
  obtain ⟨s, hs, s', hs', -, hstart, -, hline, hlt⟩ := Violation.exists_of_mem_analyze h
  have hnonneg := (hfits s hs).endLine_eq
  obtain ⟨n, hn⟩ := Int.eq_ofNat_of_zero_le (hfits s' hs').start_nonneg
  have hle : n ≤ source.length := by
    have := (hfits s' hs').start_lt_stop
    have := (hfits s' hs').stop_le
    omega
  -- another statement ends above it, so the violation is not on the first line
  have hpos : 1 ≤ violation.line := by omega
  have hlineOf : violation.line = (LineIndex.ofText source).lineOf n := by
    rw [hline, (hfits s' hs').line_eq, hn, LineIndex.lineOf_ofText, Text.upTo, Text.place_natCast,
      Nat.min_eq_left hle]
  have hcolumn : (LineIndex.ofText (header ++ source)).columnOf (header.length + violation.start) =
      (LineIndex.ofText source).columnOf violation.start := by
    rw [hstart, hn, ← Int.natCast_add]
    exact LineIndex.columnOf_below (by omega)
  unfold ofViolation Diagnostic.below
  dsimp only [Violation.below]
  rw [hcolumn, LineIndex.lineText?_below hpos, Int.add_assoc]

/-! ## The plan -/

theorem Edit.apply_below {header source : Text} {edit : Edit} (hstart : 0 ≤ edit.start) (hstop : 0 ≤ edit.stop) :
    (edit.below header).apply (header ++ source) = header ++ edit.apply source := by
  unfold Edit.apply
  dsimp only [Edit.below]
  rw [Text.upTo_below hstart, Text.onward_below hstop, List.append_assoc, List.append_assoc, List.append_assoc]

namespace Plan

variable {header source : Text} {config : Configuration}

theorem gapAfter_below {s : Statement} {rest : List Statement} (hstop : 0 ≤ s.stop)
    (hrest : ∀ s' ∈ rest, 0 ≤ s'.start) :
    gapAfter (header ++ source) (s.below header) (rest.map (Statement.below header)) = gapAfter source s rest := by
  unfold gapAfter
  cases rest with
  | nil =>
    dsimp only [List.map_nil, List.head?_nil, Option.map_none, Option.getD_none, Statement.below]
    rw [List.length_append, Int.natCast_add]
    exact Text.slice_below hstop (by omega)
  | cons s' rest => exact Text.slice_below hstop (hrest s' List.mem_cons_self)

theorem bundles_below {leading : Text} {statements : List Statement}
    (h : ∀ s ∈ statements, 0 ≤ s.start ∧ 0 ≤ s.stop) :
    bundles (header ++ source) leading (statements.map (Statement.below header)) =
      (bundles source leading statements).map (Bundle.below header) := by
  induction statements generalizing leading with
  | nil => rfl
  | cons s rest ih =>
    have hrest : ∀ s' ∈ rest, 0 ≤ s'.start ∧ 0 ≤ s'.stop := fun s' hs' => h s' (List.mem_cons_of_mem s hs')
    have hgap : gapAfter (header ++ source) (s.below header) (rest.map (Statement.below header)) =
        gapAfter source s rest :=
      gapAfter_below (h s List.mem_cons_self).2 fun s' hs' => (hrest s' hs').1
    rw [List.map_cons, bundles_cons, bundles_cons, hgap, ih hrest, List.map_cons, Bundle.below]

theorem span_below {statements : List Statement} (h : ∀ s ∈ statements, 0 ≤ s.start ∧ 0 ≤ s.stop) :
    span (header ++ source) (statements.map (Statement.below header)) =
      (span source statements).map (Bundle.below header) := by
  have hfront : (statements.map (Statement.below header)).dropWhile (!·.isImport) =
      (statements.dropWhile (!·.isImport)).map (Statement.below header) := List.dropWhile_map ..
  have hback : ∀ all : List Bundle, (all.map (Bundle.below header)).dropWhile (!·.statement.isImport) =
      (all.dropWhile (!·.statement.isImport)).map (Bundle.below header) := fun all => List.dropWhile_map ..
  have hmem : ∀ s ∈ statements.dropWhile (!·.isImport), 0 ≤ s.start ∧ 0 ≤ s.stop :=
    fun s hs => h s ((List.dropWhile_sublist _).mem hs)
  rw [span, hfront, bundles_below hmem, ← List.map_reverse, hback, ← List.map_reverse, span]

/-- The canonical form has the same text below a header. -/
theorem canonicalText_below (newline : Text) (all : List Bundle) :
    canonicalText config newline (all.map (Bundle.below header)) = canonicalText config newline all := by
  have hbelow : ∀ b : Bundle, Alike (b.below header) b := fun _ => ⟨rfl, rfl, rfl, rfl⟩
  exact canonicalText_map hbelow newline all

theorem statement_mem_of_mem_span {statements : List Statement} {b : Bundle} (h : b ∈ span source statements) :
    b.statement ∈ statements := by
  rw [span, List.mem_reverse] at h
  have hmem := List.mem_reverse.mp ((List.dropWhile_sublist _).mem h)
  have hstatement := List.mem_map_of_mem (f := Bundle.statement) hmem
  rw [map_statement_bundles] at hstatement
  exact (List.dropWhile_sublist _).mem hstatement

/-- A span is empty, and nothing is planned for it, or it has a first and a last bundle. -/
theorem span_cases (source : Text) (statements : List Statement) :
    span source statements = [] ∨ ∃ first last, (span source statements).head? = some first ∧
      (span source statements).getLast? = some last := by
  cases span source statements with
  | nil => exact .inl rfl
  | cons first rest => exact .inr ⟨first, _, rfl, List.getLast?_eq_some_getLast (by simp)⟩

theorem plan_of_span_nil {statements : List Statement} (h : span source statements = []) :
    plan config source statements = none := by
  unfold plan
  rw [h]

/-- The edit planned for a source, below a header. -/
theorem plan_below {statements : List Statement} (h : ∀ s ∈ statements, 0 ≤ s.start ∧ 0 ≤ s.stop)
    (hnewline : newlineOf (header ++ source) = newlineOf source) :
    plan config (header ++ source) (statements.map (Statement.below header)) =
      (plan config source statements).map (Edit.below header) := by
  have hspan : span (header ++ source) (statements.map (Statement.below header)) =
      (span source statements).map (Bundle.below header) := span_below h
  rcases span_cases source statements with hnil | ⟨first, last, hfirst, hlast⟩
  · rw [hnil, List.map_nil] at hspan
    rw [plan_of_span_nil hnil, plan_of_span_nil hspan, Option.map_none]
  · have hfirst' : (span (header ++ source) (statements.map (Statement.below header))).head? =
        some (first.below header) := by rw [hspan, List.head?_map, hfirst, Option.map_some]
    have hlast' : (span (header ++ source) (statements.map (Statement.below header))).getLast? =
        some (last.below header) := by rw [hspan, List.getLast?_map, hlast, Option.map_some]
    have hstop := (h _ (statement_mem_of_mem_span (List.mem_of_getLast? hlast))).2
    -- the place behind the last import moves by the length of the header
    have hplace : min (header.length + last.statement.stop + last.trailing.length).toNat (header ++ source).length =
        header.length + min (last.statement.stop + last.trailing.length).toNat source.length := by
      rw [List.length_append]
      omega
    rw [plan_eq config hfirst hlast, plan_eq config hfirst' hlast', hspan, canonicalText_below, hnewline]
    dsimp only [Bundle.below, Statement.below]
    rw [hplace, List.drop_length_add_append]
    split
    · rw [Option.map_some, Edit.below]
      dsimp only
      rw [Nat.add_assoc, Int.natCast_add]
    · rw [Option.map_some, Edit.below]
      dsimp only
      rw [Int.add_assoc]

theorem plan_nonneg {statements : List Statement} {edit : Edit} (h : ∀ s ∈ statements, 0 ≤ s.start ∧ 0 ≤ s.stop)
    (hplan : plan config source statements = some edit) : 0 ≤ edit.start ∧ 0 ≤ edit.stop := by
  rcases span_cases source statements with hnil | ⟨first, last, hfirst, hlast⟩
  · rw [plan_of_span_nil hnil] at hplan
    simp at hplan
  · have hstart := (h _ (statement_mem_of_mem_span (List.mem_of_head? hfirst))).1
    have hstop := (h _ (statement_mem_of_mem_span (List.mem_of_getLast? hlast))).2
    rw [plan_eq config hfirst hlast] at hplan
    dsimp only at hplan
    split at hplan
    · obtain rfl := Option.some.inj hplan
      exact ⟨hstart, Int.natCast_nonneg _⟩
    · obtain rfl := Option.some.inj hplan
      exact ⟨hstart, by dsimp only; omega⟩

end Plan

/-! ## The scan -/

theorem scan_of_parse [Stack] {config : Configuration} {filename : String} {source : Text} {document : Document}
    (h : Document.parse source = .ok document) :
    scan config filename source = .ok
      (let fix := Plan.plan config source document.statements
      let diagnostics := (Violation.analyze config fix document.statements).map
        (Diagnostic.ofViolation document.index)
      if diagnostics.isEmpty then ⟨if filename = "" then stdinName else filename, .passed, [], none, false⟩
      else ⟨if filename = "" then stdinName else filename, .rejected, diagnostics, fix, false⟩) := by
  unfold scan
  rw [h]
  dsimp only
  split
  · rfl
  · rfl

theorem index_of_parse [Stack] {source : Text} {document : Document} (h : Document.parse source = .ok document) :
    document.index = LineIndex.ofText source := by
  unfold Document.parse at h
  split at h
  · simp at h
  · rw [← Except.ok.inj h]

section

variable {header source : Text} {document : Document} {config : Configuration}

/-- What is shown of a source below a header. -/
theorem diagnostics_below [Stack] {fix : Option Edit} (h : Document.parse source = .ok document) :
    (Violation.analyze config (fix.map (Edit.below header))
      (document.statements.map (Statement.below header))).map
        (Diagnostic.ofViolation (LineIndex.ofText (header ++ source))) =
      ((Violation.analyze config fix document.statements).map (Diagnostic.ofViolation document.index)).map
        (Diagnostic.below header) := by
  rw [Violation.analyze_below, List.map_map, List.map_map, index_of_parse h]
  exact List.map_congr_left fun violation hmem => Diagnostic.ofViolation_below (Document.fits_of_parse h) hmem

theorem nonneg_of_parse [Stack] (h : Document.parse source = .ok document) :
    ∀ s ∈ document.statements, 0 ≤ s.start ∧ 0 ≤ s.stop := by
  intro s hs
  have hfits := Document.fits_of_parse h s hs
  have hstart := hfits.start_nonneg
  have hlt := hfits.start_lt_stop
  exact ⟨hstart, by omega⟩

/-- Trivia in front of a source does not change how the source is read, judged and fixed: errors, statements,
diagnostics and the edit are those of the source, moved down behind the trivia, and fixing leaves the trivia as it
is. -/
theorem scan_below [Stack] (config : Configuration) (filename : String) (hheader : Trivia.Closed header)
    (hsource : ¬['#', '!'] <+: source) (hnewline : Plan.newlineOf (header ++ source) = Plan.newlineOf source) :
    (∀ error', Document.parse (header ++ source) = .error error' ↔
      ∃ error, Document.parse source = .error error ∧ error' = error.below header) ∧
    ∀ document, Document.parse source = .ok document →
      ∃ result, scan config filename source = .ok result ∧
        scan config filename (header ++ source) = .ok (result.below header) ∧
        (result.below header).applyFix (header ++ source) = header ++ result.applyFix source := by
  constructor
  · intro error'
    cases hparse : Document.parse source with
    | error error =>
      rw [Document.parse_below_error hheader hsource hparse]
      simp [eq_comm]
    | ok document =>
      rw [Document.parse_below hheader hsource hparse]
      simp
  · intro document hparse
    have hnonneg := nonneg_of_parse hparse
    have hplan : Plan.plan config (header ++ source) (document.statements.map (Statement.below header)) =
        (Plan.plan config source document.statements).map (Edit.below header) := Plan.plan_below hnonneg hnewline
    refine ⟨_, scan_of_parse hparse, ?_, ?_⟩
    · rw [scan_of_parse (Document.parse_below hheader hsource hparse)]
      dsimp only
      rw [hplan, diagnostics_below hparse, List.isEmpty_map]
      split
      · rfl
      · rfl
    · dsimp only
      split
      · rfl
      · cases hedit : Plan.plan config source document.statements with
        | none => rfl
        | some edit =>
          obtain ⟨hstart, hstop⟩ := Plan.plan_nonneg hnonneg hedit
          exact Edit.apply_below hstart hstop

/-- A header that ends in the middle of a line. -/
def blockHeader : Text := "// notes\n\t/* more\n */ ".toList

/-- Two imports out of order, with a comment on the line of the first. -/
def unsortedSource : Text := "import b from 'b' // b\nimport a from 'a'\n".toList

section

open ImportOrder.Runtime

theorem scan_below_unsortedSource :
    ∃ result, scan {} "" unsortedSource = .ok result ∧
      result.diagnostics.map (fun d => (d.start, d.line, d.column)) = [(23, 2, 1)] ∧
      scan {} "" (blockHeader ++ unsortedSource) = .ok (result.below blockHeader) ∧
      (result.below blockHeader).applyFix (blockHeader ++ unsortedSource) =
        blockHeader ++ result.applyFix unsortedSource := by
  have hread : (scan {} "" unsortedSource).toOption.map (fun result =>
      result.diagnostics.map fun d => (d.start, d.line, d.column)) = some [(23, 2, 1)] := by
    decide +kernel
  have hheader : Trivia.Closed blockHeader := by decide +kernel
  have hsource : ¬['#', '!'] <+: unsortedSource := by decide +kernel
  cases hparse : Document.parse unsortedSource with
  | error error => simp [scan, hparse, Except.toOption] at hread
  | ok document =>
    obtain ⟨result, hresult, hscan, hfix⟩ :=
      (scan_below {} "" hheader hsource (by decide +kernel)).2 document hparse
    rw [hresult] at hread
    exact ⟨result, hresult, Option.some.inj hread, hscan, hfix⟩

end

end

end ImportOrder
