import ImportOrder.Proofs.EditedSource
import ImportOrder.Runtime

/-!
# A fixed source has nothing to fix

In the canonical form two imports on consecutive lines share a group and are sorted, and two imports with an empty
line between them belong to different groups in canonical order. So a second scan that reads the imports where they
were set finds no violation down to the last of them, and is clean exactly when none follows.
-/

namespace ImportOrder

open Source

/-! ## Lines between declarations -/

/-- A declaration does not end with a line break. -/
theorem Source.Outline.forall_last [Stack] {state : State} {t : Text} {sections : List Section}
    (h : Outline state t sections) :
    ∀ s ∈ sections, s.piece.path.isSome → ∃ c, c ≠ '\n' ∧ c :: s.piece.rest <:+ s.piece.start := by
  intro s hs hpath
  obtain ⟨before, behind, hsplit⟩ := List.append_of_mem hs
  cases h.section_read hsplit with
  | declaration hdecl =>
    obtain ⟨c, hc, hlast⟩ := readDeclaration_last (declarationAt_some_iff.mp hdecl).2
    refine ⟨c, ?_, hlast⟩
    rintro rfl
    exact absurd hc (by decide)
  | code => simp at hpath

/-- The lines from the end of one piece to the start of a later one are the line feeds between them. -/
theorem Document.line_sub_endLine {source between : Text} {p q : Piece} {c : Char} (hp : p.start <:+ source)
    (hc : c ≠ '\n') (hlast : c :: p.rest <:+ p.start) (hrest : p.rest = between ++ q.start)
    (hq : ProperTail q.rest q.start) :
    (statementIn source q).line - (statementIn source p).endLine = (between.count '\n' : Nat) := by
  obtain ⟨w, hw⟩ := hlast.trans hp
  have hq' : q.start <:+ source := ⟨w ++ c :: between, by rw [← hw, hrest]; simp⟩
  have hp' : ProperTail p.rest p.start := ⟨(List.suffix_cons c p.rest).trans hlast, hlast.length_le⟩
  have hline := (statementIn_fits hq' hq).line_eq
  have hendLine := (statementIn_fits hp hp').endLine_eq
  -- the last line of `p` is counted before its last character `c`, which is no line feed
  have hstop : (statementIn source p).stop - 1 = (source.offsetOf (c :: p.rest) : Nat) := by
    have hlen := congrArg List.length hw
    rw [List.length_append, List.length_cons] at hlen
    rw [statementIn_stop, Text.offsetOf, Text.offsetOf, List.length_cons]
    omega
  have hbefore : source.before (c :: p.rest) = w := by rw [← hw, Text.before_append]
  have hbefore' : source.before q.start = w ++ c :: between := by
    rw [← hw, hrest, ← List.cons_append, ← List.append_assoc, Text.before_append]
  rw [statementIn_start, Text.upTo_offsetOf, hbefore', List.count_append, List.count_cons_of_ne hc] at hline
  rw [hstop, Text.upTo_offsetOf, hbefore] at hendLine
  omega

namespace Violation

variable {config : Configuration} {fix : Option Edit} {s s' : Statement}

/-- Two neighbouring statements break no rule. -/
def Obeys (config : Configuration) (s s' : Statement) : Prop :=
  ∀ path ∈ s.path, ∀ path' ∈ s'.path, rule? config (s'.line - s.endLine) path path' = none

theorem between?_eq_none_iff : between? config fix s s' = none ↔ Obeys config s s' := by
  unfold between? Obeys
  split
  · rename_i path path' hpath hpath'
    simp [hpath, hpath']
  · rename_i hnone
    simp only [true_iff]
    intro path hpath path' hpath'
    exact absurd hpath' (hnone path path' hpath)

/-- There are no violations exactly when no two neighbours break a rule. -/
theorem analyze_eq_nil_iff {statements : List Statement} :
    analyze config fix statements = [] ↔ statements.IsChain (Obeys config) := by
  induction statements with
  | nil => simp [analyze]
  | cons s rest ih =>
    cases rest with
    | nil => simp [analyze]
    | cons s' rest =>
      rw [analyze, List.append_eq_nil_iff, ih, List.isChain_cons_cons, ← between?_eq_none_iff,
        Option.toList_eq_nil_iff]

theorem rule?_sameGroup {path path' : Text} (hclass : config.classify path' = config.classify path)
    (hle : config.isSorted (config.classify path) path path' = true) : rule? config 1 path path' = none := by
  rw [rule?]
  simp [hclass, hle]

theorem rule?_laterGroup {path path' : Text} {gap : Int} (hgap : 1 < gap)
    (hlt : (config.classify path).precedence < (config.classify path').precedence) :
    rule? config gap path path' = none := by
  have hne : config.classify path' ≠ config.classify path := by
    intro heq
    rw [heq] at hlt
    omega
  rw [rule?, if_neg (by omega), if_pos hgap, if_neg hne, if_neg (by omega)]

end Violation

namespace Plan

/-- One declaration stands below another, and they break no rule. -/
def Lined (config : Configuration) (p q : Piece) : Prop :=
  ∃ path path' between, p.path = some path ∧ q.path = some path' ∧ p.rest = between ++ q.start ∧
    Violation.rule? config (between.count '\n' : Nat) path path' = none

section

variable {config : Configuration} {source newline left tail : Text} {slots : List Slot}

theorem count_newline (hnewline : IsNewline newline) : newline.count '\n' = 1 := by
  rcases hnewline with rfl | rfl <;> rfl

theorem Below.rule?_eq {a b : Slot} {trailing : Text} (hnewline : IsNewline newline)
    (h : Below config newline a b) (htrailing : LineComment trailing) :
    ∃ path path', a.bundle.statement.path = some path ∧ b.bundle.statement.path = some path' ∧
      Violation.rule? config ((trailing ++ b.above).count '\n' : Nat) path path' = none := by
  have hzero : trailing.count '\n' = 0 := List.count_eq_zero.mpr (not_mem_lineFeed htrailing.oneLine)
  have hone := count_newline hnewline
  cases h with
  | sameGroup hpath hpath' hclass hle habove =>
    refine ⟨_, _, hpath, hpath', ?_⟩
    rw [habove, List.count_append, hzero, hone]
    exact Violation.rule?_sameGroup hclass hle
  | laterGroup hpath hpath' hlt _ habove =>
    refine ⟨_, _, hpath, hpath', Violation.rule?_laterGroup ?_ hlt⟩
    rw [habove, List.count_append, List.count_append, List.count_append, hzero, hone]
    omega

/-- The declarations of the import slots follow each other without a violation. -/
theorem declarations_isChain (hnewline : IsNewline newline)
    (hchain : slots.IsChain (Below config newline)) (hcomment : ∀ slot ∈ slots, LineComment slot.bundle.trailing) :
    (declarations left tail slots).IsChain fun s s' => Lined config s.piece s'.piece := by
  induction slots with
  | nil => exact .nil
  | cons slot rest ih =>
    cases rest with
    | nil => exact .singleton _
    | cons next rest =>
      obtain ⟨hbelow, hrest⟩ := List.isChain_cons_cons.mp hchain
      have hdecls := ih hrest fun slot hslot => hcomment slot (List.mem_cons_of_mem _ hslot)
      obtain ⟨path, path', hpath, hpath', hrule⟩ := hbelow.rule?_eq hnewline (hcomment slot (by simp))
      obtain ⟨after, others, hcons⟩ := exists_declarations_cons left tail next rest
      rw [declarations, hcons]
      rw [hcons] at hdecls
      refine List.isChain_cons_cons.mpr ⟨⟨path, path', _, hpath, hpath', ?_, hrule⟩, hdecls⟩
      show slot.bundle.trailing ++ render tail (next :: rest) = _
      rw [render, Bundle.body, List.append_assoc, List.append_assoc]
      rfl

theorem Lined.obeys {p q : Piece} (h : Lined config p q) (hp : p.start <:+ source)
    (hlast : ∃ c, c ≠ '\n' ∧ c :: p.rest <:+ p.start) (hq : ProperTail q.rest q.start) :
    Violation.Obeys config (Document.statementIn source p) (Document.statementIn source q) := by
  obtain ⟨path, path', between, hpath, hpath', hrest, hrule⟩ := h
  obtain ⟨c, hc, htail⟩ := hlast
  intro path₁ hpath₁ path₂ hpath₂
  obtain rfl : path = path₁ := Option.some.inj (hpath.symm.trans hpath₁)
  obtain rfl : path' = path₂ := Option.some.inj (hpath'.symm.trans hpath₂)
  rw [Document.line_sub_endLine hp hc htail hrest hq]
  exact hrule

/-- How two sections stand to each other as statements of a source. -/
abbrev SectionsObey (config : Configuration) (source : Text) (s s' : Section) : Prop :=
  Violation.Obeys config (Document.statementIn source s.piece) (Document.statementIn source s'.piece)

/-- Of other code, declarations that break no rule, and what follows them, only the last declaration and what follows
it can break one. -/
theorem isChain_iff_tail [Stack] {parts decls sections : List Section}
    (houtline : Outline State.initial (dropInterpreterLine source) (parts ++ (decls ++ sections)))
    (hparts : ∀ s ∈ parts, s.piece.path = none)
    (hdecls : decls.IsChain fun s s' => Lined config s.piece s'.piece) :
    (parts ++ (decls ++ sections)).IsChain (SectionsObey config source) ↔
      (decls.getLast?.toList ++ sections).IsChain (SectionsObey config source) := by
  -- other code has no path, and the rules are about paths
  have hcode : ∀ s ∈ parts, ∀ s', SectionsObey config source s s' := by
    intro s hs s' path hpath
    rw [show (Document.statementIn source s.piece).path = none from hparts s hs] at hpath
    simp at hpath
  have hchain : parts.IsChain (SectionsObey config source) := by
    apply List.Pairwise.isChain
    exact List.pairwise_of_forall_mem_list fun s hs s' _ => hcode s hs s'
  have hdecls' : decls.IsChain (SectionsObey config source) := by
    refine hdecls.imp_of_mem_imp fun s s' hs hs' hlined => ?_
    have hmem : s ∈ parts ++ (decls ++ sections) := by simp [hs]
    have hmem' : s' ∈ parts ++ (decls ++ sections) := by simp [hs']
    have hplace := (houtline.forall_suffix s hmem).1.trans (Document.dropInterpreterLine_suffix source)
    obtain ⟨path, path', between, hpath, -⟩ := id hlined
    exact hlined.obeys hplace (houtline.forall_last s hmem (by rw [hpath]; rfl))
      (houtline.forall_suffix s' hmem').2
  have hlast : decls.getLast?.toList.IsChain (SectionsObey config source) := by
    cases decls.getLast? with
    | none => exact .nil
    | some s => exact .singleton s
  have hend : decls.getLast?.toList.getLast? = decls.getLast? := by
    cases decls.getLast? with
    | none => rfl
    | some s => rfl
  rw [List.isChain_append, List.isChain_append, List.isChain_append, hend]
  constructor
  · rintro ⟨-, ⟨-, hsections, hseam⟩, -⟩
    exact ⟨hlast, hsections, hseam⟩
  · rintro ⟨-, hsections, hseam⟩
    exact ⟨hchain, ⟨hdecls', hsections, hseam⟩, fun s hs s' _ => hcode s (List.mem_of_getLast? hs) s'⟩

end

theorem getLast?_declarations (left tail : Text) (slots : List Slot) :
    (declarations left tail slots).getLast? = slots.getLast?.map fun slot =>
      declared slot.bundle.statement.path
        (slot.bundle.statement.text ++ (slot.bundle.trailing ++ tail)) left := by
  induction slots with
  | nil => rfl
  | cons slot rest ih =>
    cases rest with
    | nil => rfl
    | cons next rest =>
      obtain ⟨after, others, hcons⟩ := exists_declarations_cons left tail next rest
      rw [declarations, List.getLast?_cons_cons, ← ih, hcons, List.getLast?_cons_cons]

end Plan

/-- The text can be scanned, and there is nothing to fix in it. -/
def ScannedClean [Stack] (config : Configuration) (filename : String) (text : Text) : Prop :=
  ∃ result, scan config filename text = .ok result ∧ result.diagnostics = [] ∧ result.fix = none

theorem scannedClean_iff [Stack] {config : Configuration} {filename : String} {text : Text} :
    ScannedClean config filename text ↔ ∃ document, Document.parse text = .ok document ∧
      document.statements.IsChain (Violation.Obeys config) := by
  unfold ScannedClean scan
  cases Document.parse text with
  | error error => simp
  | ok document =>
    dsimp only
    simp only [Except.ok.injEq, exists_eq_left']
    rw [← @Violation.analyze_eq_nil_iff config (Plan.plan config text document.statements)]
    cases Violation.analyze config (Plan.plan config text document.statements) document.statements with
    | nil => simp
    | cons violation others => simp

namespace Plan

section

variable {config : Configuration} {source : Text} {all : List Bundle} {edit : Edit}

theorem lastImport_eq (left : Text) : lastImport config source all edit left =
    (declarations left (belowImports config source all edit)
      (importSlots config (newlineOf source) all)).getLast?.map Section.piece := by
  rw [getLast?_declarations, Option.map_map, lastImport, behindImports]
  cases (importSlots config (newlineOf source) all).getLast? with
  | none => rfl
  | some slot => rfl

/-- No rule is broken from the last import of the edited source on, where the last import leaves `left` with these
sections in it. -/
def ObeysFromLast (config : Configuration) (source : Text) (all : List Bundle) (edit : Edit) (left : Text)
    (sections : List Section) : Prop :=
  ((declarations left (belowImports config source all edit)
    (importSlots config (newlineOf source) all)).getLast?.toList ++ sections).IsChain
      (SectionsObey config (edit.apply source))

theorem obeysFromLast_iff [Stack] {left : Text} {sections : List Section} (h : Outline ⟨0, .mark ';'⟩ left sections) :
    ObeysFromLast config source all edit left sections ↔
      (Violation.analyze config none (((lastImport config source all edit left).toList ++
        joinCode (sections.flatMap Section.tokens)).map (Document.statementIn (edit.apply source)))).isEmpty =
          true := by
  rw [List.isEmpty_iff, Violation.analyze_eq_nil_iff, h.joinCode_eq, lastImport_eq, Option.toList_map,
    ← List.map_append, List.map_map, List.isChain_map]
  rfl

/-- What the exact condition says of the outline of what the last import leaves. -/
theorem rulesKept_iff [Stack] : rulesKeptBehindImports config source all edit = true ↔
    ∃ left sections, leftBehindImports config source all edit = .ok left ∧
      Outline ⟨0, .mark ';'⟩ left sections ∧ ObeysFromLast config source all edit left sections := by
  unfold rulesKeptBehindImports
  constructor
  · intro hkept
    split at hkept
    · simp at hkept
    · rename_i left hleft
      split at hkept
      · simp at hkept
      · rename_i found hfound
        obtain ⟨sections, houtline⟩ := outline_of_pieces hfound
        obtain rfl := Except.ok.inj (hfound.symm.trans houtline.pieces_eq)
        exact ⟨left, sections, hleft, houtline, (obeysFromLast_iff houtline).mpr hkept⟩
  · rintro ⟨left, sections, hleft, houtline, hchain⟩
    rw [hleft]
    dsimp only
    rw [houtline.pieces_eq]
    exact (obeysFromLast_iff houtline).mp hchain

end

namespace Planned

variable [Stack] {config : Configuration} {source : Text} {document : Document} {all : List Bundle} {edit : Edit}
  {front middle back : List Statement} {first last : Statement}
  (h : Planned config source document all edit front middle back first last)
  (himports : ImportsUndisturbed config source all edit) {above behind : List Piece}
  (hreading : Reading source middle first last above behind)

include h himports hreading

/-- When the last import leaves `left`, the edited source can be read, and only from the last import on can it
break a rule. -/
theorem parse_apply {left : Text} {sections : List Section}
    (hleft : leftBehindImports config source all edit = .ok left)
    (houtline : Outline ⟨0, .mark ';'⟩ left sections) :
    ∃ document', Document.parse (edit.apply source) = .ok document' ∧
      (document'.statements.IsChain (Violation.Obeys config) ↔
        ObeysFromLast config source all edit left sections) := by
  obtain ⟨parts, houtline', hparts, -⟩ := h.exists_outline himports hreading hleft houtline
  obtain ⟨document', hparse', hstatements⟩ := Document.parse_of_outline houtline'
  refine ⟨document', hparse', ?_⟩
  have hbelow := (@importSlots_isChain config _ _ (isNewline_newlineOf source) (h.comments_of_undisturbed himports)).1
  have hdecls : (declarations left (belowImports config source all edit)
      (importSlots config (newlineOf source) all)).IsChain fun s s' => Lined config s.piece s'.piece :=
    declarations_isChain (isNewline_newlineOf source) hbelow (h.importRow himports).comment
  rw [hstatements, List.isChain_map]
  exact isChain_iff_tail houtline' hparts hdecls

/-- A second scan is clean exactly when no rule is broken from the last import on. -/
theorem scannedClean_iff_rulesKept (filename : String) :
    ScannedClean config filename (edit.apply source) ↔
      rulesKeptBehindImports config source all edit = true := by
  rw [scannedClean_iff, rulesKept_iff]
  constructor
  · rintro ⟨document', hparse', hobeys⟩
    -- the edited source can be read, so what the last import leaves can be
    obtain ⟨sections', hread', -⟩ := Document.outline_of_parse hparse'
    obtain ⟨left, others, hleft, hothers⟩ := h.exists_left himports hreading hread'.pieces_eq
    obtain ⟨sections, houtline⟩ := outline_of_pieces hothers
    obtain ⟨document'', hparse'', hiff⟩ := h.parse_apply himports hreading hleft houtline
    obtain rfl := Except.ok.inj (hparse'.symm.trans hparse'')
    exact ⟨left, sections, hleft, houtline, hiff.mp hobeys⟩
  · rintro ⟨left, sections, hleft, houtline, hchain⟩
    obtain ⟨document', hparse', hiff⟩ := h.parse_apply himports hreading hleft houtline
    exact ⟨document', hparse', hiff.mpr hchain⟩

/-- Other code behind the last import breaks no rule. -/
theorem rulesKept_of_undisturbed (hcode : CodeUndisturbed config source all edit) :
    rulesKeptBehindImports config source all edit = true := by
  obtain ⟨sections, houtline, hpath, -⟩ := h.outline_behindImports himports hcode hreading
  rw [rulesKept_iff]
  refine ⟨_, sections, hcode.left, houtline, ?_⟩
  have hobeys : ∀ s, ∀ s' ∈ sections, SectionsObey config (edit.apply source) s s' := by
    intro s s' hs' path _ path' hpath'
    rw [show (Document.statementIn (edit.apply source) s'.piece).path = none from hpath s' hs'] at hpath'
    simp at hpath'
  have hchain : sections.IsChain (SectionsObey config (edit.apply source)) := by
    apply List.Pairwise.isChain
    exact List.pairwise_of_forall_mem_list fun s _ s' hs' => hobeys s s' hs'
  unfold ObeysFromLast
  cases (declarations _ (belowImports config source all edit)
    (importSlots config (newlineOf source) all)).getLast? with
  | none => exact hchain
  | some s => exact List.isChain_cons.mpr ⟨fun s' hs' => hobeys s s' (List.mem_of_head? hs'), hchain⟩

end Planned

/-- When a fix disturbs neither the code above the imports nor the imports, a second scan finds nothing to fix
exactly when no rule is broken from the last import on, and always when the code behind is not disturbed either. -/
theorem scan_applyFix [Stack] {config : Configuration} {filename : String} {source : Text} {document : Document}
    {result : ScanResult} {edit : Edit} (hparse : Document.parse source = .ok document)
    (hscan : scan config filename source = .ok result) (hfix : result.fix = some edit)
    (himports : ImportsUndisturbed config source (span source document.statements) edit) :
    (ScannedClean config filename (result.applyFix source) ↔
      rulesKeptBehindImports config source (span source document.statements) edit = true) ∧
    (CodeUndisturbed config source (span source document.statements) edit →
      ScannedClean config filename (result.applyFix source)) := by
  obtain ⟨hplan, happly⟩ := plan_of_scan hparse hscan hfix
  obtain ⟨front, middle, back, first, last, h⟩ := exists_planned hparse hplan
  obtain ⟨above, behind, hreading⟩ := h.spanned.exists_reading hparse h.head h.getLast
  have hiff := h.scannedClean_iff_rulesKept himports hreading filename
  rw [happly]
  exact ⟨hiff, fun hcode => hiff.mpr (h.rulesKept_of_undisturbed himports hreading hcode)⟩

section

open ImportOrder.Runtime

theorem scan_applyFix_knitSource :
    ∃ document result, Document.parse knitSource = .ok document ∧ scan {} "" knitSource = .ok result ∧
      result.fix = some knitEdit ∧
      ImportsUndisturbed {} knitSource (span knitSource document.statements) knitEdit ∧
      CodeUndisturbed {} knitSource (span knitSource document.statements) knitEdit ∧
      ScannedClean {} "" (result.applyFix knitSource) := by
  obtain ⟨document, result, hparse, hspan, hscan, hfix⟩ := scan_knitSource
  have himports := importsUndisturbed_knitSource
  have hcode := codeUndisturbed_knitSource
  rw [← hspan] at himports hcode
  exact ⟨document, result, hparse, hscan, hfix, himports, hcode,
    (scan_applyFix hparse hscan hfix himports).2 hcode⟩

end

end Plan

end ImportOrder
