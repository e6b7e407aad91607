import ImportOrder.Proofs.EditedSource
import ImportOrder.Runtime

/-!
# A fix keeps the program

When an edit does not disturb reading, the edited source has the same imports as the source, in another order, and
the same tokens of other code in the same order. Where the imports are read as before, only the last of them may
take text that was not its own, and only behind it may the tokens come out differently.
-/

namespace ImportOrder

open Source

/-- The text of a statement and the path that it imports. -/
def Statement.content (s : Statement) : Text × Option Text :=
  (s.text, s.path)

/-- The tokens outside imports. -/
def Source.codeTexts (found : List Piece) : List Text :=
  (found.filter (·.path.isNone)).map Piece.text

/-- Both texts can be read, they have the same imports in some order, and the same other tokens in the same
order. -/
def KeepsProgram [Stack] (source edited : Text) : Prop :=
  ∃ document document' found found', Document.parse source = .ok document ∧
    Document.parse edited = .ok document' ∧
    ((document'.statements.filter (·.isImport)).map Statement.content).Perm
      ((document.statements.filter (·.isImport)).map Statement.content) ∧
    pieces State.initial (dropInterpreterLine source) = .ok found ∧
    pieces State.initial (dropInterpreterLine edited) = .ok found' ∧ codeTexts found' = codeTexts found

namespace Plan

section

variable {left tail : Text} {slots : List Slot} {slot : Slot}

/-- The declarations of the slots have the texts and paths of their statements, except that the last of them may
take some of what follows it. -/
theorem contents_declarations (left tail : Text) (slots : List Slot) (slot : Slot) :
    (declarations left tail (slots ++ [slot])).map (fun s => (s.piece.text, s.piece.path)) =
      slots.map (fun slot => slot.bundle.statement.content) ++
        [(Text.before (slot.bundle.statement.text ++ (slot.bundle.trailing ++ tail)) left,
          slot.bundle.statement.path)] := by
  induction slots with
  | nil => rfl
  | cons first rest ih =>
    obtain ⟨next, others, hcons⟩ := List.exists_cons_of_ne_nil (List.append_ne_nil_of_right_ne_nil rest
      (List.cons_ne_nil slot []))
    rw [List.cons_append, hcons, declarations, ← hcons, List.map_cons, ih, declared, Piece.text,
      Text.before_append]
    rfl

theorem isSome_of_mem_declarations (left tail : Text)
    (h : ∀ slot ∈ slots, slot.bundle.statement.isImport = true) :
    ∀ s ∈ declarations left tail slots, s.piece.path.isSome = true := by
  induction slots with
  | nil => simp [declarations]
  | cons slot rest ih =>
    have hslot := h slot (by simp)
    cases rest with
    | nil =>
      intro s hs
      obtain rfl : s = _ := List.mem_singleton.mp hs
      exact hslot
    | cons next rest =>
      intro s hs
      rcases List.mem_cons.mp hs with rfl | hs
      · exact hslot
      · exact ih (fun slot hslot => h slot (List.mem_cons_of_mem _ hslot)) s hs

theorem contents_sections (source : Text) (sections : List Section) :
    ((sections.map fun s => Document.statementIn source s.piece).filter (·.isImport)).map Statement.content =
      (sections.filter (·.piece.path.isSome)).map fun s => (s.piece.text, s.piece.path) := by
  rw [List.filter_map, List.map_map]
  rfl

/-- Other code, declarations, and what follows them, told apart by their paths. -/
theorem filter_parts {parts decls : List Section} (hparts : ∀ s ∈ parts, s.piece.path = none)
    (hdecls : ∀ s ∈ decls, s.piece.path.isSome = true) (sections : List Section) :
    (parts ++ (decls ++ sections)).filter (·.piece.path.isSome) =
        decls ++ sections.filter (·.piece.path.isSome) ∧
      (parts ++ (decls ++ sections)).filter (·.piece.path.isNone) =
        parts ++ sections.filter (·.piece.path.isNone) := by
  have hsome : parts.filter (·.piece.path.isSome) = [] :=
    List.filter_eq_nil_iff.mpr fun s hs => by simp [hparts s hs]
  have hnone : decls.filter (·.piece.path.isNone) = [] := by
    rw [List.filter_eq_nil_iff]
    intro s hs hnone
    have hpath := hdecls s hs
    rw [Option.isNone_iff_eq_none.mp hnone] at hpath
    simp at hpath
  simp only [List.filter_append]
  rw [hsome, hnone, filter_code hparts, List.filter_eq_self.mpr hdecls]
  exact ⟨rfl, rfl⟩

theorem codeTexts_sections [Stack] {state : State} {t : Text} {sections : List Section} (h : Outline state t sections) :
    codeTexts (sections.flatMap Section.tokens) =
      ((sections.filter (·.piece.path.isNone)).flatMap Section.tokens).map Piece.text := by
  rw [codeTexts, h.filter_tokens]

theorem codeTexts_of_code [Stack] {state : State} {t : Text} {sections : List Section} (h : Outline state t sections)
    (hpath : ∀ s ∈ sections, s.piece.path = none) :
    codeTexts (sections.flatMap Section.tokens) = (sections.flatMap Section.tokens).map Piece.text := by
  rw [codeTexts_sections h, filter_code hpath]

end

namespace Planned

variable [Stack] {config : Configuration} {source : Text} {document : Document} {all : List Bundle} {edit : Edit}
  {front middle back : List Statement} {first last : Statement}
  (h : Planned config source document all edit front middle back first last)

include h

/-- The imports of the source are those of the span. -/
theorem filter_statements : document.statements.filter (·.isImport) = middle.filter (·.isImport) := by
  have hfront : front.filter (·.isImport) = [] :=
    List.filter_eq_nil_iff.mpr fun s hs => by simp [h.spanned.front_code s hs]
  have hback : back.filter (·.isImport) = [] :=
    List.filter_eq_nil_iff.mpr fun s hs => by simp [h.spanned.back_code s hs]
  rw [h.spanned.eq_append, List.filter_append, List.filter_append, hfront, hback, List.nil_append,
    List.append_nil]

/-- The import slots hold the imports of the source. -/
theorem contents_importSlots :
    ((importSlots config (newlineOf source) all).map fun slot => slot.bundle.statement.content).Perm
      ((document.statements.filter (·.isImport)).map Statement.content) := by
  have hslots : (importSlots config (newlineOf source) all).map (fun slot => slot.bundle.statement.content) =
      (Group.canonical.flatMap (members config all)).map fun b => b.statement.content := by
    rw [← map_bundle_importSlots config (newlineOf source) all, List.map_map]
    rfl
  have hall : (middle.filter (·.isImport)).map Statement.content =
      (all.filter (·.statement.isImport)).map fun b => b.statement.content := by
    rw [← h.map_statement, List.filter_map, List.map_map]
    rfl
  rw [hslots, h.filter_statements, hall]
  exact (members_perm config all).map _

/-- The last import of the canonical form, and those above it. -/
theorem exists_last_slot : ∃ others slot, importSlots config (newlineOf source) all = others ++ [slot] ∧
    behindImports config source all edit = slot.bundle.trailing ++ belowImports config source all edit := by
  have hne : importSlots config (newlineOf source) all ≠ [] := importSlots_ne_nil h.exists_import
  have hslot := List.getLast?_eq_some_getLast hne
  obtain ⟨others, hothers⟩ := List.getLast?_eq_some_iff.mp hslot
  refine ⟨others, _, hothers, ?_⟩
  rw [behindImports, hslot]
  rfl

/-- What the exact condition says of the outline behind the imports. -/
theorem codeKept_iff {above behind : List Piece} (hreading : Reading source middle first last above behind) :
    codeKeptBehindImports config source all edit = true ↔
    leftBehindImports config source all edit = .ok (behindImports config source all edit) ∧
      ∃ sections, Outline ⟨0, .mark ';'⟩ (behindImports config source all edit) sections ∧
        (∀ s ∈ sections, s.piece.path = none) ∧ (sections.flatMap Section.tokens).map Piece.text =
          ((middle.filter (!·.isImport)).flatMap (fun s => (s.survey source).tokens) ++ behind).map
            Piece.text := by
  have hbehind : pieces ⟨0, .mark ';'⟩ (behindLast source all) = .ok behind := by
    obtain ⟨state, rest, hrun, hrest⟩ := hreading.behind_run
    rw [h.behindLast_eq, hrun.pieces_eq, pieces_of_drop_nil hrest, Except.map, List.append_nil]
  unfold codeKeptBehindImports
  rw [Bool.and_eq_true, beq_iff_eq, hbehind, h.flatMap_codeSlots]
  apply and_congr_right
  intro _
  -- an outline and the pieces that are read determine each other
  constructor
  · intro hkept
    split at hkept
    · rename_i found behind' hfound hbehind'
      obtain rfl := Except.ok.inj hbehind'
      obtain ⟨sections, houtline⟩ := outline_of_pieces hfound
      obtain rfl := Except.ok.inj (hfound.symm.trans houtline.pieces_eq)
      rw [Bool.and_eq_true, List.all_eq_true, beq_iff_eq, houtline.path_eq_none_iff] at hkept
      exact ⟨sections, houtline, hkept⟩
    · simp at hkept
  · rintro ⟨sections, houtline, hpath, htexts⟩
    rw [houtline.pieces_eq]
    dsimp only
    rw [Bool.and_eq_true, List.all_eq_true, beq_iff_eq, houtline.path_eq_none_iff]
    exact ⟨hpath, htexts⟩

section

variable (himports : ImportsUndisturbed config source all edit) {above behind : List Piece}
  (hreading : Reading source middle first last above behind)

include himports hreading

/-- The imports and the other tokens of the edited source, when the last import leaves `left`. -/
theorem exists_contents {others : List Slot} {slot : Slot} {left : Text} {sections : List Section}
    (hslots : importSlots config (newlineOf source) all = others ++ [slot])
    (hbehind : behindImports config source all edit =
      slot.bundle.trailing ++ belowImports config source all edit)
    (hleft : leftBehindImports config source all edit = .ok left)
    (houtline : Outline ⟨0, .mark ';'⟩ left sections) :
    ∃ document' found', Document.parse (edit.apply source) = .ok document' ∧
      pieces State.initial (dropInterpreterLine (edit.apply source)) = .ok found' ∧
      (document'.statements.filter (·.isImport)).map Statement.content =
        others.map (fun slot => slot.bundle.statement.content) ++
          ((Text.before (slot.bundle.statement.text ++ behindImports config source all edit) left,
            slot.bundle.statement.path) ::
            (sections.filter (·.piece.path.isSome)).map fun s => (s.piece.text, s.piece.path)) ∧
      codeTexts found' = above.map Piece.text ++ codeTexts (sections.flatMap Section.tokens) := by
  obtain ⟨parts, houtline', hparts, htexts⟩ := h.exists_outline himports hreading hleft houtline
  obtain ⟨document', hparse', hstatements⟩ := Document.parse_of_outline houtline'
  have himport : ∀ slot ∈ importSlots config (newlineOf source) all,
      slot.bundle.statement.isImport = true := fun slot hslot => (mem_of_mem_importSlots hslot).2
  have hdecls := isSome_of_mem_declarations left (belowImports config source all edit) himport
  obtain ⟨hsome, hnone⟩ := filter_parts hparts hdecls sections
  refine ⟨document', _, hparse', houtline'.pieces_eq, ?_, ?_⟩
  · rw [hstatements, contents_sections, hsome, List.map_append, hslots, contents_declarations, ← hbehind,
      List.append_assoc, List.singleton_append]
  · rw [codeTexts_sections houtline', hnone, List.flatMap_append, List.map_append, htexts,
      codeTexts_sections houtline]

/-- The edited source keeps the program exactly when the code behind the imports is kept. -/
theorem keepsProgram_iff :
    KeepsProgram source (edit.apply source) ↔ codeKeptBehindImports config source all edit = true := by
  obtain ⟨others, slot, hslots, hbehind⟩ := h.exists_last_slot
  obtain ⟨found, hfound, hfilter⟩ := hreading.code
  rw [h.codeKept_iff hreading]
  have hsource : codeTexts found = above.map Piece.text ++
      ((middle.filter (!·.isImport)).flatMap (fun s => (s.survey source).tokens) ++ behind).map Piece.text := by
    rw [codeTexts, hfilter, List.map_append]
  have hown := h.contents_importSlots
  rw [hslots, List.map_append, List.map_singleton] at hown
  constructor
  · rintro ⟨_, document', _, found', hparse, hparse', hperm, hread, hfound', htexts⟩
    obtain rfl := Except.ok.inj (h.parse.symm.trans hparse)
    obtain rfl := Except.ok.inj (hfound.symm.trans hread)
    obtain ⟨left, others', hleft, hothers'⟩ := h.exists_left himports hreading hfound'
    obtain ⟨sections, houtline⟩ := outline_of_pieces hothers'
    obtain ⟨document'', found'', hparse'', hfound'', hcontents, hcode⟩ :=
      h.exists_contents himports hreading hslots hbehind hleft houtline
    obtain rfl := Except.ok.inj (hparse'.symm.trans hparse'')
    obtain rfl := Except.ok.inj (hfound'.symm.trans hfound'')
    -- both sides have the imports above the last one, so the last one is as it was and none follows it
    rw [hcontents] at hperm
    have hlast := List.perm_singleton.mp ((List.perm_append_left_iff _).mp (hperm.trans hown.symm))
    obtain ⟨htext, hnone⟩ := List.cons.inj hlast
    -- the text of the last import is its own, so it took nothing
    have hsame : left = behindImports config source all edit := by
      obtain ⟨taken, htaken⟩ := leftBehind_suffix hleft
      have hbefore := congrArg Prod.fst htext
      rw [← htaken, ← List.append_assoc, Text.before_append] at hbefore
      rw [← htaken, List.append_right_eq_self.mp hbefore, List.nil_append]
    subst hsame
    have hpath : ∀ s ∈ sections, s.piece.path = none := by
      intro s hs
      have hfilter := List.filter_eq_nil_iff.mp (List.map_eq_nil_iff.mp hnone) s hs
      simpa using hfilter
    refine ⟨hleft, sections, houtline, hpath, ?_⟩
    rw [hcode, hsource, List.append_cancel_left_eq, codeTexts_of_code houtline hpath] at htexts
    exact htexts
  · rintro ⟨hleft, sections, houtline, hpath, htexts⟩
    obtain ⟨document', found', hparse', hfound', hcontents, hcode⟩ :=
      h.exists_contents himports hreading hslots hbehind hleft houtline
    refine ⟨document, document', found, found', h.parse, hparse', ?_, hfound, hfound', ?_⟩
    · have hnone : sections.filter (·.piece.path.isSome) = [] :=
        List.filter_eq_nil_iff.mpr fun s hs => by simp [hpath s hs]
      rw [hcontents, hnone, Text.before_append]
      exact hown
    · rw [hcode, hsource, codeTexts_of_code houtline hpath, htexts]

end

end Planned

/-- When a fix disturbs neither the code above the imports nor the imports, it keeps the program exactly when the code
behind the imports is read as before, and always when it does not disturb that code either. -/
theorem scan_keeps_program [Stack] {config : Configuration} {filename : String} {source : Text} {document : Document}
    {result : ScanResult} {edit : Edit} (hparse : Document.parse source = .ok document)
    (hscan : scan config filename source = .ok result) (hfix : result.fix = some edit)
    (himports : ImportsUndisturbed config source (span source document.statements) edit) :
    (KeepsProgram source (result.applyFix source) ↔
      codeKeptBehindImports config source (span source document.statements) edit = true) ∧
    (CodeUndisturbed config source (span source document.statements) edit →
      KeepsProgram source (result.applyFix source)) := by
  obtain ⟨hplan, happly⟩ := plan_of_scan hparse hscan hfix
  obtain ⟨front, middle, back, first, last, h⟩ := exists_planned hparse hplan
  obtain ⟨above, behind, hreading⟩ := h.spanned.exists_reading hparse h.head h.getLast
  have hiff := h.keepsProgram_iff himports hreading
  rw [happly]
  refine ⟨hiff, fun hcode => hiff.mpr ?_⟩
  rw [h.codeKept_iff hreading]
  exact ⟨hcode.left, h.outline_behindImports himports hcode hreading⟩

section

open ImportOrder.Runtime

theorem scan_keeps_program_knitSource :
    ∃ document result, Document.parse knitSource = .ok document ∧ scan {} "" knitSource = .ok result ∧
      result.fix = some knitEdit ∧
      ImportsUndisturbed {} knitSource (span knitSource document.statements) knitEdit ∧
      CodeUndisturbed {} knitSource (span knitSource document.statements) knitEdit ∧
      KeepsProgram knitSource (result.applyFix knitSource) := by
  obtain ⟨document, result, hparse, hspan, hscan, hfix⟩ := scan_knitSource
  have himports := importsUndisturbed_knitSource
  have hcode := codeUndisturbed_knitSource
  rw [← hspan] at himports hcode
  exact ⟨document, result, hparse, hscan, hfix, himports, hcode,
    (scan_keeps_program hparse hscan hfix himports).2 hcode⟩

end

end Plan

end ImportOrder
