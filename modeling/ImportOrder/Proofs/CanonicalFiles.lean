import ImportOrder.Proofs.ImportFiles
import ImportOrder.Runtime

/-!
# Files in canonical form

The canonical rendering of a file of imports, read again. Its imports are those of the file in canonical order, each
with its text and its path, and the call still follows them. No two neighbours break a rule, so a scan of it finds
nothing.
-/

namespace ImportOrder

open Source

/-! ## Slots of written declarations -/

/-- The bundle holds a written declaration. -/
def Bundle.IsWritten (b : Bundle) : Prop :=
  ∃ form : DeclarationForm, b.statement.text = form.text ∧ b.statement.path = some form.path

section

variable {source tail left : Text} {slots : List Plan.Slot} {slot next : Plan.Slot} {sections : List Section}
  {state : State}

/-- A slot takes nothing of a written declaration below it. -/
theorem unclaimed_slot [Stack] (hrow : Plan.Row source ['\n'] (slot :: next :: slots)) (hnext : next.bundle.IsWritten)
    (htail : Plan.ClosesLine tail) : Unclaimed (slot.bundle.trailing ++ Plan.render tail (next :: slots)) := by
  obtain ⟨form, htext, -⟩ := hnext
  obtain ⟨rest, -, -, hname, -⟩ := form.exists_splitName? (next.bundle.trailing ++ Plan.render tail slots)
  have hdrop := hrow.drop_next (.inr rfl) tail
  rw [htext, form.drop_text] at hdrop
  rw [← hdrop] at hname
  exact ⟨skipAttributes_of_name hname (by decide), (hrow.closesLine htail (.inr rfl)).skipSemicolon_eq⟩

/-- Slots of written declarations, one below another, are read as these declarations; the last of them leaves
`left`. -/
theorem outline_slots [Stack] (hrow : Plan.Row source ['\n'] slots) (hwritten : ∀ slot ∈ slots, slot.bundle.IsWritten)
    (htail : Plan.ClosesLine tail) (hlast : ∀ slot ∈ slots.getLast?, slot.bundle.trailing ++ tail = left)
    (hunclaimed : Unclaimed left) (houtline : Outline ⟨0, .mark ';'⟩ left sections) (hdepth : state.depth = 0)
    (hstate : state.last ≠ .mark '.') (hslot : slots.head? = some slot) {t : Text}
    (ht : Trivia.drop t = Trivia.drop
      (slot.bundle.statement.text ++ (slot.bundle.trailing ++ Plan.render tail slots.tail))) :
    Outline state t (Plan.declarations left tail slots ++ sections) := by
  -- along the slots: what stands behind a slot is the next one, which a declaration does not claim
  induction slots generalizing state t slot with
  | nil => simp at hslot
  | cons first rest ih =>
    obtain rfl : first = slot := by simpa using hslot
    obtain ⟨form, htext, hpath⟩ := hwritten first (by simp)
    rw [List.tail_cons, htext, form.drop_text] at ht
    cases rest with
    | nil =>
      rw [Plan.render, hlast first rfl] at ht
      rw [Plan.declarations, List.singleton_append, htext, hpath, hlast first rfl]
      refine .declaration ht (form.declarationAt_eq (fun _ => hunclaimed) hdepth hstate) ?_
      rwa [hdepth]
    | cons next rest =>
      have hrow' : Plan.Row source ['\n'] ([first] ++ next :: rest) := hrow
      have hbelow := unclaimed_slot hrow (hwritten next (by simp)) htail
      have hrest : Outline ⟨0, .mark ';'⟩ (first.bundle.trailing ++ Plan.render tail (next :: rest))
          (Plan.declarations left tail (next :: rest) ++ sections) := by
        refine ih hrow'.right (fun s hs => hwritten s (List.mem_cons_of_mem _ hs)) (fun s hs => hlast s ?_) rfl
          (by simp) rfl (hrow.drop_next (.inr rfl) tail)
        rwa [List.getLast?_cons_cons]
      rw [Plan.declarations, List.cons_append, htext, hpath]
      refine .declaration ht (form.declarationAt_eq (fun _ => hbelow) hdepth hstate) ?_
      rwa [hdepth]

end

section

variable {config : Configuration} {entries : List Entry}

theorem comments_of_mem_withAbove {above : Text} (habove : Plan.Comments above) {item : Text × Entry}
    (h : item ∈ withAbove above entries) : Plan.Comments item.1 := by
  induction entries generalizing above with
  | nil => simp [withAbove] at h
  | cons entry rest ih =>
    rcases List.mem_cons.mp h with rfl | h
    · exact habove
    · exact ih entry.gap.comments h

/-- A bundle of the file holds an import of it. -/
theorem exists_alike (hne : entries ≠ []) {b : Bundle}
    (hb : b ∈ fileBundles entries) :
    ∃ item, Plan.Alike b (entryBundle item) ∧ Plan.Comments item.1 := by
  have hmem : b.unplaced ∈ (withAbove [] entries).map entryBundle := by
    rw [← unplaced_span hne]
    exact List.mem_map_of_mem hb
  obtain ⟨item, hitem, heq⟩ := List.mem_map.mp hmem
  have hnil : Plan.Comments [] := ⟨.blank (by decide) .nil, by simp⟩
  refine ⟨item, ?_, comments_of_mem_withAbove hnil hitem⟩
  rw [heq]
  exact ⟨rfl, rfl, rfl, rfl⟩

theorem isWritten_of_alike {b : Bundle} {item : Text × Entry} (h : Plan.Alike b (entryBundle item)) :
    b.IsWritten :=
  ⟨item.2.form, h.text_eq.trans item.2.text_form.symm, h.path_eq⟩

/-- The imports of a file in canonical order. -/
def canonicalEntries (config : Configuration) (entries : List Entry) : List Entry :=
  (Group.canonical.flatMap (groupMembers config entries)).map Prod.snd

/-- The slots of the imports of a file. -/
def fileSlots (config : Configuration) (entries : List Entry) : List Plan.Slot :=
  Plan.importSlots config ['\n'] (fileBundles entries)

section

variable (hne : entries ≠ [])

include hne

theorem fits_of_mem_span [Stack] {b : Bundle} (hb : b ∈ fileBundles entries) :
    b.statement.Fits (fileText entries) := by
  obtain ⟨document, hparse, hstatements⟩ := parse_fileText hne
  apply Document.fits_of_parse hparse
  rw [hstatements]
  exact Plan.statement_mem_of_mem_span hb

theorem comments_of_mem_span :
    ∀ b ∈ fileBundles entries, Plan.Comments b.leading := by
  intro b hb
  obtain ⟨item, halike, hcomments⟩ := exists_alike hne hb
  rw [halike.leading_eq]
  exact hcomments

theorem exists_alike_slot {slot : Plan.Slot} (hslot : slot ∈ fileSlots config entries) :
    ∃ item, Plan.Alike slot.bundle (entryBundle item) := by
  obtain ⟨item, halike, -⟩ := exists_alike hne (Plan.mem_of_mem_importSlots hslot).1
  exact ⟨item, halike⟩

theorem row_fileSlots [Stack] : Plan.Row (fileText entries) ['\n'] (fileSlots config entries) where
  fits := fun slot hslot => fits_of_mem_span hne (Plan.mem_of_mem_importSlots hslot).1
  comment := by
    intro slot hslot
    obtain ⟨item, halike⟩ := exists_alike_slot hne hslot
    rw [halike.trailing_eq]
    exact item.2.gap.lineComment
  lines := Plan.importSlots_onNewLine (.inr rfl) (comments_of_mem_span hne)
  whole := by
    intro slot hslot
    obtain ⟨item, halike⟩ := exists_alike_slot hne ((List.dropLast_sublist _).mem hslot)
    rw [halike.trailing_eq]
    exact item.2.gap.whole

/-- The canonical rendering of a file is that of the slots. -/
theorem canonicalFile_eq [Stack] :
    canonicalFile config entries = Plan.render (behindLastEntry entries) (fileSlots config entries) := by
  have himport : ∃ b ∈ fileBundles entries, b.statement.isImport = true :=
    (spanned_importStatements hne).exists_import_mem_span _
  have hbody : ∀ b ∈ fileBundles entries, b.body ≠ [] :=
    fun b hb => Plan.body_ne_nil (fits_of_mem_span hne hb)
  have hcode : Plan.codeSlots ['\n'] (fileBundles entries) = [] := by
    rw [Plan.codeSlots, List.map_eq_nil_iff, List.filter_eq_nil_iff]
    intro b hb
    obtain ⟨item, halike, -⟩ := exists_alike hne hb
    rw [Statement.isImport, halike.path_eq]
    simp [entryBundle]
  rw [← canonicalText_fileText hne, Plan.canonicalText_append config _ _ himport hbody, hcode, List.append_nil,
    fileSlots]

theorem contents_fileSlots : (fileSlots config entries).map (fun slot => slot.bundle.statement.content) =
    (canonicalEntries config entries).map fun entry => (entry.text, some entry.path) := by
  have hmembers : ∀ group,
      (Plan.members config (fileBundles entries) group).map
        (fun b => b.statement.content) =
      (groupMembers config entries group).map fun item => (item.2.text, some item.2.path) := by
    intro group
    have hunplaced := @Plan.members_map config _ Bundle.alike_unplaced (fileBundles entries) group
    rw [unplaced_span hne, members_fileText] at hunplaced
    have hmap := congrArg (List.map fun b : Bundle => b.statement.content) hunplaced
    rw [List.map_map, List.map_map] at hmap
    exact hmap.symm
  have hcontent : (fun slot : Plan.Slot => slot.bundle.statement.content) =
      (fun b : Bundle => b.statement.content) ∘ Plan.Slot.bundle := rfl
  rw [hcontent, ← List.map_map, fileSlots, Plan.map_bundle_importSlots, canonicalEntries, List.map_map,
    List.map_flatMap, List.map_flatMap]
  congr 1
  funext group
  exact hmembers group

theorem fileSlots_ne_nil : fileSlots config entries ≠ [] :=
  Plan.importSlots_ne_nil ((spanned_importStatements hne).exists_import_mem_span _)

/-- The first slot stands at the beginning of the fixed file, below comments. -/
theorem head?_fileSlots {slot : Plan.Slot} (h : (fileSlots config entries).head? = some slot) :
    Trivia.Closed slot.above ∧ ∀ c ∈ slot.above.head?, c = '/' :=
  (Plan.importSlots_isChain (.inr rfl) (comments_of_mem_span hne)).2 slot h

theorem not_interpreter_canonicalFile [Stack] : ¬['#', '!'] <+: canonicalFile config entries := by
  rintro ⟨k, hk⟩
  obtain ⟨slot, rest, hslots⟩ := List.exists_cons_of_ne_nil (@fileSlots_ne_nil config entries hne)
  have hslot : (fileSlots config entries).head? = some slot := by rw [hslots, List.head?_cons]
  have habove := (head?_fileSlots hne hslot).2
  obtain ⟨item, halike⟩ := exists_alike_slot hne (List.mem_of_head? hslot)
  rw [canonicalFile_eq hne, hslots, Plan.render] at hk
  cases hfirst : slot.above with
  | nil =>
    -- without comments above it, an import begins the file
    have hhead := item.2.form.head?_text
      (slot.bundle.trailing ++ Plan.render (behindLastEntry entries) rest)
    rw [hfirst, List.nil_append, Bundle.body, halike.text_eq, List.append_assoc] at hk
    rw [item.2.text_form, show item.2.text ++ _ = _ from hk.symm] at hhead
    simp at hhead
  | cons c above =>
    rw [hfirst] at hk habove
    have hc := habove c rfl
    rw [hc] at hk
    simp at hk

/-- The fixed file is read as the imports in canonical order and the call. -/
theorem outline_canonicalFile [Stack] {last : Plan.Slot} (hlast : (fileSlots config entries).getLast? = some last) :
    ∃ tokens, Outline State.initial (dropInterpreterLine (canonicalFile config entries))
      (Plan.declarations (last.bundle.trailing ++ behindLastEntry entries) (behindLastEntry entries)
        (fileSlots config entries) ++ [⟨callPiece, tokens⟩]) := by
  obtain ⟨tokens, hcall⟩ := outline_runCall
  refine ⟨tokens, ?_⟩
  obtain ⟨entry, hentry⟩ : ∃ entry, entries.getLast? = some entry := ⟨_, List.getLast?_eq_some_getLast hne⟩
  have hbehind := behindLastEntry_eq hentry
  have htail : Plan.ClosesLine (behindLastEntry entries) := by
    rw [hbehind]
    exact entry.gap.closesLine_rest runCall
  -- the comment of one import may come to stand before what was behind another
  obtain ⟨item, halike⟩ := exists_alike_slot hne (List.mem_of_getLast? hlast)
  have hleft : last.bundle.trailing ++ behindLastEntry entries =
      (item.2.gap.trailing ++ entry.gap.rest) ++ runCall := by
    rw [halike.trailing_eq, hbehind, List.append_assoc]
    rfl
  have hclosed := item.2.gap.closed_trailing_rest entry.gap
  have hcloses : Plan.ClosesLine ((item.2.gap.trailing ++ entry.gap.rest) ++ runCall) := by
    rw [List.append_assoc]
    exact item.2.gap.lineComment.closesLine (entry.gap.closesLine_rest runCall)
  have hunclaimed := unclaimed_runCall hclosed hcloses
  have houtline := hcall.of_drop_eq (hclosed.drop_append runCall)
  rw [← hleft] at hunclaimed houtline
  obtain ⟨slot, rest, hslots⟩ := List.exists_cons_of_ne_nil (@fileSlots_ne_nil config entries hne)
  have hslot : (fileSlots config entries).head? = some slot := by rw [hslots, List.head?_cons]
  have hwritten : ∀ slot ∈ fileSlots config entries, slot.bundle.IsWritten := by
    intro slot hslot
    obtain ⟨item, halike⟩ := exists_alike_slot hne hslot
    exact isWritten_of_alike halike
  have hdrop : Trivia.drop (canonicalFile config entries) = Trivia.drop (slot.bundle.statement.text ++
      (slot.bundle.trailing ++ Plan.render (behindLastEntry entries) (fileSlots config entries).tail)) := by
    rw [canonicalFile_eq hne, hslots]
    exact Plan.drop_render (head?_fileSlots hne hslot).1
  rw [dropInterpreterLine_eq_self (not_interpreter_canonicalFile hne)]
  refine outline_slots (row_fileSlots hne) hwritten htail ?_ hunclaimed houtline rfl (by decide) hslot hdrop
  intro slot hslot
  obtain rfl : last = slot := Option.some.inj (hlast.symm.trans hslot)
  rfl

theorem contents_canonicalFile {last : Plan.Slot} (hlast : (fileSlots config entries).getLast? = some last) :
    (Plan.declarations (last.bundle.trailing ++ behindLastEntry entries) (behindLastEntry entries)
      (fileSlots config entries)).map (fun s => (s.piece.text, s.piece.path)) =
        (canonicalEntries config entries).map fun entry => (entry.text, some entry.path) := by
  obtain ⟨slots, hslots⟩ := List.getLast?_eq_some_iff.mp hlast
  rw [← contents_fileSlots hne, hslots, Plan.contents_declarations, Text.before_append, List.map_append]
  rfl

/-- No two neighbours of the canonical rendering break a rule. -/
theorem isChain_canonicalFile [Stack] {left : Text} {call : Section} (hpath : call.piece.path = none)
    (houtline : Outline State.initial (dropInterpreterLine (canonicalFile config entries))
      ([] ++ (Plan.declarations left (behindLastEntry entries) (fileSlots config entries) ++ [call]))) :
    (Plan.declarations left (behindLastEntry entries) (fileSlots config entries) ++ [call]).IsChain
      (Plan.SectionsObey config (canonicalFile config entries)) := by
  have hbelow := (@Plan.importSlots_isChain config _ _ (.inr rfl) (comments_of_mem_span hne)).1
  have hdecls : (Plan.declarations left (behindLastEntry entries) (fileSlots config entries)).IsChain
      fun s s' => Plan.Lined config s.piece s'.piece :=
    Plan.declarations_isChain (.inr rfl) hbelow (row_fileSlots hne).comment
  have hcall : ∀ s : Section, Plan.SectionsObey config (canonicalFile config entries) s call := by
    intro s path _ path' hpath'
    rw [show (Document.statementIn (canonicalFile config entries) call.piece).path = none from hpath] at hpath'
    simp at hpath'
  -- only the call follows the last import
  refine (Plan.isChain_iff_tail houtline (by simp) hdecls).mpr ?_
  cases (Plan.declarations left (behindLastEntry entries) (fileSlots config entries)).getLast? with
  | none => exact .singleton _
  | some s => exact List.isChain_cons_cons.mpr ⟨hcall s, .singleton _⟩

/-- The canonical rendering can be read: it holds the imports in canonical order and the call, and no two neighbours
break a rule. -/
theorem parse_canonicalFile [Stack] : ∃ document, Document.parse (canonicalFile config entries) = .ok document ∧
    document.statements.map Statement.content =
      (canonicalEntries config entries).map (fun entry => (entry.text, some entry.path)) ++
        [("run()".toList, none)] ∧
    document.statements.IsChain (Violation.Obeys config) := by
  have hlast := List.getLast?_eq_some_getLast (@fileSlots_ne_nil config entries hne)
  obtain ⟨tokens, houtline⟩ := outline_canonicalFile hne hlast
  obtain ⟨document, hparse, hstatements⟩ := Document.parse_of_outline houtline
  refine ⟨document, hparse, ?_, ?_⟩
  · have hcontents := contents_canonicalFile hne hlast
    rw [hstatements, List.map_map, List.map_append, ← hcontents]
    rfl
  · rw [hstatements, List.isChain_map]
    exact isChain_canonicalFile hne rfl houtline

end

/-- A file of imports can be scanned. Where nothing is reported it stays as it is; otherwise the fix gives exactly its
canonical rendering, which holds the same imports in canonical order above the call, and in which a scan finds
nothing. -/
theorem scan_fileText [Stack] (config : Configuration) (filename : String) {entries : List Entry} (hne : entries ≠ []) :
    (∃ result, scan config filename (fileText entries) = .ok result ∧
      (result.diagnostics = [] → result.applyFix (fileText entries) = fileText entries) ∧
      (result.diagnostics ≠ [] → result.applyFix (fileText entries) = canonicalFile config entries)) ∧
    (∃ document, Document.parse (canonicalFile config entries) = .ok document ∧
      document.statements.map Statement.content =
        (canonicalEntries config entries).map (fun entry => (entry.text, some entry.path)) ++
          [("run()".toList, none)]) ∧
    ScannedClean config filename (canonicalFile config entries) := by
  obtain ⟨document, hparse, hstatements⟩ := parse_fileText hne
  obtain ⟨edit, hplan, happly⟩ := @plan_fileText config entries hne
  obtain ⟨document', hparse', hcontents, hobeys⟩ := @parse_canonicalFile config entries hne _
  refine ⟨⟨_, scan_of_parse hparse, ?_, ?_⟩, ⟨document', hparse', hcontents⟩,
    scannedClean_iff.mpr ⟨document', hparse', hobeys⟩⟩
  · dsimp only
    split
    · intro _
      rfl
    · rename_i hreported
      intro hnone
      exact absurd (List.isEmpty_iff.mpr hnone) hreported
  · dsimp only
    rw [hstatements, hplan]
    split
    · intro hreported
      exact absurd rfl hreported
    · intro _
      rw [← canonicalText_fileText hne, ← happly]
      rfl

end

/-- A file of three groups in reverse order, with a comment on a line of an import and one above an import. -/
def mixedEntries : List Entry :=
  let b : CommentText := ⟨['b'], by simp, by simp [Plan.isLineBreak], by decide, by rintro c ⟨⟩; decide,
    by rintro c ⟨⟩; decide⟩
  let note : CommentText := ⟨['n', 'o', 't', 'e'], by simp, by simp [Plan.isLineBreak], by decide,
    by rintro c ⟨⟩; decide, by rintro c ⟨⟩; decide⟩
  [⟨⟨'b', [], by decide, by simp⟩, ['.', '/', 'b'], by simp, .sameLine (.line b)⟩,
    ⟨⟨'c', [], by decide, by simp⟩, ['.', '.', '/', 'c'], by simp, .ownLine (.block note)⟩,
    ⟨⟨'d', [], by decide, by simp⟩, ['d'], by simp, .breaks 1⟩]

theorem canonicalFile_mixedEntries : canonicalFile {} mixedEntries =
    "/* note */\nimport d from 'd'\n\nimport c from '../c'\n\nimport b from './b' // b\n\nrun()\n".toList := by
  have hsorted : groupMembers {} mixedEntries = fun group =>
      (withAbove [] mixedEntries).filter fun item => Configuration.classify {} item.2.path == group := by
    funext group
    apply List.mergeSort_of_pairwise
    cases group <;> decide +kernel
  rw [canonicalFile, hsorted]
  decide +kernel

section

open ImportOrder.Runtime

theorem scan_fileText_mixedEntries :
    ∃ result, scan {} "" (fileText mixedEntries) = .ok result ∧ result.diagnostics ≠ [] ∧
      result.applyFix (fileText mixedEntries) =
        "/* note */\nimport d from 'd'\n\nimport c from '../c'\n\nimport b from './b' // b\n\nrun()\n".toList ∧
      ScannedClean {} "" (result.applyFix (fileText mixedEntries)) := by
  have hread : (scan {} "" (fileText mixedEntries)).toOption.map (·.diagnostics.isEmpty) = some false := by
    decide +kernel
  have hne : mixedEntries ≠ [] := List.cons_ne_nil _ _
  obtain ⟨⟨result, hscan, -, hfix⟩, -, hclean⟩ := scan_fileText {} "" hne
  rw [hscan] at hread
  have hreported : result.diagnostics ≠ [] := by
    simpa [Except.toOption] using hread
  refine ⟨result, hscan, hreported, ?_, ?_⟩
  · rw [hfix hreported, canonicalFile_mixedEntries]
  · rw [hfix hreported]
    exact hclean

end

end ImportOrder
