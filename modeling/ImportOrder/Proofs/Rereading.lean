import ImportOrder.Proofs.Readings

/-!
# Statements before another text

What follows a statement in the canonical form begins with a line break or with a comment, behind spaces and tabs.
Before such a text an import is read as it was, and so is other code when its looks come out the same. The slots
of the canonical form are read from the last to the first, since each statement is read before those that follow
it.
-/

namespace ImportOrder

open Source

namespace Plan

/-! ## What follows a statement -/

/-- The line ends here: behind spaces and tabs comes a comment, a line break or nothing. -/
def ClosesLine (t : Text) : Prop :=
  ∀ c ∈ (t.dropWhile isInlineBlank).head?, c = '/' ∨ isLineBreak c = true

theorem closesLine_of_blanks {b t : Text} (hb : ∀ c ∈ b, isInlineBlank c = true)
    (ht : ∀ c ∈ t.head?, c = '/' ∨ isLineBreak c = true) : ClosesLine (b ++ t) := by
  intro c hc
  rw [List.dropWhile_append_of_pos hb] at hc
  cases t with
  | nil => simp at hc
  | cons d t =>
    have hd := ht d rfl
    have hblank : isInlineBlank d = false := by
      rw [Bool.eq_false_iff]
      intro hinline
      rcases hd with rfl | hbreak
      · exact absurd hinline (by decide)
      · rw [isLineBreak_of_isInlineBlank hinline] at hbreak
        simp at hbreak
    rw [List.dropWhile_cons_of_neg (by simp [hblank])] at hc
    obtain rfl : d = c := by simpa using hc
    exact hd

theorem closesLine_newline {newline : Text} (h : IsNewline newline) (t : Text) :
    ClosesLine (newline ++ t) := by
  rw [← List.nil_append (newline ++ t)]
  apply closesLine_of_blanks (by simp)
  rcases h with rfl | rfl <;> simp [isLineBreak]

theorem LineComment.closesLine {trailing t : Text} (h : LineComment trailing) (ht : ClosesLine t) :
    ClosesLine (trailing ++ t) := by
  rcases h.head with rfl | ⟨b, body, rfl, hb⟩
  · exact ht
  · rw [List.append_assoc, List.cons_append]
    apply closesLine_of_blanks hb
    simp

theorem ClosesLine.skipSemicolon_eq {t : Text} (h : ClosesLine t) : skipSemicolon t = t := by
  rcases skipSemicolon_cases t with hsame | ⟨b, rest, rfl, -, hb⟩
  · exact hsame
  · have hc := h ';' (by
      rw [List.dropWhile_append_of_pos hb, List.dropWhile_cons_of_neg (by decide)]
      rfl)
    exact absurd hc (by decide)

/-- No word runs on into a line that ends here. -/
theorem ClosesLine.sameEdge {t : Text} (h : ClosesLine t) (k : Text) : SameEdge k t := by
  right
  intro c hc
  obtain ⟨rest, rfl⟩ := List.head?_eq_some_iff.mp hc
  by_cases hinline : isInlineBlank c = true
  · simp only [isInlineBlank, Bool.or_eq_true, beq_iff_eq] at hinline
    rcases hinline with rfl | rfl <;> decide
  · have hend := h c (by
      rw [List.dropWhile_cons_of_neg hinline]
      rfl)
    simp only [isLineBreak, Bool.or_eq_true, beq_iff_eq] at hend
    rcases hend with rfl | rfl | rfl <;> decide

/-! ## Slots -/

/-- The slot stands on a new line, with nothing but trivia above it. -/
def Slot.OnNewLine (newline : Text) (slot : Slot) : Prop :=
  ∃ rest, Trivia.Closed rest ∧ slot.above = newline ++ rest

theorem Below.onNewLine {config : Configuration} {newline : Text} {a b : Slot}
    (hnewline : IsNewline newline) (h : Below config newline a b) : b.OnNewLine newline := by
  cases h with
  | sameGroup _ _ _ _ habove => exact ⟨[], .nil, by rw [habove, List.append_nil]⟩
  | laterGroup _ _ _ hclosed habove => exact ⟨_, (closed_newline hnewline).append hclosed, habove⟩

theorem codeSlot_onNewLine {newline : Text} {b : Bundle}
    (hnewline : IsNewline newline) (h : Comments b.leading) :
    (codeSlot newline b).OnNewLine newline := by
  refine ⟨newline ++ (if b.leading.isEmpty then [] else b.leading ++ newline), ?_, List.append_assoc _ _ _⟩
  apply (closed_newline hnewline).append
  split
  · exact .nil
  · exact closed_append_newline hnewline h.closed

section

variable {newline tail : Text} {slot : Slot} {rest : List Slot}

theorem Slot.OnNewLine.closesLine (hnewline : IsNewline newline)
    (h : slot.OnNewLine newline) : ClosesLine (render tail (slot :: rest)) := by
  obtain ⟨t, -, habove⟩ := h
  rw [render, habove, List.append_assoc]
  exact closesLine_newline hnewline _

theorem closesLine_render (hnewline : IsNewline newline) (htail : ClosesLine tail)
    {slots : List Slot} (h : ∀ slot ∈ slots.head?, slot.OnNewLine newline) : ClosesLine (render tail slots) := by
  cases slots with
  | nil => exact htail
  | cons slot rest => exact (h slot rfl).closesLine hnewline

/-- What stands above a slot is trivia. -/
theorem drop_render (h : Trivia.Closed slot.above) :
    Trivia.drop (render tail (slot :: rest)) =
      Trivia.drop (slot.bundle.statement.text ++ (slot.bundle.trailing ++ render tail rest)) := by
  rw [render, h.drop_append, Bundle.body, List.append_assoc]

/-- A whole comment before a slot is trivia too. -/
theorem drop_trailing_render {trailing : Text} (hnewline : IsNewline newline)
    (hwhole : Trivia.Closed (trailing ++ ['\n'])) (h : slot.OnNewLine newline) :
    Trivia.drop (trailing ++ render tail (slot :: rest)) =
      Trivia.drop (slot.bundle.statement.text ++ (slot.bundle.trailing ++ render tail rest)) := by
  obtain ⟨t, ht, habove⟩ := h
  have hclosed := (closed_append_newline hnewline hwhole).append ht
  rw [render, Bundle.body, habove, List.append_assoc, List.append_assoc, ← List.append_assoc,
    ← List.append_assoc, hclosed.drop_append]

end

/-- Slots one below another: each stands on a new line behind a whole comment. -/
structure Row (source newline : Text) (slots : List Slot) : Prop where
  fits : ∀ slot ∈ slots, slot.bundle.statement.Fits source
  comment : ∀ slot ∈ slots, LineComment slot.bundle.trailing
  lines : ∀ slot ∈ slots.tail, slot.OnNewLine newline
  whole : ∀ slot ∈ slots.dropLast, Trivia.Closed (slot.bundle.trailing ++ ['\n'])

namespace Row

variable {source newline tail : Text} {slots slots' : List Slot} {slot next : Slot}

theorem right (h : Row source newline (slots ++ slots')) : Row source newline slots' := by
  refine ⟨fun slot hslot => h.fits slot (by simp [hslot]), fun slot hslot => h.comment slot (by simp [hslot]),
    ?_, ?_⟩
  · intro slot hslot
    apply h.lines
    cases slots with
    | nil => exact hslot
    | cons first rest => simp [List.mem_of_mem_tail hslot]
  · intro slot hslot
    apply h.whole
    rw [List.dropLast_append_of_ne_nil fun hnil => by simp [hnil] at hslot]
    exact List.mem_append_right _ hslot

theorem closesLine (h : Row source newline (slot :: slots)) (htail : ClosesLine tail)
    (hnewline : IsNewline newline) : ClosesLine (slot.bundle.trailing ++ render tail slots) := by
  apply (h.comment slot (by simp)).closesLine
  apply closesLine_render hnewline htail
  exact fun next hnext => h.lines next (List.mem_of_head? hnext)

theorem drop_next (h : Row source newline (slot :: next :: slots))
    (hnewline : IsNewline newline) (tail : Text) :
    Trivia.drop (slot.bundle.trailing ++ render tail (next :: slots)) =
      Trivia.drop (next.bundle.statement.text ++ (next.bundle.trailing ++ render tail slots)) :=
  drop_trailing_render hnewline (h.whole slot (by simp [List.dropLast])) (h.lines next (by simp))

end Row

/-! ## Imports -/

/-- The statement was read as a declaration. -/
def IsDeclaration [Stack] (source : Text) (s : Statement) : Prop :=
  ∃ state path, s.path = some path ∧
    declarationAt state (s.text ++ source.onward s.stop) = .ok (some (path, source.onward s.stop))

theorem isDeclaration_of_parse [Stack] {source : Text} {document : Document}
    (h : Document.parse source = .ok document) {s : Statement} (hs : s ∈ document.statements)
    (himport : s.isImport = true) : IsDeclaration source s := by
  obtain ⟨state, path, hpath, hdecl⟩ := Document.declarationAt_of_parse h hs himport
  rw [← (Document.fits_of_parse h s hs).text_append] at hdecl
  exact ⟨state, path, hpath, hdecl⟩

theorem head?_declaration [Stack] {state : State} {t : Text} {found : Text × Text}
    (h : declarationAt state t = .ok (some found)) : t.head? = some 'i' := by
  obtain ⟨path, rest⟩ := found
  obtain ⟨rest', -, -, hname, -⟩ := atDeclaration_iff.mp (declarationAt_some_iff.mp h).1
  rw [← (splitName?_append hname).1]
  rfl

theorem IsDeclaration.keyword [Stack] {source : Text} {s : Statement} (h : IsDeclaration source s) :
    importWord <+: s.text := by
  obtain ⟨state, path, -, hdecl⟩ := h
  obtain ⟨hat, hread⟩ := declarationAt_some_iff.mp hdecl
  obtain ⟨rest, -, -, hname, -⟩ := atDeclaration_iff.mp hat
  have happ : importWord ++ rest = s.text ++ source.onward s.stop := (splitName?_append hname).1
  exact List.prefix_of_prefix_length_le ⟨rest, happ⟩ (List.prefix_append _ _) (readDeclaration_found hread).1

theorem IsDeclaration.head? [Stack] {source : Text} {s : Statement} (h : IsDeclaration source s) :
    s.text.head? = some 'i' := by
  obtain ⟨rest, hrest⟩ := h.keyword
  rw [← hrest]
  rfl

theorem IsDeclaration.getLast? [Stack] {source : Text} {s : Statement} (h : IsDeclaration source s) :
    ∃ c, isBlank c = false ∧ s.text.getLast? = some c := by
  obtain ⟨state, path, -, hdecl⟩ := h
  obtain ⟨c, hc, front, hfront⟩ := readDeclaration_last (declarationAt_some_iff.mp hdecl).2
  rw [List.append_cons] at hfront
  exact ⟨c, hc, by rw [← List.append_cancel_right hfront, List.getLast?_concat]⟩

/-- The text of an import tells its path. -/
theorem IsDeclaration.path_eq [Stack] {source source' : Text} {s s' : Statement} (h : IsDeclaration source s)
    (h' : IsDeclaration source' s') (htext : s.text = s'.text) : s.path = s'.path := by
  obtain ⟨state, path, hpath, hdecl⟩ := h
  obtain ⟨state', path', hpath', hdecl'⟩ := h'
  have hread := readDeclaration_alone (declarationAt_some_iff.mp hdecl).2
  have hread' := readDeclaration_alone (declarationAt_some_iff.mp hdecl').2
  rw [htext, hread'] at hread
  have heq : path' = path := congrArg Prod.fst (Option.some.inj (Except.ok.inj hread))
  rw [hpath, hpath', heq]

theorem looks_of_isImport [Stack] {source : Text} {s : Statement} (hfits : s.Fits source)
    (himport : s.isImport = true) : s.looks source =
      headerLooks ⟨0, .word importWord⟩ ((s.text ++ source.onward s.stop).drop importWord.length) := by
  rw [Statement.looks, if_pos himport, hfits.text_append]

theorem drop_of_head {t : Text} (h : t.head? = some 'i') : Trivia.drop t = t := by
  obtain ⟨rest, rfl⟩ := List.head?_eq_some_iff.mp h
  exact Trivia.drop_token ⟨by decide, fun hc => absurd hc (by decide)⟩

/-- The keyword of an import is read before any text that closes its line. -/
theorem IsDeclaration.splitName?_eq [Stack] {source k' : Text} {s : Statement} (h : IsDeclaration source s)
    (hcloses : ClosesLine k') : ∃ rest, splitName? (s.text ++ k') = some (importWord, rest) := by
  have hhead := h.head?
  obtain ⟨state, path, -, hdecl⟩ := h
  obtain ⟨hat, hread⟩ := declarationAt_some_iff.mp hdecl
  obtain ⟨rest, -, -, hname, -⟩ := atDeclaration_iff.mp hat
  have hkeyword := (readDeclaration_found hread).1
  have hrest : rest = s.text.drop importWord.length ++ source.onward s.stop := by
    have happ := (splitName?_append hname).1
    rw [← List.drop_append_of_le_length hkeyword, ← happ, List.drop_left]
  rw [hrest] at hname
  have hne : s.text ≠ [] := by
    intro hnil
    simp [hnil] at hhead
  exact ⟨_, splitName?_swap (hcloses.sameEdge _) hne hname⟩

/-- A text that begins with the keyword of a declaration, behind trivia, is no attribute clause. -/
theorem leftBehind_keyword {text k rest : Text} (hk : ClosesLine k)
    (h : splitName? (Trivia.drop k) = some (importWord, rest)) : leftBehind text k = .ok k := by
  have hattributes : skipAttributes k = .ok k := by
    rw [skipAttributes, h]
    exact if_neg (by decide)
  unfold leftBehind
  split
  · rw [hattributes, Except.map, hk.skipSemicolon_eq]
  · rfl

/-- The section of a declaration. -/
def declared (path : Option Text) (start rest : Text) : Section :=
  ⟨⟨start, rest, path⟩, [⟨start, rest, path⟩]⟩

/-- The declarations of the slots before `tail`; the last of them leaves `left`. -/
def declarations (left tail : Text) : List Slot → List Section
  | [] => []
  | [slot] =>
    [declared slot.bundle.statement.path
      (slot.bundle.statement.text ++ (slot.bundle.trailing ++ tail)) left]
  | slot :: next :: rest =>
    declared slot.bundle.statement.path
      (slot.bundle.statement.text ++ (slot.bundle.trailing ++ render tail (next :: rest)))
      (slot.bundle.trailing ++ render tail (next :: rest)) :: declarations left tail (next :: rest)

theorem exists_declarations_cons (left tail : Text) (slot : Slot) (rest : List Slot) :
    ∃ after others, declarations left tail (slot :: rest) =
      declared slot.bundle.statement.path
        (slot.bundle.statement.text ++ (slot.bundle.trailing ++ render tail rest)) after :: others := by
  cases rest with
  | nil => exact ⟨_, _, rfl⟩
  | cons next rest => exact ⟨_, _, rfl⟩

/-- Slots of imports one below another, before `tail`. -/
structure ImportRow [Stack] (source newline tail : Text) (slots : List Slot) : Prop
    extends Row source newline slots where
  declaration : ∀ slot ∈ slots, IsDeclaration source slot.bundle.statement
  looks : LooksKept source tail slots
  isNewline : IsNewline newline
  tail_closes : ClosesLine tail

section

variable {source newline tail left : Text} {slot next : Slot} {slots : List Slot} {sections : List Section}
  {state : State}

/-- An import is read before any text that closes its line, in any state that allows a declaration. It leaves of
the text what `leftBehind` says. -/
theorem IsDeclaration.reread [Stack] {s : Statement} {k' : Text} (h : IsDeclaration source s)
    (hfits : s.Fits source) (hcloses : ClosesLine k')
    (hlooks : LooksHold (s.looks source) (source.onward s.stop) k') (hdepth : state.depth = 0)
    (hlast : state.last ≠ .mark '.') :
    ∃ path, s.path = some path ∧
      declarationAt state (s.text ++ k') = (leftBehind s.text k').map fun left => some (path, left) := by
  obtain ⟨state', path, hpath, hdecl⟩ := h
  have himport : s.isImport = true := by
    rw [Statement.isImport, hpath]
    rfl
  rw [looks_of_isImport hfits himport] at hlooks
  exact ⟨path, hpath, declarationAt_swap (hcloses.sameEdge _) hlooks hcloses.skipSemicolon_eq hdepth hlast hdecl⟩

namespace ImportRow

theorem rest [Stack] (h : ImportRow source newline tail (slot :: slots)) : ImportRow source newline tail slots := by
  have hrow : Row source newline ([slot] ++ slots) := h.toRow
  exact ⟨hrow.right, fun s hs => h.declaration s (List.mem_cons_of_mem _ hs), h.looks.2, h.isNewline,
    h.tail_closes⟩

theorem drop_text [Stack] (h : ImportRow source newline tail (slot :: slots)) (k : Text) :
    Trivia.drop (slot.bundle.statement.text ++ k) = slot.bundle.statement.text ++ k := by
  apply drop_of_head
  rw [List.head?_append, (h.declaration slot (by simp)).head?]
  rfl

/-- The first import of a row, before the others. -/
theorem declarationAt_eq [Stack] (h : ImportRow source newline tail (slot :: slots)) (hdepth : state.depth = 0)
    (hlast : state.last ≠ .mark '.') :
    ∃ path, slot.bundle.statement.path = some path ∧
      declarationAt state (slot.bundle.statement.text ++ (slot.bundle.trailing ++ render tail slots)) =
        (leftBehind slot.bundle.statement.text (slot.bundle.trailing ++ render tail slots)).map
          fun left => some (path, left) :=
  (h.declaration slot (by simp)).reread (h.fits slot (by simp)) (h.closesLine h.tail_closes h.isNewline)
    h.looks.1 hdepth hlast

/-- An import does not take the next one for its attributes. -/
theorem leftBehind_eq [Stack] (h : ImportRow source newline tail (slot :: next :: slots)) (text : Text) :
    leftBehind text (slot.bundle.trailing ++ render tail (next :: slots)) =
      .ok (slot.bundle.trailing ++ render tail (next :: slots)) := by
  have hcloses := h.rest.closesLine h.tail_closes h.isNewline
  obtain ⟨rest, hname⟩ := (h.declaration next (by simp)).splitName?_eq hcloses
  apply leftBehind_keyword (h.closesLine h.tail_closes h.isNewline)
  rw [h.drop_next h.isNewline, h.rest.drop_text]
  exact hname

/-- The import slots are read as declarations, whatever stands behind them. -/
theorem outline [Stack] (h : ImportRow source newline tail slots)
    (hleft : ∀ slot ∈ slots.getLast?,
      leftBehind slot.bundle.statement.text (slot.bundle.trailing ++ tail) = .ok left)
    (houtline : Outline ⟨0, .mark ';'⟩ left sections) (hdepth : state.depth = 0)
    (hlast : state.last ≠ .mark '.') (hslot : slots.head? = some slot) {t : Text}
    (ht : Trivia.drop t =
      Trivia.drop (slot.bundle.statement.text ++ (slot.bundle.trailing ++ render tail slots.tail))) :
    Outline state t (declarations left tail slots ++ sections) := by
  induction slots generalizing state t slot with
  | nil => simp at hslot
  | cons first rest ih =>
    obtain rfl : first = slot := by simpa using hslot
    obtain ⟨path, hpath, hread⟩ := h.declarationAt_eq hdepth hlast
    rw [h.drop_text] at ht
    cases rest with
    | nil =>
      -- only the last import sees what stands behind them all
      rw [render, hleft first rfl] at hread
      rw [declarations, List.singleton_append, hpath]
      refine .declaration ht hread ?_
      rwa [hdepth]
    | cons next rest =>
      have hrest : Outline ⟨0, .mark ';'⟩ (first.bundle.trailing ++ render tail (next :: rest))
          (declarations left tail (next :: rest) ++ sections) := by
        refine ih h.rest (fun slot hslot => hleft slot ?_) rfl (by simp) rfl (h.drop_next h.isNewline tail)
        rwa [List.getLast?_cons_cons]
      rw [h.leftBehind_eq] at hread
      rw [declarations, List.cons_append, hpath]
      refine .declaration ht hread ?_
      rwa [hdepth]

/-- When the whole text can be read, so can what the last import leaves. -/
theorem exists_left [Stack] (h : ImportRow source newline tail slots) (hdepth : state.depth = 0)
    (hlast : state.last ≠ .mark '.') (hslot : slots.head? = some slot) {t : Text}
    (ht : Trivia.drop t =
      Trivia.drop (slot.bundle.statement.text ++ (slot.bundle.trailing ++ render tail slots.tail)))
    {found : List Piece} (hfound : pieces state t = .ok found) :
    ∃ left others, (∀ slot ∈ slots.getLast?,
      leftBehind slot.bundle.statement.text (slot.bundle.trailing ++ tail) = .ok left) ∧
        pieces ⟨0, .mark ';'⟩ left = .ok others := by
  -- along the imports: each but the last leaves exactly what stands below it
  induction slots generalizing state t slot found with
  | nil => simp at hslot
  | cons first rest ih =>
    obtain rfl : first = slot := by simpa using hslot
    obtain ⟨path, -, hread⟩ := h.declarationAt_eq hdepth hlast
    rw [h.drop_text] at ht
    cases rest with
    | nil =>
      cases hleft : leftBehind first.bundle.statement.text (first.bundle.trailing ++ tail) with
      | error fault =>
        rw [render, hleft] at hread
        rw [pieces_of_error ht hread] at hfound
        simp at hfound
      | ok left =>
        rw [render, hleft] at hread
        rw [pieces_of_declaration ht hread, hdepth] at hfound
        obtain ⟨others, hothers, -⟩ := exists_of_map_ok hfound
        refine ⟨left, others, fun slot hslot => ?_, hothers⟩
        obtain rfl : first = slot := by simpa using hslot
        exact hleft
    | cons next rest =>
      rw [h.leftBehind_eq] at hread
      rw [pieces_of_declaration ht hread, hdepth] at hfound
      obtain ⟨others, hothers, -⟩ := exists_of_map_ok hfound
      rw [List.getLast?_cons_cons]
      exact ih h.rest rfl (by simp) rfl (h.drop_next h.isNewline tail) hothers

end ImportRow

end

/-! ## Other code -/

/-- The statement was read as other code after a semicolon, up to the declaration behind it. -/
structure IsCode [Stack] (source : Text) (s : Statement) : Prop where
  not_import : s.isImport = false
  drop_start : Trivia.drop (source.onward s.start) = source.onward s.start
  tokens_ne_nil : (s.survey source).tokens ≠ []
  run : CodeRun ⟨0, .mark ';'⟩ (s.text ++ source.onward s.stop) (s.survey source).tokens
    (s.survey source).state (source.onward s.stop)
  next : ∃ path rest, declarationAt (s.survey source).state (Trivia.drop (source.onward s.stop)) =
    .ok (some (path, rest))

/-- The other code of a span stands between imports. -/
theorem Spanned.isCode [Stack] {source : Text} {document : Document} {front middle back : List Statement}
    (h : Spanned document.statements front middle back) (hparse : Document.parse source = .ok document)
    {s : Statement} (hs : s ∈ middle) (hcode : s.isImport = false) : IsCode source s := by
  obtain ⟨first, hfirst, hfirst'⟩ := h.first_import
  obtain ⟨last, hlast, hlast'⟩ := h.last_import
  obtain ⟨before, behind, rfl⟩ := List.append_of_mem hs
  have hmem : s ∈ document.statements := by
    rw [h.eq_append]
    simp
  have hbefore : before ≠ [] := by
    rintro rfl
    obtain rfl : s = first := by simpa using hfirst
    simp [hcode] at hfirst'
  have hbehind : behind ≠ [] := by
    rintro rfl
    obtain rfl : s = last := by simpa using hlast
    simp [hcode] at hlast'
  have hsplit : document.statements = (front ++ before) ++ s :: (behind ++ back) := by
    rw [h.eq_append]
    simp
  obtain ⟨hne, hrun, hnext⟩ := Document.codeRun_of_parse hparse hsplit (by simp [hbefore]) hcode
  obtain ⟨s', others, rfl⟩ := List.exists_cons_of_ne_nil hbehind
  rw [← (Document.fits_of_parse hparse s hmem).text_append] at hrun
  exact ⟨hcode, Document.drop_start_of_parse hparse hmem, hne, hrun, hnext s' rfl⟩

section

variable {source newline tail : Text}

/-- Other code is read as it was before any text that closes its line, when its looks come out the same and it may
come behind the token before it. -/
theorem IsCode.reread [Stack] {s : Statement} {k' : Text} {last : Last} (h : IsCode source s) (hfits : s.Fits source)
    (hcloses : ClosesLine k') (hlooks : LooksHold (s.looks source) (source.onward s.stop) k')
    (hlast : last ≠ .mark '.') (hseam : last.mayPrecede (source.onward s.start) = true) :
    ∃ tokens, CodeRun ⟨0, last⟩ (s.text ++ k') tokens (s.survey source).state k' ∧
      tokens.map Piece.text = (s.survey source).tokens.map Piece.text := by
  obtain ⟨path, rest, hnext⟩ := h.next
  have hk : source.onward s.stop ≠ [] := by
    intro hnil
    rw [hnil, Trivia.drop_nil, declarationAt_nil] at hnext
    simp at hnext
  have hlooks' : LooksHold (survey (source.onward s.stop) ⟨0, .mark ';'⟩
      (s.text ++ source.onward s.stop)).looks (source.onward s.stop) k' := by
    rw [Statement.looks, h.not_import, if_neg (by simp), Statement.survey, ← hfits.text_append] at hlooks
    exact hlooks
  have hrun : CodeRun ⟨0, .mark ';'⟩ (s.text ++ source.onward s.stop) (s.survey source).tokens
      (s.survey source).state ([] ++ source.onward s.stop) := h.run
  obtain ⟨tokens, hrun', htexts⟩ := hrun.swap (hcloses.sameEdge _) hk hlooks' hnext
  have hne : tokens ≠ [] := by
    rintro rfl
    exact h.tokens_ne_nil (List.map_eq_nil_iff.mp htexts.symm)
  rw [← h.drop_start, ← hfits.text_append] at hseam
  have hseam' := hrun.mayPrecede_swap hlooks' h.tokens_ne_nil hseam
  exact ⟨tokens, hrun'.of_mayPrecede hne hlast hseam', htexts⟩

/-- The other statements are read one after another, and then the code behind the last import. -/
theorem run_codeSlots [Stack] {slot : Slot} {slots : List Slot} {last : Last} {behind rest : Text} {state : State}
    {tokens : List Piece} (hnewline : IsNewline newline) (htail : ClosesLine tail)
    (hrow : Row source newline (slot :: slots)) (hcode : ∀ s ∈ slots, IsCode source s.bundle.statement)
    (hlooks : LooksKept source tail slots) (hlast : last ≠ .mark '.')
    (hseams : SeamsKept source behind last slots)
    (hbelow : ∀ s ∈ (slot :: slots).getLast?, Trivia.drop (s.bundle.trailing ++ tail) = Trivia.drop behind)
    (hrun : CodeRun ⟨0, .mark ';'⟩ behind tokens state rest) (hrest : Trivia.drop rest = []) :
    ∃ tokens' state' rest', CodeRun ⟨0, last⟩ (slot.bundle.trailing ++ render tail slots) tokens' state' rest' ∧
      Trivia.drop rest' = [] ∧ tokens'.map Piece.text =
        (slots.flatMap (fun s => (s.bundle.statement.survey source).tokens) ++ tokens).map Piece.text := by
  induction slots generalizing slot last with
  | nil =>
    -- without a token behind the last import, only trivia is left to read
    have hdrop := hbelow slot rfl
    by_cases hne : tokens = []
    · subst hne
      cases hrun
      exact ⟨[], _, _, .done _ _, hdrop.trans hrest, rfl⟩
    · exact ⟨tokens, state, rest, (hrun.of_mayPrecede hne hlast hseams).of_drop_eq hne hdrop, hrest, rfl⟩
  | cons next slots ih =>
    have hrow' : Row source newline ([slot] ++ next :: slots) := hrow
    have hcode' := hcode next (by simp)
    obtain ⟨tokens₁, hrun₁, htexts₁⟩ := hcode'.reread (hrow.fits next (by simp))
      (hrow'.right.closesLine htail hnewline) hlooks.1 hlast hseams.1
    -- a declaration stood behind the statement, so all brackets are closed there
    obtain ⟨path, after, hnext⟩ := hcode'.next
    obtain ⟨hdepth, hlast'⟩ := depth_of_declarationAt hnext
    obtain ⟨tokens₂, state', rest', hrun₂, hrest', htexts₂⟩ := ih hrow'.right
      (fun s hs => hcode s (List.mem_cons_of_mem _ hs)) hlooks.2 hlast' hseams.2
      (fun s hs => hbelow s (by rwa [List.getLast?_cons_cons]))
    have hne : tokens₁ ≠ [] := by
      rintro rfl
      exact hcode'.tokens_ne_nil (List.map_eq_nil_iff.mp htexts₁.symm)
    have hstate : (next.bundle.statement.survey source).state =
        ⟨0, (next.bundle.statement.survey source).state.last⟩ := by
      rw [← hdepth]
    rw [hstate] at hrun₁
    refine ⟨tokens₁ ++ tokens₂, state', rest',
      (hrun₁.of_drop_eq hne (hrow.drop_next hnewline tail)).append hrun₂, hrest', ?_⟩
    rw [List.map_append, htexts₁, htexts₂, List.flatMap_cons, List.append_assoc, ← List.map_append]

end

end Plan

end ImportOrder
