import ImportOrder.Proofs.Nesting
import ImportOrder.Proofs.DeclarationForms
import ImportOrder.Proofs.Header
import ImportOrder.Proofs.Preservation

/-!
# Files of imports

A file that holds imports one below another, with line breaks and comments between them, and a call behind them. Such
files are scanned, and when they are fixed the result is given by a rendering that does not look at the planner: the
imports of each group, sorted, below the comments that stood above them. That rendering is read back and has nothing to
fix.
-/

namespace ImportOrder

open Source

/-! ## The files -/

/-- What a comment says: something, on one line, that ends no block comment and has no blanks at its ends. -/
structure CommentText where
  text : Text
  ne_nil : text ≠ []
  oneLine : ∀ c ∈ text, Plan.isLineBreak c = false
  open_end : Text.hasInfix ['*', '/'] text = false
  head_nonblank : ∀ c ∈ text.head?, isBlank c = false
  last_nonblank : ∀ c ∈ text.getLast?, isBlank c = false

/-- A comment of either kind. -/
inductive Comment where
  | line (content : CommentText)
  | block (content : CommentText)

def Comment.text : Comment → Text
  | line content => '/' :: '/' :: ' ' :: content.text
  | block content => '/' :: '*' :: ' ' :: (content.text ++ [' ', '*', '/'])

/-- What follows an import: line feeds, one more than `more`, or a comment on its line or on the next one. -/
inductive EntryGap where
  | breaks (more : Nat)
  | sameLine (comment : Comment)
  | ownLine (comment : Comment)

namespace EntryGap

def text : EntryGap → Text
  | breaks more => List.replicate (more + 1) '\n'
  | sameLine comment => ' ' :: (comment.text ++ ['\n'])
  | ownLine comment => '\n' :: (comment.text ++ ['\n'])

/-- The comment on the line of the import. -/
def trailing : EntryGap → Text
  | sameLine comment => ' ' :: comment.text
  | _ => []

/-- What stands behind the line of the import. -/
def rest : EntryGap → Text
  | sameLine _ => ['\n']
  | gap => gap.text

/-- The comment on a line of its own. -/
def leading : EntryGap → Text
  | ownLine comment => comment.text
  | _ => []

end EntryGap

/-- An import of one name, and what follows it. -/
structure Entry where
  name : AsciiName
  path : Text
  path_plain : ∀ c ∈ path, c ≠ '\'' ∧ c ≠ '\\' ∧ c ≠ '\r' ∧ c ≠ '\n'
  gap : EntryGap

def Entry.text (entry : Entry) : Text :=
  "import ".toList ++ entry.name.text ++ " from '".toList ++ entry.path ++ "'".toList

/-- The code behind the imports. -/
def runCall : Text := "run()\n".toList

/-- The file of some imports. -/
def fileText (entries : List Entry) : Text :=
  entries.flatMap (fun entry => entry.text ++ entry.gap.text) ++ runCall

/-! ## The canonical rendering -/

/-- Each import with the comment on the lines above it; `above` belongs to the first. -/
def withAbove (above : Text) : List Entry → List (Text × Entry)
  | [] => []
  | entry :: rest => (above, entry) :: withAbove entry.gap.leading rest

/-- The imports of a group, sorted. Equal keys keep their order. -/
def groupMembers (config : Configuration) (entries : List Entry) (group : Group) : List (Text × Entry) :=
  ((withAbove [] entries).filter fun item => config.classify item.2.path == group).mergeSort
    fun a b => config.isSorted group a.2.path b.2.path

/-- The lines of a group: the comments above its members, then the members with the comments on their lines. -/
def memberLines (items : List (Text × Entry)) : List Text :=
  (items.map Prod.fst).filter (!·.isEmpty) ++ items.map fun item => item.2.text ++ item.2.gap.trailing

/-- What stood behind the last import and the comment on its line. -/
def behindLastEntry (entries : List Entry) : Text :=
  (entries.getLast?.map fun entry => entry.gap.rest).getD [] ++ runCall

/-- The file in canonical form: the groups with an empty line between each two, and what stood behind them. -/
def canonicalFile (config : Configuration) (entries : List Entry) : Text :=
  Text.joinWith ['\n', '\n'] (((Group.canonical.map (groupMembers config entries)).filter (!·.isEmpty)).map
    fun items => Text.joinWith ['\n'] (memberLines items)) ++ behindLastEntry entries

/-! ## Comments and gaps -/

theorem Text.stripEnd_eq_self {t : Text} (h : ∀ c ∈ t.getLast?, isBlank c = false) : t.stripEnd = t := by
  unfold Text.stripEnd Text.dropEndWhile
  cases hreverse : t.reverse with
  | nil => rw [List.reverse_eq_nil_iff.mp hreverse]; rfl
  | cons c rest =>
    have hlast : t.getLast? = some c := by rw [← List.head?_reverse, hreverse]; rfl
    rw [List.dropWhile_cons_of_neg (by simp [h c hlast]), ← hreverse, List.reverse_reverse]

theorem Text.stripEnd_append_lineFeed (t : Text) : Text.stripEnd (t ++ ['\n']) = t.stripEnd := by
  unfold Text.stripEnd Text.dropEndWhile
  rw [List.reverse_append]
  rfl

theorem Text.not_hasInfix_tail {part t : Text} {c : Char} (h : Text.hasInfix part (c :: t) = false) :
    part.isPrefixOf (c :: t) = false ∧ Text.hasInfix part t = false := by
  rw [Text.hasInfix, Bool.or_eq_false_iff] at h
  exact h

section

variable {content : Text} (hopen : Text.hasInfix ['*', '/'] content = false)

include hopen

/-- No comment end is made of the first character of such a text and what is put behind it. -/
theorem not_closes {c d : Char} {rest : Text} (hcontent : content = c :: rest) (hd : d ≠ '/') (k r : Text)
    (hc : c = '*') (heq : rest ++ d :: k = '/' :: r) : False := by
  subst hcontent
  cases rest with
  | nil => exact hd (List.cons.inj heq).1
  | cons d rest =>
    obtain ⟨rfl, -⟩ := List.cons.inj heq
    simp [hc, Text.hasInfix] at hopen

theorem afterClose_open (k : Text) :
    Trivia.afterClose (content ++ ' ' :: '*' :: '/' :: k) = some k := by
  induction content with
  | nil => simp [Trivia.afterClose]
  | cons c rest ih =>
    rw [List.cons_append, Trivia.afterClose]
    · exact ih (Text.not_hasInfix_tail hopen).2
    · intro r hc heq
      exact not_closes hopen rfl (by decide) _ r hc heq

theorem blockCommentLineEnd?_open (hline : ∀ c ∈ content, Plan.isLineBreak c = false) :
    Plan.blockCommentLineEnd? (content ++ [' ', '*', '/', '\n']) = some ['\n'] := by
  induction content with
  | nil => decide
  | cons c rest ih =>
    rw [List.cons_append, Plan.blockCommentLineEnd?, hline c (by simp), if_neg (by simp)]
    · exact ih (Text.not_hasInfix_tail hopen).2 fun d hd => hline d (List.mem_cons_of_mem _ hd)
    · intro r hc heq
      exact not_closes hopen rfl (by decide) _ r hc heq

end

namespace Comment

theorem oneLine (comment : Comment) : ∀ c ∈ comment.text, Plan.isLineBreak c = false := by
  intro c hc
  cases comment with
  | line content =>
    simp only [text, List.mem_cons] at hc
    rcases hc with rfl | rfl | rfl | hc
    · decide
    · decide
    · decide
    · exact content.oneLine c hc
  | block content =>
    simp only [text, List.mem_cons, List.mem_append, List.not_mem_nil, or_false] at hc
    rcases hc with rfl | rfl | rfl | hc | rfl | rfl | rfl
    · decide
    · decide
    · decide
    · exact content.oneLine c hc
    · decide
    · decide
    · decide

/-- A line feed closes a comment of either kind. -/
theorem closed (comment : Comment) : Trivia.Closed (comment.text ++ ['\n']) := by
  cases comment with
  | line content =>
    have hfree : '\n' ∉ ' ' :: content.text := by
      intro hmem
      rcases List.mem_cons.mp hmem with hfeed | hmem
      · exact absurd hfeed (by decide)
      · exact Plan.not_mem_lineFeed content.oneLine hmem
    exact .line hfree .nil
  | block content =>
    have hclose : Trivia.afterClose (' ' :: (content.text ++ [' ', '*', '/'])) = some [] := by
      rw [Trivia.afterClose]
      · exact afterClose_open content.open_end []
      · intro r hc
        exact absurd hc (by decide)
    have hblank : Trivia.Closed ['\n'] := .blank (by decide) .nil
    exact .block hclose hblank

theorem last_nonblank (comment : Comment) : ∀ c ∈ comment.text.getLast?, isBlank c = false := by
  intro c hc
  cases comment with
  | line content =>
    apply content.last_nonblank
    obtain ⟨d, rest, htext⟩ := List.exists_cons_of_ne_nil content.ne_nil
    rw [text, htext, List.getLast?_cons_cons, List.getLast?_cons_cons, List.getLast?_cons_cons] at hc
    rwa [htext]
  | block content =>
    have hend : (text (.block content)).getLast? = some '/' := by
      rw [text, List.getLast?_cons, List.getLast?_cons, List.getLast?_cons, List.getLast?_append]
      rfl
    rw [hend] at hc
    obtain rfl := Option.some.inj hc
    decide

theorem stripEnd_text (comment : Comment) : Text.stripEnd (comment.text ++ ['\n']) = comment.text := by
  rw [Text.stripEnd_append_lineFeed, Text.stripEnd_eq_self comment.last_nonblank]

theorem exists_text (comment : Comment) : ∃ rest, comment.text = '/' :: rest := by
  cases comment with
  | line => exact ⟨_, rfl⟩
  | block => exact ⟨_, rfl⟩

/-- Behind a space the comment reaches up to the end of its line. -/
theorem commentLineEnd?_text (comment : Comment) :
    Plan.commentLineEnd? (' ' :: (comment.text ++ ['\n'])) = some ['\n'] := by
  cases comment with
  | line content =>
    have hfront : ∀ c ∈ ' ' :: content.text, (!Plan.isLineBreak c) = true := by
      intro c hc
      rcases List.mem_cons.mp hc with rfl | hc
      · decide
      · simp [content.oneLine c hc]
    have hafter : (' ' :: (content.text ++ ['\n'])).dropWhile (fun c => !Plan.isLineBreak c) = ['\n'] := by
      rw [← List.cons_append, List.dropWhile_append_of_pos hfront]
      rfl
    show (if Plan.atLineEnd ((' ' :: (content.text ++ ['\n'])).dropWhile fun c => !Plan.isLineBreak c) then
      some ((' ' :: (content.text ++ ['\n'])).dropWhile fun c => !Plan.isLineBreak c) else none) = _
    rw [hafter]
    rfl
  | block content =>
    show Plan.blockCommentLineEnd? (' ' :: ((content.text ++ [' ', '*', '/']) ++ ['\n'])) = _
    rw [List.append_assoc, Plan.blockCommentLineEnd?, if_neg (by decide)]
    · exact blockCommentLineEnd?_open content.open_end content.oneLine
    · intro r hc
      exact absurd hc (by decide)

end Comment

namespace EntryGap

variable (gap : EntryGap)

theorem text_eq : gap.text = gap.trailing ++ gap.rest := by
  cases gap with
  | breaks => rfl
  | sameLine comment => exact (List.cons_append).symm
  | ownLine => rfl

/-- Trivia on new lines stands behind the line of an import. -/
theorem exists_rest : ∃ t, gap.rest = '\n' :: t ∧ Trivia.Closed t := by
  cases gap with
  | breaks more =>
    refine ⟨List.replicate more '\n', rfl, Trivia.closed_of_blanks ?_⟩
    intro c hc
    rw [List.eq_of_mem_replicate hc]
    decide
  | sameLine => exact ⟨[], rfl, .nil⟩
  | ownLine comment => exact ⟨comment.text ++ ['\n'], rfl, comment.closed⟩

theorem splitGap_text : Plan.splitGap gap.text = (gap.trailing, gap.rest) := by
  cases gap with
  | breaks more => rfl
  | sameLine comment =>
    have hstrip : Text.stripEnd (' ' :: comment.text) = ' ' :: comment.text := by
      apply Text.stripEnd_eq_self
      intro c hc
      apply comment.last_nonblank
      obtain ⟨rest, htext⟩ := comment.exists_text
      rw [htext, List.getLast?_cons_cons] at hc
      rwa [htext]
    rw [text, Plan.splitGap, comment.commentLineEnd?_text]
    dsimp only
    rw [← List.cons_append, Text.before_append, hstrip]
    rfl
  | ownLine comment => rfl

/-- Above the next import stands what is left of a comment on a line of its own. -/
theorem strip_rest : gap.rest.strip = gap.leading := by
  cases gap with
  | breaks more =>
    apply Text.strip_of_blanks
    intro c hc
    rw [List.eq_of_mem_replicate hc]
    decide
  | sameLine comment =>
    show Text.strip ['\n'] = []
    decide
  | ownLine comment =>
    obtain ⟨rest, htext⟩ := comment.exists_text
    have hdrop : ('\n' :: (comment.text ++ ['\n'])).dropWhile isBlank = comment.text ++ ['\n'] := by
      rw [htext]
      rfl
    show Text.stripEnd (('\n' :: (comment.text ++ ['\n'])).dropWhile isBlank) = comment.text
    rw [hdrop, comment.stripEnd_text]

theorem lineComment : Plan.LineComment gap.trailing := by
  cases gap with
  | breaks => exact ⟨by simp [trailing], .inl rfl⟩
  | sameLine comment =>
    obtain ⟨rest, htext⟩ := comment.exists_text
    have hspace : ∀ c ∈ [' '], isInlineBlank c = true := List.all_eq_true.mp (by decide)
    refine ⟨fun c hc => ?_, .inr ⟨[' '], rest, congrArg (' ' :: ·) htext, hspace⟩⟩
    rcases List.mem_cons.mp hc with rfl | hc
    · decide
    · exact comment.oneLine c hc
  | ownLine => exact ⟨by simp [trailing], .inl rfl⟩

/-- A line feed closes the comment on the line of an import. -/
theorem whole : Trivia.Closed (gap.trailing ++ ['\n']) := by
  cases gap with
  | breaks => exact .blank (by decide) .nil
  | sameLine comment => exact .blank (by decide) comment.closed
  | ownLine => exact .blank (by decide) .nil

/-- The comment on the line of one import may come to stand before what is behind the line of another. -/
theorem closed_trailing_rest (gap' : EntryGap) : Trivia.Closed (gap.trailing ++ gap'.rest) := by
  obtain ⟨t, ht, hclosed⟩ := gap'.exists_rest
  rw [ht, ← List.singleton_append, ← List.append_assoc]
  exact gap.whole.append hclosed

theorem closed : Trivia.Closed gap.text := by
  rw [gap.text_eq]
  exact gap.closed_trailing_rest gap

theorem comments : Plan.Comments gap.leading := by
  cases gap with
  | breaks => exact ⟨.blank (by decide) .nil, by simp [leading]⟩
  | sameLine => exact ⟨.blank (by decide) .nil, by simp [leading]⟩
  | ownLine comment =>
    refine ⟨comment.closed, fun c hc => ?_⟩
    obtain ⟨rest, htext⟩ := comment.exists_text
    rw [leading, htext] at hc
    exact (Option.some.inj hc).symm

theorem closesLine_rest (k : Text) : Plan.ClosesLine (gap.rest ++ k) := by
  obtain ⟨t, ht, -⟩ := gap.exists_rest
  rw [ht]
  exact Plan.closesLine_newline (.inr rfl) (t ++ k)

theorem closesLine (k : Text) : Plan.ClosesLine (gap.text ++ k) := by
  rw [gap.text_eq, List.append_assoc]
  exact gap.lineComment.closesLine (gap.closesLine_rest k)

theorem not_mem_return : '\r' ∉ gap.text := by
  have hcomment : ∀ comment : Comment, '\r' ∉ comment.text := by
    intro comment hmem
    exact absurd (comment.oneLine _ hmem) (by decide)
  cases gap with
  | breaks more =>
    intro hmem
    exact absurd (List.eq_of_mem_replicate hmem) (by decide)
  | sameLine comment => simp [text, hcomment]
  | ownLine comment => simp [text, hcomment]

end EntryGap

/-! ## Reading the file -/

/-- A space between two tokens. -/
def Source.Separator.space : Separator :=
  ⟨[' '], .blank (by decide) (by decide) .nil⟩

namespace Entry

/-- The declaration of an entry. -/
def form (entry : Entry) : DeclarationForm where
  bindings := .clause [(.space, .name entry.name)] .space
  apart := ⟨fun _ _ => List.cons_ne_nil _ _, fun _ _ => List.cons_ne_nil _ _, trivial⟩
  separator := .space
  quote := '\''
  quote_isQuote := by decide
  path := entry.path
  semicolon := false

theorem escape_path (entry : Entry) : escape '\'' entry.path = entry.path := by
  have hplain := entry.path_plain
  generalize entry.path = path at hplain
  induction path with
  | nil => rfl
  | cons c path ih =>
    obtain ⟨hquote, hback, -, hfeed⟩ := hplain c (by simp)
    rw [escape_cons, if_neg (by simp [hquote, hback, hfeed]), ih fun d hd => hplain d (List.mem_cons_of_mem _ hd)]
    rfl

theorem text_form (entry : Entry) : entry.form.text = entry.text := by
  have hkeyword : "import ".toList = importWord ++ [' '] := by decide
  have hfrom : " from '".toList = ' ' :: (AsciiName.fromWord.text ++ [' ', '\'']) := by decide
  have hquote : "'".toList = ['\''] := by decide
  have htokens : entry.form.bindings.tokens.text = ' ' :: (entry.name.text ++ ' ' :: AsciiName.fromWord.text) := by
    show (' ' :: entry.name.text) ++ ((' ' :: AsciiName.fromWord.text) ++ []) = _
    rw [List.append_nil]
    rfl
  have hbody : entry.form.body = ' ' :: (entry.name.text ++ ' ' :: AsciiName.fromWord.text) ++
      (' ' :: '\'' :: (entry.path ++ ['\''])) := by
    show entry.form.bindings.tokens.text ++ (' ' :: '\'' :: (escape '\'' entry.path ++ ['\''])) = _
    rw [htokens, entry.escape_path]
  rw [DeclarationForm.text, hbody]
  unfold text
  rw [hkeyword, hfrom, hquote]
  simp only [List.append_assoc, List.cons_append, List.nil_append]

end Entry

/-- The imports of a file as rows. -/
def entryRows (entries : List Entry) : Rows :=
  entries.map fun entry => (entry.form, entry.gap.text)

theorem text_entryRows (entries : List Entry) : (entryRows entries).text runCall = fileText entries := by
  unfold fileText
  induction entries with
  | nil => rfl
  | cons entry rest ih =>
    rw [entryRows, List.map_cons, Rows.text, List.flatMap_cons, entry.text_form, List.append_assoc, List.append_assoc]
    exact congrArg (fun t => entry.text ++ (entry.gap.text ++ t)) ih

/-- The call is read as other code. -/
theorem outline_runCall [Stack] :
    ∃ tokens, Outline ⟨0, .mark ';'⟩ runCall [⟨⟨runCall, ['\n'], none⟩, tokens⟩] := by
  -- there is no template in it, so any stack will do
  have hread : (@pieces ⟨0⟩ ⟨0, .mark ';'⟩ runCall).toOption.map joinCode = some [⟨runCall, ['\n'], none⟩] := by
    decide +kernel
  cases hempty : @pieces ⟨0⟩ ⟨0, .mark ';'⟩ runCall with
  | error fault => simp [hempty, Except.toOption] at hread
  | ok found =>
    have hpieces := (hempty ▸ @pieces_roomier ⟨0⟩ _ (Nat.zero_le Stack.room) ⟨0, .mark ';'⟩ runCall).ok
    obtain ⟨sections, houtline⟩ := outline_of_pieces hpieces
    have hfound := Except.ok.inj (hpieces.symm.trans houtline.pieces_eq)
    rw [hempty, hfound] at hread
    have hmap : sections.map Section.piece = [⟨runCall, ['\n'], none⟩] :=
      houtline.joinCode_eq.symm.trans (Option.some.inj hread)
    obtain ⟨s, rfl, hpiece⟩ := List.map_eq_singleton_iff.mp hmap
    refine ⟨s.tokens, ?_⟩
    rw [← hpiece]
    exact houtline

/-- The call is not taken for a part of an import above it. -/
theorem unclaimed_runCall {t : Text} (ht : Trivia.Closed t) (hcloses : Plan.ClosesLine (t ++ runCall)) :
    Unclaimed (t ++ runCall) := by
  have hname : splitName? (Trivia.drop (t ++ runCall)) = some ("run".toList, "()\n".toList) := by
    rw [ht.drop_append]
    decide +kernel
  exact ⟨skipAttributes_of_name hname (by decide), hcloses.skipSemicolon_eq⟩

theorem unclaimed_gap [Stack] (gap : EntryGap) (entries : List Entry) :
    Unclaimed (gap.text ++ (entryRows entries).text runCall) := by
  have hcloses := gap.closesLine ((entryRows entries).text runCall)
  cases entries with
  | nil => exact unclaimed_runCall gap.closed hcloses
  | cons entry rest => exact unclaimed_of_text gap.closed hcloses

theorem settled_entryRows [Stack] (entries : List Entry) : (entryRows entries).Settled runCall := by
  induction entries with
  | nil => trivial
  | cons entry rest ih => exact ⟨entry.gap.closed, unclaimed_gap entry.gap rest, ih⟩

/-! ## The bundles of the file -/

/-- The piece of the call. -/
def callPiece : Piece := ⟨runCall, ['\n'], none⟩

/-- The statements of the imports in a source that ends with them and the call. -/
def importStatements (source : Text) (entries : List Entry) : List Statement :=
  ((entryRows entries).sections runCall).map fun s => Document.statementIn source s.piece

theorem importStatements_cons (source : Text) (entry : Entry) (rest : List Entry) :
    importStatements source (entry :: rest) =
      Document.statementIn source ⟨entry.form.text ++ (entry.gap.text ++ (entryRows rest).text runCall),
        entry.gap.text ++ (entryRows rest).text runCall, some entry.path⟩ :: importStatements source rest :=
  rfl

/-- The statements of the file. -/
def fileStatements (entries : List Entry) : List Statement :=
  importStatements (fileText entries) entries ++ [Document.statementIn (fileText entries) callPiece]

theorem parse_fileText [Stack] {entries : List Entry} (hne : entries ≠ []) :
    ∃ document, Document.parse (fileText entries) = .ok document ∧
      document.statements = fileStatements entries := by
  obtain ⟨tokens, hcall⟩ := outline_runCall
  have hrows : entryRows entries ≠ [] := by simpa [entryRows] using hne
  obtain ⟨document, hparse, hstatements⟩ := Rows.parse (settled_entryRows entries) hrows hcall
  rw [text_entryRows] at hparse hstatements
  refine ⟨document, hparse, ?_⟩
  rw [hstatements, List.map_append]
  rfl

/-- The bundle of an import by itself, without a place in a source. -/
def entryBundle (item : Text × Entry) : Bundle :=
  ⟨⟨0, 0, 0, 0, item.2.text, some item.2.path⟩, item.1, item.2.gap.trailing⟩

/-- A bundle taken from its place in a source. -/
def Bundle.unplaced (b : Bundle) : Bundle :=
  ⟨⟨0, 0, 0, 0, b.statement.text, b.statement.path⟩, b.leading, b.trailing⟩

theorem Bundle.alike_unplaced (b : Bundle) : Plan.Alike b.unplaced b :=
  ⟨rfl, rfl, rfl, rfl⟩

section

variable {source : Text} {entries : List Entry}

theorem gapAfter_entry {gap : EntryGap} {start : Text} {path : Option Text}
    (hsource : gap.text ++ (entryRows entries).text runCall <:+ source) :
    Plan.gapAfter source
      (Document.statementIn source ⟨start, gap.text ++ (entryRows entries).text runCall, path⟩)
      (importStatements source entries ++ [Document.statementIn source callPiece]) = gap.text := by
  have hnext : ((importStatements source entries ++ [Document.statementIn source callPiece]).head?.map
      Statement.start) = some (source.offsetOf ((entryRows entries).text runCall) : Int) := by
    cases entries with
    | nil => rfl
    | cons entry rest => rfl
  rw [Plan.gapAfter, hnext, Option.getD_some, Document.statementIn_stop,
    Text.slice_offsetOf hsource (List.suffix_append _ _), Text.before_append]

/-- The bundles of the file hold the imports, each with the comment above it and the one on its line. -/
theorem bundles_importStatements (hsource : (entryRows entries).text runCall <:+ source) (above : Text) :
    ((Plan.bundles source above
      (importStatements source entries ++ [Document.statementIn source callPiece])).take
        (importStatements source entries).length).map Bundle.unplaced = (withAbove above entries).map entryBundle := by
  induction entries generalizing above with
  | nil => rfl
  | cons entry rest ih =>
    have hgap : entry.gap.text ++ (entryRows rest).text runCall <:+ source :=
      (List.suffix_append entry.form.text _).trans hsource
    have htext : Piece.text ⟨entry.form.text ++ (entry.gap.text ++ (entryRows rest).text runCall),
        entry.gap.text ++ (entryRows rest).text runCall, some entry.path⟩ = entry.text := by
      rw [Piece.text, Text.before_append, entry.text_form]
    rw [importStatements_cons, List.cons_append, Plan.bundles_cons, gapAfter_entry hgap, entry.gap.splitGap_text,
      entry.gap.strip_rest, List.length_cons, List.take_succ_cons, List.map_cons,
      ih ((List.suffix_append _ _).trans hgap), withAbove, List.map_cons, entryBundle, ← htext]
    rfl

theorem isImport_of_mem_importStatements {s : Statement} (h : s ∈ importStatements source entries) :
    s.isImport = true := by
  induction entries with
  | nil => simp [importStatements, entryRows, Rows.sections] at h
  | cons entry rest ih =>
    rw [importStatements_cons, List.mem_cons] at h
    rcases h with rfl | h
    · rfl
    · exact ih h

theorem spanned_importStatements (hne : entries ≠ []) :
    Plan.Spanned (importStatements source entries ++ [Document.statementIn source callPiece]) []
      (importStatements source entries) [Document.statementIn source callPiece] := by
  have hstatements : importStatements source entries ≠ [] := by
    obtain ⟨entry, rest, rfl⟩ := List.exists_cons_of_ne_nil hne
    exact List.cons_ne_nil _ _
  have hcall : ∀ s ∈ [Document.statementIn source callPiece], s.isImport = false := by
    intro s hs
    obtain rfl := List.mem_singleton.mp hs
    rfl
  refine ⟨rfl, by simp, hcall, ?_, ?_⟩
  · exact ⟨_, List.head?_eq_some_head hstatements, isImport_of_mem_importStatements (List.head_mem hstatements)⟩
  · exact ⟨_, List.getLast?_eq_some_getLast hstatements,
      isImport_of_mem_importStatements (List.getLast_mem hstatements)⟩

theorem getLast?_importStatements :
    (importStatements source entries).getLast? = entries.getLast?.map fun entry =>
      Document.statementIn source ⟨entry.form.text ++ (entry.gap.text ++ runCall), entry.gap.text ++ runCall,
        some entry.path⟩ := by
  induction entries with
  | nil => rfl
  | cons entry rest ih =>
    cases rest with
    | nil => rfl
    | cons next rest =>
      rw [importStatements_cons, importStatements_cons, List.getLast?_cons_cons, ← importStatements_cons, ih,
        List.getLast?_cons_cons]

theorem suffix_of_getLast? {entry : Entry} (h : entries.getLast? = some entry) :
    entry.gap.text ++ runCall <:+ fileText entries := by
  obtain ⟨front, rfl⟩ := List.getLast?_eq_some_iff.mp h
  rw [fileText, List.flatMap_append]
  refine ⟨front.flatMap (fun entry => entry.text ++ entry.gap.text) ++ entry.text, ?_⟩
  simp

end

theorem behindLastEntry_eq {entries : List Entry} {entry : Entry} (h : entries.getLast? = some entry) :
    behindLastEntry entries = entry.gap.rest ++ runCall := by
  rw [behindLastEntry, h, Option.map_some, Option.getD_some]

/-! ## The fix of the file -/

/-- The bundles of the file, from its first import to the last. -/
def fileBundles (entries : List Entry) : List Bundle :=
  Plan.span (fileText entries) (fileStatements entries)

theorem Entry.not_mem_return (entry : Entry) : '\r' ∉ entry.text := by
  have hname : '\r' ∉ entry.name.text := by
    intro hmem
    rcases List.mem_cons.mp hmem with hfirst | hrest
    · have hstart := entry.name.first_start
      rw [← hfirst] at hstart
      exact absurd hstart (by decide)
    · exact absurd (entry.name.rest_name _ hrest) (by decide)
  have hpath : '\r' ∉ entry.path := fun hmem => (entry.path_plain _ hmem).2.2.1 rfl
  have hkeyword : '\r' ∉ "import ".toList := by decide
  have hfrom : '\r' ∉ " from '".toList := by decide
  have hquote : '\r' ∉ "'".toList := by decide
  unfold text
  simp only [List.mem_append, not_or]
  exact ⟨⟨⟨⟨hkeyword, hname⟩, hfrom⟩, hpath⟩, hquote⟩

theorem newlineOf_fileText (entries : List Entry) : Plan.newlineOf (fileText entries) = ['\n'] := by
  have hreturn : '\r' ∉ fileText entries := by
    unfold fileText
    intro hmem
    rcases List.mem_append.mp hmem with hmem | hmem
    · obtain ⟨entry, -, hentry⟩ := List.mem_flatMap.mp hmem
      rcases List.mem_append.mp hentry with hentry | hentry
      · exact entry.not_mem_return hentry
      · exact entry.gap.not_mem_return hentry
    · exact absurd hmem (by decide)
  exact Plan.newlineOf_of_not_mem hreturn

section

variable {config : Configuration} {entries : List Entry}

/-- The last import of a file, with the comment on its line. -/
theorem getLast?_span (hne : entries ≠ []) {entry : Entry} (hentry : entries.getLast? = some entry) :
    ∃ b, (fileBundles entries).getLast? = some b ∧
      b.statement.stop = (fileText entries).offsetOf (entry.gap.text ++ runCall) ∧
      b.trailing = entry.gap.trailing := by
  have hlast := @getLast?_importStatements (fileText entries) entries
  rw [hentry, Option.map_some] at hlast
  generalize hpiece : (⟨entry.form.text ++ (entry.gap.text ++ runCall), entry.gap.text ++ runCall,
    some entry.path⟩ : Piece) = piece at hlast
  have hgap : Plan.gapAfter (fileText entries) (Document.statementIn (fileText entries) piece)
      [Document.statementIn (fileText entries) callPiece] = entry.gap.text := by
    rw [← hpiece]
    exact @gapAfter_entry _ [] entry.gap _ _ (suffix_of_getLast? hentry)
  obtain ⟨b, hb, hstatement, htrailing⟩ := Plan.getLast?_bundles (fileText entries) [] hlast
    [Document.statementIn (fileText entries) callPiece]
  rw [← (spanned_importStatements hne).span_eq] at hb
  rw [hgap, entry.gap.splitGap_text] at htrailing
  refine ⟨b, hb, ?_, htrailing⟩
  rw [hstatement, Document.statementIn_stop, ← hpiece]

theorem head?_span (hne : entries ≠ []) :
    ∃ b, (fileBundles entries).head? = some b ∧ b.statement.start = 0 := by
  have hspanned := @spanned_importStatements (fileText entries) entries hne
  obtain ⟨first, hfirst, -⟩ := hspanned.first_import
  obtain ⟨b, hb, rfl, -⟩ := Plan.head?_bundles (fileText entries) [] hfirst
    [Document.statementIn (fileText entries) callPiece]
  rw [← hspanned.span_eq] at hb
  refine ⟨b, hb, ?_⟩
  obtain ⟨entry, rest, rfl⟩ := List.exists_cons_of_ne_nil hne
  have htext : entry.form.text ++ (entry.gap.text ++ (entryRows rest).text runCall) = fileText (entry :: rest) :=
    text_entryRows (entry :: rest)
  rw [importStatements_cons, List.head?_cons] at hfirst
  rw [← Option.some.inj hfirst, Document.statementIn_start, htext, Text.offsetOf, Nat.sub_self]
  rfl

/-- The edit of a file sets the canonical form of its imports above what stood behind them. -/
theorem plan_fileText (hne : entries ≠ []) :
    ∃ edit, Plan.plan config (fileText entries) (fileStatements entries) = some edit ∧
      edit.apply (fileText entries) =
        Plan.canonicalText config ['\n'] (fileBundles entries) ++
          behindLastEntry entries := by
  obtain ⟨entry, hentry⟩ : ∃ entry, entries.getLast? = some entry := ⟨_, List.getLast?_eq_some_getLast hne⟩
  obtain ⟨first, hfirst, hstart⟩ := head?_span hne
  obtain ⟨last, hlast, hstop, htrailing⟩ := getLast?_span hne hentry
  obtain ⟨front, hfront⟩ := suffix_of_getLast? hentry
  -- the edit ends behind the comment on the last line
  have hplace : (fileText entries).offsetOf (entry.gap.text ++ runCall) = front.length := by
    rw [← hfront, Text.offsetOf, List.length_append, Nat.add_sub_cancel]
  have hle : front.length + entry.gap.trailing.length ≤ (fileText entries).length := by
    rw [← hfront, entry.gap.text_eq]
    simp only [List.length_append]
    omega
  have hdrop : (fileText entries).drop (front.length + entry.gap.trailing.length) = behindLastEntry entries := by
    rw [← hfront, List.drop_length_add_append, entry.gap.text_eq, List.append_assoc, List.drop_left,
      behindLastEntry_eq hentry]
  have hcode : Plan.blanksBeforeCode? (behindLastEntry entries) = none := by
    obtain ⟨t, ht, -⟩ := entry.gap.exists_rest
    rw [behindLastEntry_eq hentry, ht]
    rfl
  have hmin : min ((front.length : Int) + entry.gap.trailing.length).toNat (fileText entries).length =
      front.length + entry.gap.trailing.length := by omega
  rw [Plan.plan_eq config hfirst hlast, hstart, hstop, hplace, htrailing, newlineOf_fileText]
  dsimp only
  rw [hmin, hdrop, hcode]
  refine ⟨_, rfl, ?_⟩
  have hupTo : (fileText entries).upTo 0 = [] := by
    rw [Text.upTo, Text.place_of_le (by omega) (by omega)]
    rfl
  have honward : (fileText entries).onward ((front.length : Int) + entry.gap.trailing.length) =
      behindLastEntry entries := by
    rw [← hdrop, ← Int.natCast_add, Text.onward, Text.place_natCast, Nat.min_eq_left hle]
  unfold Edit.apply
  dsimp only
  rw [hupTo, honward, List.nil_append, fileBundles]

/-- The planner sets the imports of a file as the canonical rendering does. -/
theorem members_fileText (group : Group) :
    Plan.members config ((withAbove [] entries).map entryBundle) group =
      (groupMembers config entries group).map entryBundle := by
  have hfilter : (fun b : Bundle => b.statement.path.map config.classify == some group) ∘ entryBundle =
      fun item => config.classify item.2.path == group := by
    funext item
    rfl
  unfold Plan.members groupMembers
  rw [List.filter_map, hfilter]
  symm
  apply List.map_mergeSort
  intro a _ b _
  rfl

theorem groupLines_entryBundle (items : List (Text × Entry)) :
    Plan.groupLines (items.map entryBundle) = memberLines items := by
  unfold Plan.groupLines memberLines
  rw [List.map_map, List.map_map]
  rfl

theorem unplaced_span (hne : entries ≠ []) :
    (fileBundles entries).map Bundle.unplaced =
      (withAbove [] entries).map entryBundle := by
  have hsource : (entryRows entries).text runCall <:+ fileText entries :=
    text_entryRows entries ▸ List.suffix_refl _
  rw [fileBundles, fileStatements, (spanned_importStatements hne).span_eq]
  exact bundles_importStatements hsource []

theorem canonicalText_fileText (hne : entries ≠ []) :
    Plan.canonicalText config ['\n'] (fileBundles entries) ++
      behindLastEntry entries = canonicalFile config entries := by
  have hgroups : (Group.canonical.map (Plan.members config ((withAbove [] entries).map entryBundle))).filter
      (!·.isEmpty) = ((Group.canonical.map (groupMembers config entries)).filter (!·.isEmpty)).map
        (List.map entryBundle) := Plan.groups_map members_fileText
  have hcode : ((withAbove [] entries).map entryBundle).filter (!·.statement.isImport) = [] := by
    rw [List.filter_eq_nil_iff]
    intro b hb
    obtain ⟨item, -, rfl⟩ := List.mem_map.mp hb
    simp [entryBundle, Statement.isImport]
  rw [← Plan.canonicalText_map Bundle.alike_unplaced, unplaced_span hne, Plan.canonicalText, Plan.blocks, hgroups,
    hcode, List.map_nil, List.append_nil, List.map_map, canonicalFile]
  congr 3
  funext items
  exact congrArg (Text.joinWith ['\n']) (groupLines_entryBundle items)

end

end ImportOrder
