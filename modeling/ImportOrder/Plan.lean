import ImportOrder.Group
import ImportOrder.Source.Statement

/-!
# Planning the canonical import block

One edit replaces everything from the first import to the last: the imports by group in canonical order,
sorted within each group, then the other statements that stood between them. A comment that closes an
import's line stays with it; other comments above an import are set above its group.
-/

namespace ImportOrder

/-- A statement with the comments that travel with it. -/
structure Bundle where
  statement : Statement
  leading : Text
  trailing : Text
deriving DecidableEq

/-- The statement and the comment on its line. -/
def Bundle.body (bundle : Bundle) : Text :=
  bundle.statement.text ++ bundle.trailing

namespace Plan

/-- The line break a source uses: carriage return and line feed if they occur together at all. -/
def newlineOf (source : Text) : Text :=
  if Text.hasInfix ['\r', '\n'] source then ['\r', '\n'] else ['\n']

def isLineBreak (c : Char) : Bool :=
  c == '\r' || c == '\n'

/-- Whether a line ends here: at a line feed, with or without a carriage return, or at the end. -/
def atLineEnd : Text → Bool
  | [] => true
  | '\n' :: _ => true
  | '\r' :: '\n' :: _ => true
  | _ => false

/-- From inside a block comment, the end of the line after a comment end on this line that only spaces
and tabs follow. -/
def blockCommentLineEnd? : Text → Option Text
  | [] => none
  | '*' :: '/' :: rest =>
    let after := rest.dropWhile isInlineBlank
    if atLineEnd after then some after else blockCommentLineEnd? rest
  | c :: rest => if isLineBreak c then none else blockCommentLineEnd? rest

/-- The end of the line when a single comment stands between here and there. -/
def commentLineEnd? (gap : Text) : Option Text :=
  match gap.dropWhile isInlineBlank with
  | '/' :: '/' :: rest =>
    let after := rest.dropWhile fun c => !isLineBreak c
    if atLineEnd after then some after else none
  | '/' :: '*' :: rest => blockCommentLineEnd? rest
  | _ => none

/-- Cuts the text after a statement into the comment that closes its line, which may be empty, and what
follows. -/
def splitGap (gap : Text) : Text × Text :=
  match commentLineEnd? gap with
  | some after => (Text.stripEnd (gap.before after), after)
  | none => ([], gap)

/-- Shares out the text between statements among them. Each gap reaches up to the next statement, or to
the end of the source; `leading` belongs to the first statement. -/
def bundles (source leading : Text) : List Statement → List Bundle
  | [] => []
  | statement :: rest =>
    let stop : Int := (rest.head?.map Statement.start).getD source.length
    let (trailing, after) := splitGap (source.slice statement.stop stop)
    ⟨statement, leading, trailing⟩ :: bundles source after.strip rest

/-- The bundles from the first import to the last. What stands above the first import stays where it is. -/
def span (source : Text) (statements : List Statement) : List Bundle :=
  ((bundles source [] (statements.dropWhile (!·.isImport))).reverse.dropWhile
    (!·.statement.isImport)).reverse

/-- The imports of one group, sorted. Equal keys keep their order. -/
def members (config : Configuration) (all : List Bundle) (group : Group) : List Bundle :=
  (all.filter fun bundle => bundle.statement.path.map config.classify == some group).mergeSort
    fun a b => config.isSorted group (a.statement.path.getD []) (b.statement.path.getD [])

/-- The lines of a group: the comments above its members, then the members. -/
def groupLines (bundles : List Bundle) : List Text :=
  (bundles.map Bundle.leading).filter (!·.isEmpty) ++ bundles.map Bundle.body

/-- A statement that is no import, below its comments. -/
def movedText (newline : Text) (bundle : Bundle) : Text :=
  newline.joinWith ([bundle.leading, bundle.body].filter (!·.isEmpty))

/-- The blocks of the canonical form: the groups that have members, then the other statements. -/
def blocks (config : Configuration) (newline : Text) (all : List Bundle) : List Text :=
  let groups := (Group.canonical.map (members config all)).filter (!·.isEmpty)
  groups.map (fun bundles => newline.joinWith (groupLines bundles)) ++
    (all.filter (!·.statement.isImport)).map (movedText newline)

/-- The text of the canonical form: one empty line between blocks. -/
def canonicalText (config : Configuration) (newline : Text) (all : List Bundle) : Text :=
  (newline ++ newline).joinWith (blocks config newline all)

/-- The number of spaces and tabs before code on the same line, if there is such code. -/
def blanksBeforeCode? (t : Text) : Option Nat :=
  match t.dropWhile isInlineBlank with
  | [] => none
  | c :: rest => if isLineBreak c then none else some (t.length - (c :: rest).length)

/-- The edit that puts every import of a source into canonical form, if there are imports. Code that
shares the last import's line is pushed onto a line of its own. -/
def plan (config : Configuration) (source : Text) (statements : List Statement) : Option Edit :=
  match span source statements with
  | [] => none
  | first :: rest =>
    let newline := newlineOf source
    let last := (first :: rest).getLast (by simp)
    let replacement := canonicalText config newline (first :: rest)
    let start := first.statement.start
    let stop := last.statement.stop + last.trailing.length
    let place := min stop.toNat source.length
    match blanksBeforeCode? (source.drop place) with
    | some blanks => some ⟨start, (place + blanks : Nat), replacement ++ newline⟩
    | none => some ⟨start, stop, replacement⟩

end Plan

end ImportOrder
