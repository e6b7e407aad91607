import ImportOrder.Source.Piece
import ImportOrder.Text.LineIndex

/-!
# Statements

The top level of a source as a list of statements with their offsets and lines. A document is a source
that has been read, together with its line index.
-/

namespace ImportOrder

open Source

/-- A top-level statement: an import declaration, with its module path, or a run of other code. Offsets
count characters, `stop` is one past the last, and lines count from zero. -/
structure Statement where
  start : Int
  stop : Int
  line : Int
  endLine : Int
  text : Text
  path : Option Text
deriving DecidableEq

/-- Whether the statement is an import declaration. -/
def Statement.isImport (statement : Statement) : Bool :=
  statement.path.isSome

/-- A part of the source that is not read to its end, and the offset at which it begins. -/
structure SourceError where
  part : Source.Part
  offset : Nat
deriving DecidableEq

/-- What a part is called in messages. -/
def Source.Part.name : Source.Part → String
  | comment => "comment"
  | string => "string literal"
  | template | nesting => "template literal"
  | declaration => "import declaration"
  | attributes => "import attributes"

/-- What is said of a source that cannot be read. -/
def SourceError.message (error : SourceError) : String :=
  if error.part = .nesting then "maximum recursion depth exceeded"
  else "unterminated " ++ error.part.name ++ " at offset " ++ toString error.offset

/-- A source that has been read. -/
structure Document where
  index : LineIndex
  statements : List Statement

namespace Document

/-- A piece of a source of the given length as a statement. -/
def statementOf (index : LineIndex) (length : Nat) (piece : Piece) : Statement :=
  let start : Int := (length - piece.start.length : Nat)
  let stop : Int := (length - piece.rest.length : Nat)
  { start, stop
    line := index.lineOf start
    endLine := index.lineOf (max start (stop - 1))
    text := piece.text
    path := piece.path }

/-- Reads a source. -/
def parse [Stack] (source : Text) : Except SourceError Document :=
  match pieces State.initial (dropInterpreterLine source) with
  | .error fault => .error ⟨fault.part, source.length - fault.tail.length⟩
  | .ok found =>
    let index := LineIndex.ofText source
    .ok ⟨index, (joinCode found).map (statementOf index source.length)⟩

/-- The module paths of the declarations, in order. -/
def paths (document : Document) : List Text :=
  document.statements.filterMap Statement.path

end Document

end ImportOrder
