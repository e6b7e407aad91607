import ImportOrder.Json.Reader
import ImportOrder.Yaml.Cursor
import ImportOrder.Yaml.Reader

/-!
# Scalars

The text of plain, quoted and block scalars. A single line break inside a flow scalar is one space, and
every further one is kept.
-/

namespace ImportOrder.Yaml

/-- What a line break and the breaks after it stand for in a flow scalar. -/
def foldBreaks (first : Char) (others : Text) : Text :=
  if first != '\n' then first :: others
  else if others.isEmpty then [' ']
  else others

/-- The breaks inside a quoted scalar; a document separator there is an error. -/
def readQuotedBreaks : Nat → Text → Cursor → Except Error (Text × Cursor)
  | 0, done, cursor => .ok (done, cursor)
  | bound + 1, done, cursor =>
    if cursor.atSeparator then .error (.malformed .tokens "found unexpected document separator")
    else
      let cursor := cursor.skipWhile fun c => c == ' ' || c == '\t'
      match cursor.lineBreak? with
      | some (c, cursor) => readQuotedBreaks bound (done ++ [c]) cursor
      | none => .ok (done, cursor)

/-- The characters that single letters stand for after a backslash. -/
def escapes : List (Char × Char) :=
  [('0', '\x00'), ('a', '\x07'), ('b', '\x08'), ('t', '\t'), ('\t', '\t'), ('n', '\n'), ('v', '\x0b'),
    ('f', '\x0c'), ('r', '\r'), ('e', '\x1b'), (' ', ' '), ('"', '"'), ('\\', '\\'), ('/', '/'),
    ('N', '\x85'), ('_', '\xa0'), ('L', '\u2028'), ('P', '\u2029')]

/-- The number of digits after a letter that gives a character by its code. -/
def codeLength? : Char → Option Nat
  | 'x' => some 2
  | 'u' => some 4
  | 'U' => some 8
  | _ => none

/-- The value of hexadecimal digits. -/
def hexValue? (digits : Text) : Option Nat :=
  digits.foldl (fun n? c => do return (← n?) * 16 + (← Json.hexDigit? c)) (some 0)

/-- What an escape stands for, from after its backslash. -/
def readEscape (cursor : Cursor) : Except Error (Text × Cursor) :=
  match cursor.peek with
  | none => .error (.malformed .tokens "found unknown escape character")
  | some c =>
    match escapes.lookup c, codeLength? c with
    | some out, _ => .ok ([out], cursor.next)
    | none, some length =>
      let digits := (cursor.next.rest).take length
      match hexValue? digits with
      | some n =>
        if digits.length < length then .error (.malformed .tokens "expected escape sequence")
        else if n ≤ 0x10ffff then .ok ([Char.ofNat n], cursor.next.skip length)
        else .error (.scalar (if n < 0x80000000 then .noValue else .tooLarge))
      | none => .error (.malformed .tokens "expected escape sequence")
    | none, none =>
      match cursor.lineBreak? with
      | some (_, cursor) => readQuotedBreaks cursor.rest.length [] cursor
      | none => .error (.malformed .tokens "found unknown escape character")

/-- The rest of a quoted scalar, after its opening quote; `done` is what comes before it, in reverse. -/
def readQuoted (double : Bool) : Nat → Text → Cursor → Except Error (Text × Cursor)
  | 0, _, _ => .error (.malformed .tokens "found unexpected end of stream")
  | bound + 1, done, cursor =>
    match cursor.peek with
    | none => .error (.malformed .tokens "found unexpected end of stream")
    | some c =>
      if c == ' ' || c == '\t' || isBreak c then
        let blanks := cursor.ahead fun c => c == ' ' || c == '\t'
        let cursor := cursor.skip blanks.length
        match cursor.lineBreak? with
        | none => readQuoted double bound (blanks.reverse ++ done) cursor
        | some (first, cursor) =>
          match readQuotedBreaks cursor.rest.length [] cursor with
          | .error error => .error error
          | .ok (others, cursor) =>
            readQuoted double bound ((foldBreaks first others).reverse ++ done) cursor
      else if !double && c == '\'' && cursor.peek 1 == some '\'' then
        readQuoted double bound ('\'' :: done) (cursor.skip 2)
      else if c == (if double then '"' else '\'') then .ok (done.reverse, cursor.next)
      else if double && c == '\\' then
        match readEscape cursor.next with
        | .error error => .error error
        | .ok (out, cursor) => readQuoted double bound (out.reverse ++ done) cursor
      else readQuoted double bound (c :: done) cursor.next

/-- The characters that have a meaning of their own inside brackets. -/
def isFlowMark (c : Char) : Bool :=
  c == ',' || c == '[' || c == ']' || c == '\x7b' || c == '\x7d'

/-- The run of characters of a plain scalar up to a blank, or to a mark that ends it. -/
def plainRun (inFlow : Bool) : Text → Text
  | [] => []
  | c :: rest =>
    let after := rest.head?
    if endsWord (some c) then []
    else if c == ':' && (endsWord after || (inFlow && (after.map isFlowMark).getD false)) then []
    else if inFlow && (isFlowMark c || c == '?') then []
    else c :: plainRun inFlow rest

/-- The line breaks between the lines of a plain scalar, or `none` before a document separator. -/
def readPlainBreaks : Nat → Text → Cursor → Option Text × Cursor
  | 0, done, cursor => (some done, cursor)
  | bound + 1, done, cursor =>
    let cursor := cursor.skipWhile (· == ' ')
    match cursor.lineBreak? with
    | none => (some done, cursor)
    | some (c, cursor) =>
      if cursor.atSeparator then (none, cursor) else readPlainBreaks bound (done ++ [c]) cursor

/-- What stands between two runs of a plain scalar, with whether a line ended. It is empty when the
scalar ends here. -/
def readPlainBlanks (cursor : Cursor) : Text × Bool × Cursor :=
  let blanks := cursor.ahead (· == ' ')
  let cursor := cursor.skip blanks.length
  match cursor.lineBreak? with
  | none => (blanks, false, cursor)
  | some (first, cursor) =>
    if cursor.atSeparator then ([], true, cursor)
    else
      match readPlainBreaks cursor.rest.length [] cursor with
      | (none, cursor) => ([], true, cursor)
      | (some others, cursor) => (foldBreaks first others, true, cursor)

/-- A plain scalar after `done` and `blanks`: its text, whether a line ended in or after it, and the cursor after
it. Outside brackets its lines stand at least at column `indent`. `done` is in reverse. -/
def readPlain (inFlow : Bool) (indent : Int) :
    Nat → Text → Text → Bool → Cursor → Text × Bool × Cursor
  | 0, done, _, ended, cursor => (done.reverse, ended, cursor)
  | bound + 1, done, blanks, ended, cursor =>
    if cursor.sees '#' then (done.reverse, ended, cursor)
    else
      let run := plainRun inFlow cursor.rest
      if run.isEmpty then (done.reverse, ended, cursor)
      else
        let done := run.reverse ++ (blanks.reverse ++ done)
        let (blanks, ended, cursor) := readPlainBlanks (cursor.skip run.length)
        if blanks.isEmpty || cursor.sees '#' || (!inFlow && cursor.column < indent) then
          (done.reverse, ended, cursor)
        else readPlain inFlow indent bound done blanks ended cursor

/-- How the line breaks at the end of a block scalar are kept. -/
inductive Chomping where
  | clip
  | strip
  | keep
deriving DecidableEq

def chompingOf? : Option Char → Option Chomping
  | some '+' => some .keep
  | some '-' => some .strip
  | _ => none

/-- An indentation indicator, if one is next; zero is an error. -/
def readIncrement (cursor : Cursor) : Except Error (Option Nat × Cursor) :=
  match cursor.peek with
  | some c =>
    if c.isDigit then
      if c == '0' then .error (.malformed .tokens "expected indentation indicator in the range 1-9")
      else .ok (some (c.toNat - '0'.toNat), cursor.next)
    else .ok (none, cursor)
  | none => .ok (none, cursor)

/-- The indicators of a block scalar, in either order. -/
def readIndicators (cursor : Cursor) : Except Error (Chomping × Option Nat × Cursor) := do
  let (chomping, increment, cursor) ←
    match chompingOf? cursor.peek with
    | some chomping => do
      let (increment, cursor) ← readIncrement cursor.next
      pure (chomping, increment, cursor)
    | none => do
      let (increment, cursor) ← readIncrement cursor
      match increment, chompingOf? cursor.peek with
      | some _, some chomping => pure (chomping, increment, cursor.next)
      | _, _ => pure (.clip, increment, cursor)
  if endsField cursor.peek then return (chomping, increment, cursor)
  else throw (.malformed .tokens "expected chomping or indentation indicators")

/-- The rest of a line on which only a comment may stand. -/
def skipRestOfLine (cursor : Cursor) : Except Error Cursor :=
  let cursor := cursor.skipWhile (· == ' ')
  let cursor := if cursor.sees '#' then cursor.skipWhile (!isBreak ·) else cursor
  if endsLine cursor.peek then .ok ((cursor.lineBreak?.map Prod.snd).getD cursor)
  else .error (.malformed .tokens "expected a comment or a line break")

/-- The line breaks before the first line of a block scalar and the deepest column of blanks seen. -/
def readIndentation : Nat → Text → Nat → Cursor → Text × Nat × Cursor
  | 0, done, deepest, cursor => (done, deepest, cursor)
  | bound + 1, done, deepest, cursor =>
    if cursor.sees ' ' then
      let cursor := cursor.next
      readIndentation bound done (max deepest cursor.column) cursor
    else
      match cursor.lineBreak? with
      | some (c, cursor) => readIndentation bound (done ++ [c]) deepest cursor
      | none => (done, deepest, cursor)

/-- The cursor after the spaces up to a column. -/
def skipToColumn (indent : Nat) (cursor : Cursor) : Cursor :=
  cursor.skip (min (cursor.ahead (· == ' ')).length (indent - cursor.column))

/-- The line breaks of the empty lines of a block scalar. -/
def readBlockBreaks (indent : Nat) : Nat → Text → Cursor → Text × Cursor
  | 0, done, cursor => (done, cursor)
  | bound + 1, done, cursor =>
    let cursor := skipToColumn indent cursor
    match cursor.lineBreak? with
    | some (c, cursor) => readBlockBreaks indent bound (done ++ [c]) cursor
    | none => (done, cursor)

/-- The lines of a block scalar: its text without the last line break, that break, and the breaks after
it. -/
def readBlockLines (folded : Bool) (indent : Nat) :
    Nat → Text → Text → Cursor → Text × Text × Text × Cursor
  | 0, done, breaks, cursor => (done, [], breaks, cursor)
  | bound + 1, done, breaks, cursor =>
    if cursor.column != indent || cursor.peek.isNone then (done, [], breaks, cursor)
    else
      let isBlank (c? : Option Char) : Bool := c? == some ' ' || c? == some '\t'
      let firstBlank := isBlank cursor.peek
      let line := cursor.ahead (!isBreak ·)
      let done := done ++ breaks ++ line
      let cursor := cursor.skip line.length
      let (lineBreak, cursor) : Text × Cursor :=
        match cursor.lineBreak? with
        | some (c, cursor) => ([c], cursor)
        | none => ([], cursor)
      let (breaks, cursor) := readBlockBreaks indent cursor.rest.length [] cursor
      if cursor.column == indent && cursor.peek.isSome then
        let joined : Text :=
          if folded && lineBreak == ['\n'] && !firstBlank && !isBlank cursor.peek then
            if breaks.isEmpty then [' '] else []
          else lineBreak
        readBlockLines folded indent bound (done ++ joined) breaks cursor
      else (done, lineBreak, breaks, cursor)

/-- A block scalar, from its indicator on; `parent` is the indentation around it. -/
def readBlock (folded : Bool) (parent : Int) (cursor : Cursor) : Except Error (Text × Cursor) := do
  let (chomping, increment, cursor) ← readIndicators cursor.next
  let cursor ← skipRestOfLine cursor
  let least := max 1 (parent + 1).toNat
  let (breaks, indent, cursor) : Text × Nat × Cursor :=
    match increment with
    | none =>
      let (breaks, deepest, cursor) := readIndentation cursor.rest.length [] 0 cursor
      (breaks, max least deepest, cursor)
    | some n =>
      let indent := least + n - 1
      let (breaks, cursor) := readBlockBreaks indent cursor.rest.length [] cursor
      (breaks, indent, cursor)
  let (text, lineBreak, breaks, cursor) :=
    readBlockLines folded indent (cursor.rest.length + 1) [] breaks cursor
  let text := if chomping = .strip then text else text ++ lineBreak
  return (if chomping = .keep then text ++ breaks else text, cursor)

end ImportOrder.Yaml
