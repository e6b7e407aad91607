import ImportOrder.Yaml.Scalar

/-!
# YAML tokens

Indentation opens and closes block collections, so it is turned into tokens here. A scalar may turn out to be
a key only when the colon after it is reached; the places of such possible keys are remembered, one for each
level of brackets. A fault is a token too: it stands where reading could not go on, so that the tokens before it
are judged first.
-/

namespace ImportOrder.Yaml

/-- A directive before a document. -/
inductive Directive where
  | version (major : Nat)
  | tag (handle meaning : Text)
  | other
deriving DecidableEq

/-- A token of a YAML text. -/
inductive Token where
  | directive (directive : Directive)
  | documentStart
  | documentEnd
  | blockSequence
  | blockMapping
  | blockEnd
  | flowSequence
  | flowSequenceEnd
  | flowMapping
  | flowMappingEnd
  | flowEntry
  | blockEntry
  | key
  | value
  | reference (name : Text)
  | anchor (name : Text)
  | tag (handle : Option Text) (rest : Text)
  | scalar (plain : Bool) (text : Text)
  | endOfText
  /-- The place from which on the text has no tokens. -/
  | fault (error : Error)
deriving DecidableEq

/-- A place where a key may have begun: the number of tokens before it, where it stands, and whether nothing
but a key is allowed there. -/
structure PossibleKey where
  tokens : Nat
  index : Nat
  line : Nat
  column : Nat
  required : Bool

/-- The state of reading tokens. `keys` holds the possible key of each level of brackets that has one, and the
first `ready` tokens are final. -/
structure Lexer where
  cursor : Cursor
  tokens : Array Token := #[]
  ready : Nat := 0
  indent : Int := -1
  indents : List Int := []
  flow : Nat := 0
  keyAllowed : Bool := true
  keys : List (Nat × PossibleKey) := []

namespace Lexer

def fail {α : Type} (reason : String) : Except Error α :=
  .error (.malformed .tokens reason)

def push (lexer : Lexer) (token : Token) : Lexer :=
  { lexer with tokens := lexer.tokens.push token }

/-- Forgets the possible key of this level. -/
def dropKey (lexer : Lexer) : Except Error Lexer :=
  match lexer.keys.lookup lexer.flow with
  | some key =>
    if key.required then fail "could not find expected ':'"
    else .ok { lexer with keys := lexer.keys.filter (·.1 != lexer.flow) }
  | none => .ok lexer

/-- Remembers that a key may begin here. -/
def saveKey (lexer : Lexer) : Except Error Lexer :=
  if lexer.keyAllowed then do
    let lexer ← lexer.dropKey
    let cursor := lexer.cursor
    let required := lexer.flow == 0 && lexer.indent == cursor.column
    let key : PossibleKey := ⟨lexer.tokens.size, cursor.index, cursor.line, cursor.column, required⟩
    return { lexer with keys := (lexer.flow, key) :: lexer.keys }
  else .ok lexer

/-- Forgets the possible keys that this place is too far from: a key stands on one line and takes at most
1024 characters. -/
def dropStaleKeys (lexer : Lexer) : Except Error Lexer :=
  let stale (key : PossibleKey) : Bool :=
    key.line != lexer.cursor.line || decide (1024 < lexer.cursor.index - key.index)
  if lexer.keys.any fun (_, key) => stale key && key.required then fail "could not find expected ':'"
  else .ok { lexer with keys := lexer.keys.filter fun (_, key) => !stale key }

/-- Closes the block collections that are indented more than a column. -/
def unwind (column : Int) (indents : List Int) (lexer : Lexer) : Lexer :=
  match indents with
  | [] => { lexer with indents := [] }
  | outer :: rest =>
    if column < lexer.indent then
      unwind column rest ({ lexer with indent := outer }.push .blockEnd)
    else { lexer with indents := outer :: rest }

/-- Closes block collections, unless inside brackets. -/
def unwindTo (lexer : Lexer) (column : Int) : Lexer :=
  if lexer.flow != 0 then lexer else lexer.unwind column lexer.indents

/-- Opens an indentation if the column is deeper than the present one. -/
def indentTo (lexer : Lexer) (column : Int) : Option Lexer :=
  if lexer.indent < column then
    some { lexer with indents := lexer.indent :: lexer.indents, indent := column }
  else none

/-- The lexer with the cursor moved. -/
def moveTo (lexer : Lexer) (cursor : Cursor) : Lexer :=
  { lexer with cursor }

/-- Skips spaces, comments and line breaks. -/
def skipToToken : Nat → Lexer → Lexer
  | 0, lexer => lexer
  | bound + 1, lexer =>
    let cursor := lexer.cursor.skipWhile (· == ' ')
    let cursor := if cursor.sees '#' then cursor.skipWhile (!isBreak ·) else cursor
    match cursor.lineBreak? with
    | some (_, cursor) =>
      skipToToken bound { lexer with cursor, keyAllowed := lexer.keyAllowed || lexer.flow == 0 }
    | none => { lexer with cursor }

def isNameChar (c : Char) : Bool :=
  c.isAlphanum || c == '-' || c == '_'

/-- The name of an anchor or alias. -/
def readAnchorName (cursor : Cursor) : Except Error (Text × Cursor) :=
  let name := cursor.ahead isNameChar
  let cursor := cursor.skip name.length
  let ends := endsWord cursor.peek ||
    ((cursor.peek.map fun c => "?:,]\x7d%@`".toList.contains c).getD false)
  if name.isEmpty || !ends then fail "expected alphabetic or numeric character"
  else .ok (name, cursor)

/-- The handle of a tag, between exclamation marks. -/
def readTagHandle (cursor : Cursor) : Except Error (Text × Cursor) :=
  if cursor.sees '!' then
    let inner := cursor.next
    let name := if inner.sees ' ' then [] else inner.ahead isNameChar
    let after := inner.skip name.length
    if after.sees '!' then .ok ('!' :: name ++ ['!'], after.next)
    else if inner.sees ' ' then .ok (['!'], inner)
    else fail "expected '!'"
  else fail "expected '!'"

def isUriChar (c : Char) : Bool :=
  c.isAlphanum || "-;/?:@&=+$,_.!~*'()[]%".toList.contains c

/-- The bytes that percent signs with two hexadecimal digits stand for, and the text after them. -/
def readPercents : Text → Option (List UInt8 × Text)
  | '%' :: a :: b :: rest => do
    let high ← Json.hexDigit? a
    let low ← Json.hexDigit? b
    let (bytes, rest) ← readPercents rest
    return ((16 * high + low).toUInt8 :: bytes, rest)
  | '%' :: _ => none
  | rest => some ([], rest)

/-- The characters of an address, whose percent escapes give UTF-8. The bound falls with every part. -/
def decodeUri : Nat → Text → Option Text
  | 0, _ => some []
  | bound + 1, t => do
    let plain := t.takeWhile (· != '%')
    let (bytes, rest) ← readPercents (t.drop plain.length)
    let escaped ← String.fromUTF8? (ByteArray.mk bytes.toArray)
    if rest.isEmpty then return plain ++ escaped.toList
    else return plain ++ escaped.toList ++ (← decodeUri bound rest)

/-- The address part of a tag. -/
def readTagUri (cursor : Cursor) : Except Error (Text × Cursor) :=
  let uri := cursor.ahead isUriChar
  if uri.isEmpty then fail "expected URI"
  else
    match decodeUri (uri.length + 1) uri with
    | some text => .ok (text, cursor.skip uri.length)
    | none => fail "expected URI escape sequence of 2 hexadecimal numbers"

/-- A tag, from its exclamation mark on. -/
def readTag (cursor : Cursor) : Except Error (Token × Cursor) := do
  let (token, cursor) ←
    match cursor.peek 1 with
    | some '<' => do
      let (uri, cursor) ← readTagUri (cursor.skip 2)
      if cursor.sees '>' then pure (Token.tag none uri, cursor.next) else fail "expected '>'"
    | c =>
      if endsWord c then pure (Token.tag none ['!'], cursor.next)
      else do
        let word := cursor.next.rest.takeWhile fun c => !endsField (some c)
        if word.contains '!' then
          let (handle, cursor) ← readTagHandle cursor
          let (uri, cursor) ← readTagUri cursor
          pure (Token.tag (some handle) uri, cursor)
        else
          let (uri, cursor) ← readTagUri cursor.next
          pure (Token.tag (some ['!']) uri, cursor)
  if endsField cursor.peek then return (token, cursor) else fail "expected ' '"

/-- The digits of a version number. -/
def readVersionNumber (cursor : Cursor) : Except Error (Nat × Cursor) :=
  let digits := cursor.ahead Char.isDigit
  if digits.isEmpty then fail "expected a digit"
  else .ok (Json.natOf digits, cursor.skip digits.length)

/-- A directive, from its percent sign on, with the rest of its line. -/
def readDirective (cursor : Cursor) : Except Error (Directive × Cursor) := do
  let name := cursor.next.ahead isNameChar
  let cursor := cursor.next.skip name.length
  if name.isEmpty || !endsField cursor.peek then fail "expected alphabetic or numeric character"
  else
    let (directive, cursor) ←
      if name == "YAML".toList then do
        let (major, cursor) ← readVersionNumber (cursor.skipWhile (· == ' '))
        if cursor.sees '.' then
          let (_, cursor) ← readVersionNumber cursor.next
          if endsField cursor.peek then pure (Directive.version major, cursor)
          else fail "expected a digit or ' '"
        else fail "expected a digit or '.'"
      else if name == "TAG".toList then do
        let (handle, cursor) ← readTagHandle (cursor.skipWhile (· == ' '))
        if cursor.sees ' ' then
          let (uri, cursor) ← readTagUri (cursor.skipWhile (· == ' '))
          if endsField cursor.peek then pure (Directive.tag handle uri, cursor) else fail "expected ' '"
        else fail "expected ' '"
      else pure (Directive.other, cursor.skipWhile (!isBreak ·))
    let cursor ← skipRestOfLine cursor
    return (directive, cursor)

/-- Leaves all block collections before a line that concerns the whole document. -/
def leaveBlocks (lexer : Lexer) : Except Error Lexer := do
  let lexer ← (lexer.unwindTo (-1)).dropKey
  return { lexer with keyAllowed := false }

/-- An opening bracket. -/
def openFlow (lexer : Lexer) (token : Token) : Except Error Lexer := do
  let lexer ← lexer.saveKey
  return { lexer with flow := lexer.flow + 1, keyAllowed := true, cursor := lexer.cursor.next }.push token

/-- A closing bracket. Whether one was opened is for the structure of the tokens to tell. -/
def closeFlow (lexer : Lexer) (token : Token) : Except Error Lexer := do
  let lexer ← lexer.dropKey
  return { lexer with flow := lexer.flow - 1, keyAllowed := false, cursor := lexer.cursor.next }.push token

/-- Begins a block collection at this column if it is deeper than the one around it. -/
def openBlock (lexer : Lexer) (token : Token) (refusal : String) : Except Error Lexer :=
  if lexer.flow != 0 then .ok lexer
  else if !lexer.keyAllowed then fail refusal
  else
    match lexer.indentTo lexer.cursor.column with
    | some lexer => .ok (lexer.push token)
    | none => .ok lexer

/-- The dash of a sequence entry. -/
def entryToken (lexer : Lexer) : Except Error Lexer := do
  let lexer ← lexer.openBlock .blockSequence "sequence entries are not allowed here"
  let lexer ← { lexer with keyAllowed := true }.dropKey
  return (lexer.moveTo lexer.cursor.next).push .blockEntry

/-- The question mark of an explicit key. -/
def keyToken (lexer : Lexer) : Except Error Lexer := do
  let lexer ← lexer.openBlock .blockMapping "mapping keys are not allowed here"
  let lexer ← { lexer with keyAllowed := lexer.flow == 0 }.dropKey
  return (lexer.moveTo lexer.cursor.next).push .key

/-- The tokens with others put in at a place. -/
def insertAt (tokens : Array Token) (place : Nat) (added : List Token) : Array Token :=
  (tokens.toList.take place ++ added ++ tokens.toList.drop place).toArray

/-- The colon before a value. What was remembered as a possible key becomes one. -/
def valueToken (lexer : Lexer) : Except Error Lexer := do
  let lexer ←
    match lexer.keys.lookup lexer.flow with
    | some key =>
      let opened := if lexer.flow == 0 then lexer.indentTo key.column else none
      let added := if opened.isSome then [Token.blockMapping, .key] else [.key]
      let lexer := opened.getD lexer
      pure { lexer with
        keys := lexer.keys.filter (·.1 != lexer.flow)
        tokens := insertAt lexer.tokens key.tokens added
        keyAllowed := false }
    | none => do
      let lexer ← lexer.openBlock .blockMapping "mapping values are not allowed here"
      { lexer with keyAllowed := lexer.flow == 0 }.dropKey
  return (lexer.moveTo lexer.cursor.next).push .value

/-- A token that may be a key and is read by the given reader. -/
def contentToken (lexer : Lexer) (read : Cursor → Except Error (Token × Cursor)) :
    Except Error Lexer := do
  let lexer ← lexer.saveKey
  let (token, cursor) ← read lexer.cursor
  return { lexer with keyAllowed := false, cursor }.push token

def quotedToken (lexer : Lexer) (double : Bool) : Except Error Lexer :=
  lexer.contentToken fun cursor => do
    let (text, cursor) ← readQuoted double (cursor.rest.length + 1) [] cursor.next
    return (.scalar false text, cursor)

def blockScalarToken (lexer : Lexer) (folded : Bool) : Except Error Lexer := do
  let lexer ← { lexer with keyAllowed := true }.dropKey
  let (text, cursor) ← readBlock folded lexer.indent lexer.cursor
  return (lexer.moveTo cursor).push (.scalar false text)

def plainToken (lexer : Lexer) : Except Error Lexer := do
  let lexer ← lexer.saveKey
  let cursor := lexer.cursor
  let (text, ended, cursor) :=
    readPlain (lexer.flow != 0) (lexer.indent + 1) (cursor.rest.length + 1) [] [] false cursor
  return { lexer with keyAllowed := ended, cursor }.push (.scalar true text)

/-- Whether a plain scalar may begin here. -/
def atPlain (lexer : Lexer) (c : Char) : Bool :=
  let indicator := "-?:,[]\x7b\x7d#&*!|>'\"%@`".toList.contains c
  !(indicator || endsWord (some c)) ||
    (!endsWord (lexer.cursor.peek 1) && (c == '-' || (lexer.flow == 0 && (c == '?' || c == ':'))))

/-- Reads the token that begins with `c`, which is no blank. -/
def readToken (lexer : Lexer) (c : Char) : Except Error Lexer := do
  let cursor := lexer.cursor
  let inFlow := lexer.flow != 0
  let alone := endsWord (cursor.peek 1)
  if c == '%' && cursor.column == 0 then
    let lexer ← lexer.leaveBlocks
    let (directive, cursor) ← readDirective cursor
    return (lexer.moveTo cursor).push (.directive directive)
  else if c == '-' && cursor.column == 0 && cursor.atTriple '-' then
    return ((← lexer.leaveBlocks).moveTo (cursor.skip 3)).push .documentStart
  else if c == '.' && cursor.column == 0 && cursor.atTriple '.' then
    return ((← lexer.leaveBlocks).moveTo (cursor.skip 3)).push .documentEnd
  else if c == '[' then lexer.openFlow .flowSequence
  else if c == '\x7b' then lexer.openFlow .flowMapping
  else if c == ']' then lexer.closeFlow .flowSequenceEnd
  else if c == '\x7d' then lexer.closeFlow .flowMappingEnd
  else if c == ',' then
    let lexer ← { lexer with keyAllowed := true }.dropKey
    return (lexer.moveTo cursor.next).push .flowEntry
  else if c == '-' && alone then lexer.entryToken
  else if c == '?' && (inFlow || alone) then lexer.keyToken
  else if c == ':' && (inFlow || alone) then lexer.valueToken
  else if c == '*' then
    lexer.contentToken fun cursor => do
      let (name, cursor) ← readAnchorName cursor.next
      return (.reference name, cursor)
  else if c == '&' then
    lexer.contentToken fun cursor => do
      let (name, cursor) ← readAnchorName cursor.next
      return (.anchor name, cursor)
  else if c == '!' then lexer.contentToken readTag
  else if c == '|' && !inFlow then lexer.blockScalarToken false
  else if c == '>' && !inFlow then lexer.blockScalarToken true
  else if c == '\'' then lexer.quotedToken false
  else if c == '"' then lexer.quotedToken true
  else if lexer.atPlain c then lexer.plainToken
  else fail "found a character that cannot start any token"

/-- The number of tokens before the first that may still turn out to be a key. -/
def settled (lexer : Lexer) : Nat :=
  (lexer.keys.map fun (_, key) => key.tokens).foldl min lexer.tokens.size

/-- Reads the next token or, at the end of the text, the last. -/
def step (lexer : Lexer) : Except Error Lexer := do
  let lexer ← (skipToToken (lexer.cursor.rest.length + 1) lexer).dropStaleKeys
  let lexer := lexer.unwindTo lexer.cursor.column
  match lexer.cursor.peek with
  | none => return (← lexer.leaveBlocks).push .endOfText
  | some c => lexer.readToken c

/-- The tokens that are final, and a fault after them. -/
def stopAt (lexer : Lexer) (error : Error) : List Token :=
  lexer.tokens.toList.take lexer.ready ++ [.fault error]

/-- Reads tokens up to the end of the text or to a fault. Every token takes at least one character, so the length
of the text bounds the recursion. -/
def run : Nat → Lexer → List Token
  | 0, lexer => lexer.tokens.toList
  | bound + 1, lexer =>
    match lexer.dropStaleKeys with
    | .error error => lexer.stopAt error
    | .ok kept =>
      let lexer := { kept with ready := kept.settled }
      match lexer.step with
      | .error error => lexer.stopAt error
      | .ok next => if next.tokens.back? == some .endOfText then next.tokens.toList else run bound next

end Lexer

/-- A character that a YAML text may hold. -/
def isAllowed (c : Char) : Bool :=
  let n := c.toNat
  c == '\t' || c == '\n' || c == '\r' || decide (0x20 ≤ n ∧ n ≤ 0x7e) || n == 0x85 ||
    decide (0xa0 ≤ n ∧ n ≤ 0xfffd) || decide (0x10000 ≤ n)

/-- The tokens of a text. A byte order mark at its start is skipped. -/
def Token.scan (t : Text) : List Token :=
  if t.all isAllowed then
    let cursor : Cursor := { rest := t }
    Lexer.run (t.length + 2) { cursor := if cursor.sees '\ufeff' then cursor.next else cursor }
  else [.fault (.malformed .characters "special characters are not allowed")]

end ImportOrder.Yaml
