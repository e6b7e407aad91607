import ImportOrder.Source.Declaration

/-!
# Pieces of a source

A source falls into pieces: import declarations and tokens of other code, with trivia between them. A
piece is kept as two tails of the source, from its first character on and after its last, so nothing in it
depends on what stands before it.
-/

namespace ImportOrder.Source

/-- A declaration, which has a module path, or a stretch of other code, which has none. -/
structure Piece where
  start : Text
  rest : Text
  path : Option Text
deriving DecidableEq

/-- The characters of a piece. -/
def Piece.text (piece : Piece) : Text :=
  Text.before piece.start piece.rest

/-- The declaration at the front of the text, if there is one: its module path and the text after it. -/
def declarationAt [Stack] (state : State) (t : Text) : Except Fault (Option (Text × Text)) :=
  if atDeclaration state t then readDeclaration t else .ok none

/-- Splits a text into declarations and single tokens. After a declaration reading goes on as after a
semicolon. -/
def pieces [Stack] (state : State) (t : Text) : Except Fault (List Piece) :=
  match _h : Trivia.drop t with
  | [] => .ok []
  | c :: rest =>
    match _h' : declarationAt state (c :: rest) with
    | .error fault => .error fault
    | .ok (some (path, after)) =>
      match pieces ⟨state.depth, .mark ';'⟩ after with
      | .error fault => .error fault
      | .ok others => .ok (⟨c :: rest, after, some path⟩ :: others)
    | .ok none =>
      match _h'' : readToken false state c rest with
      | .error fault => .error fault
      | .ok (next, after) =>
        match pieces next after with
        | .error fault => .error fault
        | .ok others => .ok (⟨c :: rest, after, none⟩ :: others)
termination_by t.length
decreasing_by
  · have h₁ := Trivia.drop_length t
    have h₂ : after.length < (c :: rest).length := by
      unfold declarationAt at _h'
      split at _h'
      · exact readDeclaration_length _h'
      · simp at _h'
    rw [_h] at h₁
    omega
  · have h₁ := Trivia.drop_length t
    have h₂ := readToken_length _h''
    rw [_h] at h₁
    omega

/-- Puts a piece before others; code before code becomes one piece. -/
def Piece.join (piece : Piece) : List Piece → List Piece
  | [] => [piece]
  | next :: others =>
    if piece.path.isNone && next.path.isNone then ⟨piece.start, next.rest, none⟩ :: others
    else piece :: next :: others

/-- The pieces with every run of other code made one. -/
def joinCode (pieces : List Piece) : List Piece :=
  pieces.foldr Piece.join []

/-- The text after the first line when that line begins with a number sign and an exclamation mark; the
line feed stays. -/
def dropInterpreterLine : Text → Text
  | '#' :: '!' :: rest => Trivia.fromLineFeed rest
  | t => t

end ImportOrder.Source
