import ImportOrder.Source.Literal
import ImportOrder.Source.Trivia

/-!
# Tokens

One token is read at a time. Two things are remembered between tokens: how many brackets are open, and
what the last token was, which decides whether a slash divides or opens a regular expression. A template
literal is one token, whatever stands in its holes; open templates are kept on a stack, which has room for so
many of them.
-/

namespace ImportOrder

/-- The stack that sources are read on: how many template literals can be open at once, each inside the one before
it. The caller and the runtime decide about that number; nothing more is known of it here. -/
class Stack where
  room : Nat

namespace Source

/-- A part of the source that reading can fail in: one that the text ends in the middle of, or a template that
stands inside more others than the stack has room for. -/
inductive Part where
  | comment
  | string
  | template
  | declaration
  | attributes
  | nesting
deriving DecidableEq, Repr

/-- A part that is not read to its end, with the text from its first character on. -/
structure Fault where
  part : Part
  tail : Text
deriving DecidableEq

/-- The last token, as far as the next one depends on it. -/
inductive Last where
  /-- No token yet. -/
  | nothing
  /-- A single punctuation character. -/
  | mark (c : Char)
  /-- An identifier, keyword or number. -/
  | word (word : Text)
  /-- A string, template or regular expression. -/
  | value
deriving DecidableEq

/-- What is remembered between tokens. -/
structure State where
  depth : Nat
  last : Last
deriving DecidableEq

/-- The state before the first token. -/
def State.initial : State := ⟨0, .nothing⟩

/-- The keywords after which an expression begins. -/
def expressionKeywords : List Text :=
  ["return", "typeof", "instanceof", "in", "of", "new", "delete", "void", "throw", "case", "do", "else",
    "yield", "await"].map String.toList

/-- Whether a slash after this token opens a regular expression. -/
def Last.allowsRegex : Last → Bool
  | nothing => true
  | mark c => c != ')' && c != ']'
  | word w => expressionKeywords.contains w
  | value => false

def isQuote (c : Char) : Bool :=
  c == '\'' || c == '"'

def isOpener (c : Char) : Bool :=
  c == '(' || c == '[' || c == '\x7b'

def isCloser (c : Char) : Bool :=
  c == ')' || c == ']' || c == '\x7d'

/-- The character that opens and closes a template literal. -/
def templateMark : Char := '\x60'

/-- The bracket depth after a punctuation character; closing never goes below zero. -/
def depthAfter (depth : Nat) (c : Char) : Nat :=
  if isOpener c then depth + 1 else if isCloser c then depth - 1 else depth

/-- The text after the regular expression that begins here, if one may and does. -/
def regexRest? (last : Last) (c : Char) (rest : Text) : Option Text :=
  if c = '/' ∧ last.allowsRegex then readRegex false rest else none

/-- Reads a token that is no template literal. Only in strict reading is a string that ends with its
line a fault. -/
def readPlain (strict : Bool) (state : State) (c : Char) (rest : Text) : Except Fault (State × Text) :=
  if isQuote c then
    match readString c rest with
    | .closed after => .ok (⟨state.depth, .value⟩, after)
    | .cut after =>
      if strict then .error ⟨.string, c :: rest⟩ else .ok (⟨state.depth, .value⟩, after)
  else
    match regexRest? state.last c rest with
    | some after => .ok (⟨state.depth, .value⟩, after)
    | none =>
      match splitWord? (c :: rest) with
      | some (word, after) => .ok (⟨state.depth, .word word⟩, after)
      | none => .ok (⟨depthAfter state.depth c, .mark c⟩, rest)

theorem readPlain_length {strict : Bool} {state after : State} {c : Char} {rest rest' : Text}
    (h : readPlain strict state c rest = .ok (after, rest')) : rest'.length < (c :: rest).length := by
  unfold readPlain at h
  split at h
  · have hlen := readString_length c rest
    split at h
    · rename_i hread
      simp only [Except.ok.injEq, Prod.mk.injEq] at h
      simp only [hread, StringEnd.rest, h.2] at hlen
      simp only [List.length_cons]
      omega
    · rename_i hread
      split at h
      · simp at h
      · simp only [Except.ok.injEq, Prod.mk.injEq] at h
        simp only [hread, StringEnd.rest, h.2] at hlen
        simp only [List.length_cons]
        omega
  · split at h
    · rename_i hregex
      have hr : readRegex false rest = some rest' := by
        unfold regexRest? at hregex
        split at hregex <;> simp_all
      have := readRegex_length hr
      simp only [List.length_cons]
      omega
    · split at h
      · rename_i hword
        simp only [Except.ok.injEq, Prod.mk.injEq] at h
        obtain ⟨-, rfl⟩ := h
        exact splitWord?_length hword
      · simp only [Except.ok.injEq, Prod.mk.injEq] at h
        obtain ⟨-, rfl⟩ := h
        simp

/-- An open template literal: the text from its first character on, and the bracket depth around it. -/
structure Frame where
  opening : Text
  depth : Nat
deriving DecidableEq

/-- Where in the innermost open template reading stands. -/
inductive Mode where
  /-- In its characters. -/
  | chars
  /-- In the code of a hole. -/
  | hole (state : State)
deriving DecidableEq

/-- The depth around the outermost open template. -/
def outerDepth (top : Frame) : List Frame → Nat
  | [] => top.depth
  | next :: outer => outerDepth next outer

/-- The end of the text inside a template: a fault of the innermost one in strict reading, else the end
of them all. -/
def cutTemplates (strict : Bool) (top : Frame) (outer : List Frame) : Except Fault (State × Text) :=
  if strict then .error ⟨.template, top.opening⟩ else .ok (⟨outerDepth top outer, .value⟩, [])

/-- Reads to the end of the outermost open template. -/
def readTemplates [Stack] (strict : Bool) (mode : Mode) (top : Frame) (outer : List Frame) (t : Text) :
    Except Fault (State × Text) :=
  match mode with
  | .chars =>
    match t with
    | [] => cutTemplates strict top outer
    | '\\' :: rest => readTemplates strict .chars top outer (rest.drop 1)
    | '$' :: '\x7b' :: rest => readTemplates strict (.hole ⟨0, .mark '\x7b'⟩) top outer rest
    | c :: rest =>
      if c = templateMark then
        match outer with
        | [] => .ok (⟨top.depth, .value⟩, rest)
        | next :: outer => readTemplates strict (.hole ⟨top.depth, .value⟩) next outer rest
      else readTemplates strict .chars top outer rest
  | .hole state =>
    match _h : Trivia.skip t with
    | .unclosed comment =>
      if strict then .error ⟨.comment, comment⟩ else cutTemplates strict top outer
    | .reached [] => cutTemplates strict top outer
    | .reached (c :: rest) =>
      if c = '\x7d' ∧ state.depth = 0 then readTemplates strict .chars top outer rest
      else if c = templateMark then
        -- with this one, two templates more are open than are kept in `outer`
        if outer.length + 2 ≤ Stack.room then
          readTemplates strict .chars ⟨c :: rest, state.depth⟩ (top :: outer) rest
        else .error ⟨.nesting, c :: rest⟩
      else
        match _h' : readPlain strict state c rest with
        | .error fault => .error fault
        | .ok (after, rest') => readTemplates strict (.hole after) top outer rest'
termination_by t.length
decreasing_by
  · simp only [List.length_drop, List.length_cons]
    omega
  · simp only [List.length_cons]
    omega
  · simp
  · simp
  · have := Trivia.reached_length ‹_›
    simp only [List.length_cons] at this
    omega
  · have := Trivia.reached_length ‹_›
    simp only [List.length_cons] at this
    omega
  · have := Trivia.reached_length ‹_›
    have := readPlain_length ‹_›
    simp only [List.length_cons] at *
    omega

theorem cutTemplates_length {strict : Bool} {top : Frame} {outer : List Frame} {state : State}
    {rest : Text} (h : cutTemplates strict top outer = .ok (state, rest)) : rest = [] := by
  unfold cutTemplates at h
  split at h <;> simp_all

theorem readTemplates_length [Stack] {strict : Bool} {mode : Mode} {top : Frame} {outer : List Frame}
    {t rest : Text} {state : State} (h : readTemplates strict mode top outer t = .ok (state, rest)) :
    rest.length ≤ t.length := by
  fun_induction readTemplates strict mode top outer t with
  | case1 => simp [cutTemplates_length h]
  | case2 _ _ r ih =>
    have := ih h
    simp only [List.length_drop, List.length_cons] at *
    omega
  | case3 _ _ r ih =>
    have := ih h
    simp only [List.length_cons]
    omega
  | case4 =>
    simp only [Except.ok.injEq, Prod.mk.injEq] at h
    simp [h.2]
  | case5 _ _ _ _ _ _ ih | case6 _ _ _ _ _ _ _ ih =>
    have := ih h
    simp only [List.length_cons]
    omega
  | case7 => simp at h
  | case8 | case9 => simp [cutTemplates_length h]
  | case10 _ _ _ _ _ _ _ _ ih | case11 _ _ _ _ _ _ _ _ ih =>
    have := Trivia.reached_length ‹_›
    have := ih h
    simp only [List.length_cons] at *
    omega
  | case12 | case13 => simp at h
  | case14 _ _ _ _ _ _ _ _ _ _ _ _ ih =>
    have := Trivia.reached_length ‹_›
    have := readPlain_length ‹_›
    have := ih h
    simp only [List.length_cons] at *
    omega

/-- Reads one token, which begins with `c`. -/
def readToken [Stack] (strict : Bool) (state : State) (c : Char) (rest : Text) :
    Except Fault (State × Text) :=
  if c = templateMark then
    if 1 ≤ Stack.room then readTemplates strict .chars ⟨c :: rest, state.depth⟩ [] rest
    else .error ⟨.nesting, c :: rest⟩
  else readPlain strict state c rest

/-- A token takes at least one character. -/
theorem readToken_length [Stack] {strict : Bool} {state after : State} {c : Char} {rest rest' : Text}
    (h : readToken strict state c rest = .ok (after, rest')) : rest'.length < (c :: rest).length := by
  unfold readToken at h
  split at h
  · split at h
    · have := readTemplates_length h
      simp only [List.length_cons]
      omega
    · simp at h
  · exact readPlain_length h

end Source

end ImportOrder
