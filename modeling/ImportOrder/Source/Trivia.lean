import ImportOrder.Text.Basic

/-!
# Trivia: what may stand between two tokens

Blanks, line comments and block comments. Skipping them either reaches a first other character (or the
end of the text), or finds a block comment that is never closed.
-/

namespace ImportOrder.Trivia

/-- The text after the first end of a block comment. -/
def afterClose : Text → Option Text
  | [] => none
  | '*' :: '/' :: rest => some rest
  | _ :: rest => afterClose rest

/-- The text from the first line feed on. -/
def fromLineFeed (t : Text) : Text :=
  t.dropWhile (· != '\n')

theorem afterClose_length {t rest : Text} (h : afterClose t = some rest) :
    rest.length < t.length := by
  fun_induction afterClose t with
  | case1 => simp at h
  | case2 r =>
    obtain rfl : r = rest := by simpa using h
    simp only [List.length_cons]
    omega
  | case3 c r _ ih =>
    have := ih h
    simp only [List.length_cons]
    omega

theorem fromLineFeed_length (t : Text) : (fromLineFeed t).length ≤ t.length :=
  (List.dropWhile_sublist _).length_le

/-- Where skipping trivia ends. -/
inductive Stop where
  /-- The first character that is no trivia, with all after it; empty at the end of the text. -/
  | reached (rest : Text)
  /-- A block comment, from its first character, that the text does not close. -/
  | unclosed (comment : Text)
deriving DecidableEq

/-- The text left over; an unclosed comment takes all of it. -/
def Stop.rest : Stop → Text
  | reached rest => rest
  | unclosed _ => []

/-- Skips blanks and comments. -/
def skip (t : Text) : Stop :=
  match t with
  | [] => .reached []
  | '/' :: '/' :: rest => skip (fromLineFeed rest)
  | '/' :: '*' :: rest =>
    match _h : afterClose rest with
    | some after => skip after
    | none => .unclosed ('/' :: '*' :: rest)
  | c :: rest => if isBlank c then skip rest else .reached (c :: rest)
termination_by t.length
decreasing_by
  · have := fromLineFeed_length rest
    simp only [List.length_cons]
    omega
  · have := afterClose_length ‹_›
    simp only [List.length_cons]
    omega
  · simp

/-- What follows the trivia at the front, an unclosed comment counting as trivia. -/
def drop (t : Text) : Text :=
  (skip t).rest

/-- Skipping never adds characters. -/
theorem drop_length (t : Text) : (drop t).length ≤ t.length := by
  unfold drop
  fun_induction skip t with
  | case1 => simp [Stop.rest]
  | case2 r ih =>
    have := fromLineFeed_length r
    simp only [List.length_cons]
    omega
  | case3 r after h ih =>
    have := afterClose_length ‹_›
    simp only [List.length_cons]
    omega
  | case4 => simp [Stop.rest]
  | case5 c r _ _ hc ih =>
    simp only [List.length_cons]
    omega
  | case6 => simp [Stop.rest]

theorem reached_length {t rest : Text} (h : skip t = .reached rest) : rest.length ≤ t.length := by
  have := drop_length t
  simpa [drop, h, Stop.rest] using this

end ImportOrder.Trivia
