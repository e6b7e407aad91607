import ImportOrder.Source.Word

/-!
# Quoted strings and regular expressions

Both are read from just after their opening character. A backslash takes the next character with it.
-/

namespace ImportOrder.Source

/-- How reading a quoted string ends. -/
inductive StringEnd where
  /-- At its closing quote, which has been read. -/
  | closed (rest : Text)
  /-- At a line feed, which has not been read, or at the end of the text. -/
  | cut (rest : Text)
deriving DecidableEq

/-- The text after the string, closed or not. -/
def StringEnd.rest : StringEnd → Text
  | closed rest => rest
  | cut rest => rest

/-- Reads a string up to the given quote. -/
def readString (quote : Char) : Text → StringEnd
  | [] => .cut []
  | ['\\'] => .cut []
  | '\\' :: _ :: rest => readString quote rest
  | c :: rest =>
    if c = quote then .closed rest
    else if c = '\n' then .cut (c :: rest)
    else readString quote rest

theorem readString_length (quote : Char) (t : Text) :
    (readString quote t).rest.length ≤ t.length := by
  fun_induction readString quote t with
  | case1 => simp [StringEnd.rest]
  | case2 => simp [StringEnd.rest]
  | case3 c r ih => simp only [List.length_cons]; omega
  | case4 r _ _ => simp [StringEnd.rest]
  | case5 r _ _ => simp [StringEnd.rest]
  | case6 c r _ _ _ _ ih => simp only [List.length_cons]; omega

/-- The characters a string's content stands for: a backslash gives the character after it. -/
def unescape : Text → Text
  | [] => []
  | ['\\'] => ['\\']
  | '\\' :: c :: rest => c :: unescape rest
  | c :: rest => c :: unescape rest

/-- The text after a regular expression and its flags, or `none` when the line or the text ends first.
Inside a character class a slash does not close it. -/
def readRegex (inClass : Bool) : Text → Option Text
  | [] => none
  | ['\\'] => none
  | '\\' :: _ :: rest => readRegex inClass rest
  | c :: rest =>
    if c = '\n' then none
    else if c = '[' then readRegex true rest
    else if c = ']' then readRegex false rest
    else if c = '/' ∧ inClass = false then
      match splitName? rest with
      | some (_, after) => some after
      | none => some rest
    else readRegex inClass rest

theorem readRegex_length {inClass : Bool} {t rest : Text} (h : readRegex inClass t = some rest) :
    rest.length < t.length := by
  fun_induction readRegex inClass t with
  | case1 | case2 | case4 => simp at h
  | case3 inClass c r ih =>
    have := ih h
    simp only [List.length_cons]
    omega
  | case5 inClass r _ _ _ ih | case6 inClass r _ _ _ _ ih | case9 inClass c r _ _ _ _ _ _ ih =>
    have := ih h
    simp only [List.length_cons]
    omega
  | case7 inClass c r _ _ _ _ _ _ word after hsplit =>
    have := splitName?_length hsplit
    obtain rfl : after = rest := by simpa using h
    simp only [List.length_cons]
    omega
  | case8 =>
    simp only [Option.some.injEq] at h
    simp [h]

end ImportOrder.Source
