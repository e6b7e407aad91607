import ImportOrder.Source.Token

/-!
# Import declarations

A declaration begins with the word `import` outside all brackets and runs through its module specifier, an
attribute clause and a semicolon on the same line. Inside it reading is strict: a declaration that the
text cuts short is a fault, never other code.
-/

namespace ImportOrder.Source

/-- The keyword of a declaration. -/
def importWord : Text := "import".toList

/-- The words that open an attribute clause. -/
def attributeWords : List Text := ["assert", "with"].map String.toList

/-- Whether a declaration may begin here: the keyword, not after a point, with something other than a
call, a member access or the end of the text after it. -/
def atDeclaration (state : State) (t : Text) : Bool :=
  match splitName? t with
  | none => false
  | some (word, rest) =>
    word == importWord && state.depth == 0 && state.last != .mark '.' &&
      match Trivia.drop rest with
      | [] => false
      | c :: _ => c != '(' && c != '.'

/-- The text from the first quote outside comments and other tokens. There is none when an equals sign
or a semicolon comes first. `whole` is the declaration, named if the text ends before. -/
def findSpecifier [Stack] (whole : Text) (state : State) (t : Text) : Except Fault (Option Text) :=
  match _h : Trivia.skip t with
  | .unclosed comment => .error ⟨.comment, comment⟩
  | .reached [] => .error ⟨.declaration, whole⟩
  | .reached (c :: rest) =>
    if isQuote c then .ok (some (c :: rest))
    else if c = '=' ∨ c = ';' then .ok none
    else
      match _h' : readToken true state c rest with
      | .error fault => .error fault
      | .ok (after, rest') => findSpecifier whole after rest'
termination_by t.length
decreasing_by
  have := Trivia.reached_length ‹_›
  have := readToken_length ‹_›
  simp only [List.length_cons] at *
  omega

theorem findSpecifier_length [Stack] {whole t found : Text} {state : State}
    (h : findSpecifier whole state t = .ok (some found)) : found.length ≤ t.length := by
  fun_induction findSpecifier whole state t with
  | case1 | case2 | case4 | case5 => simp at h
  | case3 state t c rest hskip =>
    simp only [Except.ok.injEq, Option.some.injEq] at h
    subst h
    exact Trivia.reached_length hskip
  | case6 state t c rest hskip _ _ after rest' hread ih =>
    have := Trivia.reached_length hskip
    have := readToken_length hread
    have := ih h
    simp only [List.length_cons] at *
    omega

/-- The text after the attribute clause that may follow the specifier. The clause ends at the first closing
brace. -/
def skipAttributes (t : Text) : Except Fault Text :=
  match splitName? (Trivia.drop t) with
  | none => .ok t
  | some (word, rest) =>
    if attributeWords.contains word then
      match Trivia.drop rest with
      | [] => .ok t
      | c :: body =>
        if c = '\x7b' then
          match body.dropWhile (· != '\x7d') with
          | [] => .error ⟨.attributes, c :: body⟩
          | _ :: after => .ok after
        else .ok t
    else .ok t

/-- The text after a semicolon that only spaces and tabs precede, or else the text itself. -/
def skipSemicolon (t : Text) : Text :=
  match t.dropWhile isInlineBlank with
  | [] => t
  | c :: rest => if c = ';' then rest else t

theorem skipAttributes_length {t rest : Text} (h : skipAttributes t = .ok rest) :
    rest.length ≤ t.length := by
  unfold skipAttributes at h
  split at h
  · simp_all
  · rename_i word after hname
    have h₁ := Trivia.drop_length t
    have h₂ := splitName?_length hname
    have h₃ := Trivia.drop_length after
    split at h
    · split at h
      · simp_all
      · rename_i c body hdrop
        rw [hdrop, List.length_cons] at h₃
        split at h
        · have h₄ : (body.dropWhile (· != '\x7d')).length ≤ body.length :=
            (List.dropWhile_sublist _).length_le
          split at h
          · simp at h
          · rename_i hclose
            rw [hclose, List.length_cons] at h₄
            simp only [Except.ok.injEq] at h
            subst h
            omega
        · simp_all
    · simp_all

theorem skipSemicolon_length (t : Text) : (skipSemicolon t).length ≤ t.length := by
  have hle : (t.dropWhile isInlineBlank).length ≤ t.length := (List.dropWhile_sublist _).length_le
  unfold skipSemicolon
  split
  · exact Nat.le_refl _
  · rename_i heq
    rw [heq, List.length_cons] at hle
    split <;> omega

/-- Reads the declaration at the front of `t`: its module path and the text after it, or `none` when
the keyword opens something else. -/
def readDeclaration [Stack] (t : Text) : Except Fault (Option (Text × Text)) :=
  match findSpecifier t ⟨0, .word importWord⟩ (t.drop importWord.length) with
  | .error fault => .error fault
  | .ok none => .ok none
  | .ok (some []) => .ok none
  | .ok (some (quote :: content)) =>
    match readString quote content with
    | .cut _ => .error ⟨.string, quote :: content⟩
    | .closed rest =>
      match skipAttributes rest with
      | .error fault => .error fault
      | .ok after =>
        .ok (some (unescape (Text.before content (quote :: rest)), skipSemicolon after))

/-- A declaration takes at least one character. -/
theorem readDeclaration_length [Stack] {t path rest : Text}
    (h : readDeclaration t = .ok (some (path, rest))) : rest.length < t.length := by
  unfold readDeclaration at h
  split at h
  · simp at h
  · simp at h
  · simp at h
  · rename_i quote content hfind
    have h₁ := findSpecifier_length hfind
    have h₂ := readString_length quote content
    split at h
    · simp at h
    · rename_i closed hread
      rw [hread] at h₂
      split at h
      · simp at h
      · rename_i after hattr
        have h₃ := skipAttributes_length hattr
        have h₄ := skipSemicolon_length after
        simp only [Except.ok.injEq, Option.some.injEq, Prod.mk.injEq] at h
        obtain ⟨-, rfl⟩ := h
        simp only [StringEnd.rest, List.length_cons, List.length_drop] at *
        omega

end ImportOrder.Source
