import ImportOrder.Plan
import ImportOrder.Proofs.Trivia

/-!
# Gaps between statements

A gap is cut into the comment that closes its first line, some blanks behind that comment, and what follows
from the end of the line on. When the comment is whole, the rest of a closed gap is closed trivia by itself.
-/

namespace ImportOrder

/-! ## Stripping -/

namespace Text

theorem dropEndWhile_split (p : Char → Bool) (t : Text) :
    ∃ b, (∀ c ∈ b, p c = true) ∧ t = t.dropEndWhile p ++ b := by
  refine ⟨(t.reverse.takeWhile p).reverse, ?_, ?_⟩
  · intro c hc
    exact List.all_eq_true.mp List.all_takeWhile c (List.mem_reverse.mp hc)
  · rw [dropEndWhile, ← List.reverse_append, List.takeWhile_append_dropWhile, List.reverse_reverse]

theorem stripEnd_split (t : Text) : ∃ b, (∀ c ∈ b, isBlank c = true) ∧ t = t.stripEnd ++ b :=
  dropEndWhile_split isBlank t

/-- Only blanks are stripped. -/
theorem strip_split (t : Text) :
    ∃ a b, (∀ c ∈ a, isBlank c = true) ∧ (∀ c ∈ b, isBlank c = true) ∧ t = a ++ t.strip ++ b := by
  obtain ⟨b, hb, hsplit⟩ := stripEnd_split (t.dropWhile isBlank)
  refine ⟨t.takeWhile isBlank, b, ?_, hb, ?_⟩
  · intro c hc
    exact List.all_eq_true.mp List.all_takeWhile c hc
  · rw [strip, List.append_assoc, ← hsplit, List.takeWhile_append_dropWhile]

theorem strip_of_blanks {t : Text} (h : ∀ c ∈ t, isBlank c = true) : t.strip = [] := by
  rw [← List.append_nil t, strip, List.dropWhile_append_of_pos h]
  rfl

theorem strip_head? (t : Text) : ∀ c ∈ t.strip.head?, isBlank c = false := by
  intro c hc
  obtain ⟨b, -, hsplit⟩ := stripEnd_split (t.dropWhile isBlank)
  have hhead : (t.dropWhile isBlank).head? = some c := by
    obtain ⟨rest, hrest⟩ := List.head?_eq_some_iff.mp hc
    rw [hsplit, show stripEnd (t.dropWhile isBlank) = c :: rest from hrest]
    rfl
  have hnot := List.head?_dropWhile_not isBlank t
  rw [hhead] at hnot
  simpa using hnot

/-- Dropping characters from the end never reaches past one that stays. -/
theorem dropEndWhile_append_cons {p : Char → Bool} {c : Char} (hc : p c = false) (a t : Text) :
    ∃ t', dropEndWhile p (a ++ c :: t) = a ++ c :: t' := by
  unfold dropEndWhile
  rw [List.reverse_append, List.reverse_cons, List.append_assoc, List.dropWhile_append]
  split
  · refine ⟨[], ?_⟩
    rw [List.singleton_append, List.dropWhile_cons_of_neg (by simp [hc])]
    simp
  · exact ⟨(t.reverse.dropWhile p).reverse, by simp⟩

/-- The text without its blanks. -/
def nonblank (t : Text) : Text :=
  t.filter (!isBlank ·)

theorem nonblank_append (s t : Text) : nonblank (s ++ t) = nonblank s ++ nonblank t :=
  List.filter_append _ _

theorem nonblank_of_blanks {t : Text} (h : ∀ c ∈ t, isBlank c = true) : nonblank t = [] :=
  List.filter_eq_nil_iff.mpr fun c hc => by simp [h c hc]

theorem nonblank_strip (t : Text) : nonblank t.strip = nonblank t := by
  obtain ⟨a, b, ha, hb, hsplit⟩ := strip_split t
  have hall : nonblank t = nonblank (a ++ t.strip ++ b) := congrArg nonblank hsplit
  rw [hall, nonblank_append, nonblank_append, nonblank_of_blanks ha, nonblank_of_blanks hb,
    List.nil_append, List.append_nil]

theorem not_hasInfix_of_not_mem {t rest : Text} {c : Char} (h : c ∉ t) :
    hasInfix (c :: rest) t = false := by
  induction t with
  | nil => rfl
  | cons d t ih =>
    rw [List.mem_cons, not_or] at h
    have hne : (c == d) = false := beq_false_of_ne h.1
    rw [hasInfix, ih h.2, Bool.or_false, List.isPrefixOf, hne, Bool.false_and]

end Text

namespace Plan

/-! ## Line ends -/

theorem isBlank_of_isLineBreak {c : Char} (h : isLineBreak c = true) : isBlank c = true := by
  simp only [isLineBreak, Bool.or_eq_true, beq_iff_eq] at h
  rcases h with rfl | rfl <;> decide

theorem isBlank_of_isInlineBlank {c : Char} (h : isInlineBlank c = true) : isBlank c = true := by
  simp only [isInlineBlank, Bool.or_eq_true, beq_iff_eq] at h
  rcases h with rfl | rfl <;> decide

theorem isLineBreak_of_isInlineBlank {c : Char} (h : isInlineBlank c = true) : isLineBreak c = false := by
  simp only [isInlineBlank, Bool.or_eq_true, beq_iff_eq] at h
  rcases h with rfl | rfl <;> decide

/-- A line feed, or a carriage return and a line feed. -/
def IsNewline (t : Text) : Prop :=
  t = ['\r', '\n'] ∨ t = ['\n']

theorem isNewline_newlineOf (source : Text) : IsNewline (newlineOf source) := by
  unfold newlineOf
  split
  · exact .inl rfl
  · exact .inr rfl

theorem newlineOf_of_not_mem {source : Text} (h : '\r' ∉ source) : newlineOf source = ['\n'] := by
  rw [newlineOf, Text.not_hasInfix_of_not_mem h]
  rfl

theorem atLineEnd_cases {t : Text} (h : atLineEnd t = true) :
    t = [] ∨ (∃ rest, t = '\n' :: rest) ∨ ∃ rest, t = '\r' :: '\n' :: rest := by
  unfold atLineEnd at h
  split at h <;> simp_all

/-- Spaces and tabs at the front, and what follows. -/
theorem inlineBlanks_split (t : Text) :
    ∃ b, t = b ++ t.dropWhile isInlineBlank ∧ ∀ c ∈ b, isInlineBlank c = true :=
  ⟨t.takeWhile isInlineBlank, List.takeWhile_append_dropWhile.symm, fun c hc =>
    List.all_eq_true.mp List.all_takeWhile c hc⟩

/-- Behind the comment end that closes a line stand only spaces and tabs, and before it no line ends. -/
theorem blockCommentLineEnd?_split {t after : Text} (h : blockCommentLineEnd? t = some after) :
    ∃ front inline, t = front ++ '*' :: '/' :: (inline ++ after) ∧ (∀ c ∈ front, isLineBreak c = false) ∧
      (∀ c ∈ inline, isInlineBlank c = true) ∧ atLineEnd after = true := by
  fun_induction blockCommentLineEnd? t with
  | case1 => simp at h
  | case2 rest end' hend =>
    obtain rfl : end' = after := by simpa using h
    obtain ⟨inline, hsplit, hinline⟩ := inlineBlanks_split rest
    exact ⟨[], inline, congrArg (fun u => '*' :: '/' :: u) hsplit, by simp, hinline, hend⟩
  | case3 rest end' hend ih =>
    obtain ⟨front, inline, rfl, hfront, hinline, hend'⟩ := ih h
    refine ⟨'*' :: '/' :: front, inline, rfl, ?_, hinline, hend'⟩
    simpa [isLineBreak] using hfront
  | case4 => simp at h
  | case5 c rest _ hbreak ih =>
    obtain ⟨front, inline, rfl, hfront, hinline, hend⟩ := ih h
    refine ⟨c :: front, inline, rfl, ?_, hinline, hend⟩
    simpa [hbreak] using hfront

theorem commentLineEnd?_split {gap after : Text} (h : commentLineEnd? gap = some after) :
    ∃ b body, gap = b ++ '/' :: (body ++ after) ∧ (∀ c ∈ b, isInlineBlank c = true) ∧
      (∀ c ∈ body, isLineBreak c = false) ∧ atLineEnd after = true := by
  obtain ⟨b, hsplit, hb⟩ := inlineBlanks_split gap
  unfold commentLineEnd? at h
  split at h
  · rename_i rest hline
    dsimp only at h
    split at h
    · rename_i hend
      obtain rfl := Option.some.inj h
      refine ⟨b, '/' :: rest.takeWhile (fun c => !isLineBreak c), ?_, hb, ?_, hend⟩
      · rw [List.cons_append, List.takeWhile_append_dropWhile, ← hline, ← hsplit]
      · intro c hc
        rcases List.mem_cons.mp hc with rfl | hc
        · decide
        · have hall := List.all_eq_true.mp List.all_takeWhile c hc
          simpa using hall
    · simp at h
  · rename_i rest hblock
    obtain ⟨front, inline, rfl, hfront, hinline, hend⟩ := blockCommentLineEnd?_split h
    rw [hblock] at hsplit
    refine ⟨b, '*' :: (front ++ '*' :: '/' :: inline), ?_, hb, ?_, hend⟩
    · rw [hsplit]
      simp
    · have hinline' : ∀ c ∈ inline, isLineBreak c = false := fun c hc => isLineBreak_of_isInlineBlank (hinline c hc)
      simp only [List.forall_mem_cons, List.forall_mem_append]
      exact ⟨by decide, hfront, by decide, by decide, hinline'⟩
  · simp at h

/-! ## The parts of a gap -/

/-- A gap in its parts: a comment on the first line, or nothing, the blanks behind it, and the rest. -/
structure GapParts (gap trailing blanks rest : Text) : Prop where
  eq_append : gap = trailing ++ (blanks ++ rest)
  blank : ∀ c ∈ blanks, isBlank c = true
  oneLine : ∀ c ∈ trailing ++ blanks, isLineBreak c = false
  comment : (trailing = [] ∧ blanks = []) ∨ (atLineEnd rest = true ∧
    ∃ b body, trailing = b ++ '/' :: body ∧ ∀ c ∈ b, isInlineBlank c = true)

theorem splitGap_parts (gap : Text) : ∃ blanks, GapParts gap (splitGap gap).1 blanks (splitGap gap).2 := by
  unfold splitGap
  split
  · rename_i after hcomment
    obtain ⟨b, body, rfl, hb, hbody, hend⟩ := commentLineEnd?_split hcomment
    have hfront : Text.before (b ++ '/' :: (body ++ after)) after = b ++ '/' :: body := by
      rw [← List.cons_append, ← List.append_assoc, Text.before_append]
    -- stripping the end stops at the latest at the slash that opens the comment
    obtain ⟨blanks, hblanks, hsplit⟩ := Text.stripEnd_split (b ++ '/' :: body)
    obtain ⟨kept, hkept⟩ := Text.dropEndWhile_append_cons (p := isBlank) (c := '/') (by decide) b body
    refine ⟨blanks, ?_, hblanks, ?_, .inr ⟨hend, b, kept, ?_, hb⟩⟩
    · rw [hfront, ← List.append_assoc, ← hsplit, List.append_assoc, List.cons_append]
    · rw [hfront, ← hsplit]
      intro c hc
      rcases List.mem_append.mp hc with hc | hc
      · exact isLineBreak_of_isInlineBlank (hb c hc)
      · rcases List.mem_cons.mp hc with rfl | hc
        · decide
        · exact hbody c hc
    · rw [hfront]
      exact hkept
  · exact ⟨[], rfl, by simp, by simp, .inl ⟨rfl, rfl⟩⟩

/-- A gap in which no comment follows on the line. -/
theorem splitGap_of_no_comment {gap : Text}
    (h : ∀ b rest, gap = b ++ '/' :: rest → ¬∀ c ∈ b, isInlineBlank c = true) : splitGap gap = ([], gap) := by
  unfold splitGap
  split
  · rename_i after hcomment
    obtain ⟨b, body, hgap, hb, -⟩ := commentLineEnd?_split hcomment
    exact absurd hb (h b _ hgap)
  · rfl

theorem not_mem_lineFeed {t : Text} (h : ∀ c ∈ t, isLineBreak c = false) : '\n' ∉ t := by
  intro hmem
  exact absurd (h _ hmem) (by decide)

/-- Behind a comment that is whole, the rest of a closed gap is closed. -/
theorem GapParts.rest_closed {gap trailing blanks rest : Text} (h : GapParts gap trailing blanks rest)
    (hgap : Trivia.Closed gap) (hwhole : Trivia.Closed (trailing ++ ['\n'])) : Trivia.Closed rest := by
  have hblanks := Trivia.closed_of_blanks h.blank
  rw [h.eq_append] at hgap
  rcases h.comment with ⟨rfl, rfl⟩ | ⟨hend, -⟩
  · exact hgap
  · rcases hwhole.cases_line_feed with hclosed | ⟨g, body, rfl, hg, hbody⟩
    · exact hblanks.of_append_left (hclosed.of_append_left hgap)
    · -- a line comment takes the blanks behind it, up to the line feed
      have hfree : '\n' ∉ body ++ blanks := by
        intro hmem
        rcases List.mem_append.mp hmem with hmem | hmem
        · exact hbody hmem
        · exact not_mem_lineFeed h.oneLine (by simp [hmem])
      rw [List.append_assoc] at hgap
      have hline := hg.of_append_left hgap
      rcases atLineEnd_cases hend with rfl | ⟨rest, rfl⟩ | ⟨rest, rfl⟩
      · exact .nil
      · have hrest := Trivia.Closed.of_line hfree (by simpa using hline)
        exact .blank (by decide) hrest
      · have hfree' : '\n' ∉ body ++ blanks ++ ['\r'] := by simpa using hfree
        have hrest := Trivia.Closed.of_line hfree' (by simpa using hline)
        exact .blank (by decide) (.blank (by decide) hrest)

/-- Comments that stand on lines of their own: a line feed closes them, and they begin with a comment. -/
structure Comments (t : Text) : Prop where
  closed : Trivia.Closed (t ++ ['\n'])
  head : ∀ c ∈ t.head?, c = '/'

/-- What is left of closed trivia after stripping are comments. -/
theorem comments_strip {t : Text} (h : Trivia.Closed t) : Comments t.strip := by
  have hclosed : Trivia.Closed (t.strip ++ ['\n']) := by
    obtain ⟨a, b, ha, hb, hsplit⟩ := Text.strip_split t
    rw [hsplit, List.append_assoc] at h
    exact ((Trivia.closed_of_blanks ha).of_append_left h).line_feed hb
  refine ⟨hclosed, fun c hc => ?_⟩
  -- closed trivia begins with a blank or a comment, and the blanks are gone
  have hblank := Text.strip_head? t c hc
  obtain ⟨rest, hrest⟩ := List.head?_eq_some_iff.mp hc
  rw [hrest, List.cons_append] at hclosed
  rcases hclosed.head_cases with hc' | hc'
  · simp [hblank] at hc'
  · exact hc'

/-- A comment at the end of a line: nothing, or spaces and tabs and then a comment, without a line break. -/
structure LineComment (t : Text) : Prop where
  oneLine : ∀ c ∈ t, isLineBreak c = false
  head : t = [] ∨ ∃ b body, t = b ++ '/' :: body ∧ ∀ c ∈ b, isInlineBlank c = true

theorem GapParts.lineComment {gap trailing blanks rest : Text} (h : GapParts gap trailing blanks rest) :
    LineComment trailing := by
  refine ⟨fun c hc => h.oneLine c (by simp [hc]), ?_⟩
  rcases h.comment with ⟨hnil, -⟩ | ⟨-, hcomment⟩
  · exact .inl hnil
  · exact .inr hcomment

end Plan

end ImportOrder
