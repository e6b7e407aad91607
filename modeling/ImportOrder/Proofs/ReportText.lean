import ImportOrder.Proofs.Files
import ImportOrder.Proofs.Layout
import ImportOrder.Proofs.Positions

/-!
# The lines of a report

The report as text, spelled out line by line with its escape codes: a block for each violation, a hint for each file
that can be fixed, and the counts at the end. The last line of a block and a hint are told from all other lines by how
they begin and end, so as long as no name of a file breaks a line, the blocks and the hints can be counted in the text.
-/

namespace ImportOrder

namespace Text

theorem splitOn_joinWith {sep : Char} {parts : List Text} (hne : parts ≠ []) :
    splitOn sep (joinWith [sep] parts) = parts.flatMap (splitOn sep) := by
  induction parts with
  | nil => exact absurd rfl hne
  | cons part rest ih =>
    cases rest with
    | nil => simp [joinWith]
    | cons next rest =>
      rw [joinWith, List.append_assoc, List.singleton_append, splitOn_append, ih (by simp)]
      rfl

/-- Texts that are joined behind others may as well be joined with them. -/
theorem joinWith_append_singleton {sep : Text} {front rest : List Text} (hne : rest ≠ []) :
    joinWith sep (front ++ [joinWith sep rest]) = joinWith sep (front ++ rest) := by
  obtain ⟨t, ts, rfl⟩ := List.exists_cons_of_ne_nil hne
  rw [Plan.joinWith_append_cons, Plan.joinWith_append_cons]
  rfl

theorem splitOn_joinWith_lines {sep : Char} {lines : List Text} (hne : lines ≠ []) (h : ∀ line ∈ lines, sep ∉ line) :
    splitOn sep (joinWith [sep] lines) = lines := by
  rw [splitOn_joinWith hne]
  calc lines.flatMap (splitOn sep) = lines.flatMap (fun line => [line]) :=
        List.flatMap_congr fun line hline => splitOn_of_not_mem (h line hline)
    _ = lines := List.flatMap_singleton' lines

/-- A number ends with a digit. -/
theorem exists_decimal (n : Int) : ∃ front digit, decimal n = front ++ [digit] ∧ digit.isDigit = true := by
  have hdigits : ∀ m, ∃ front digit, Nat.toDigits 10 m = front ++ [digit] ∧ digit.isDigit = true := by
    intro m
    have hne : Nat.toDigits 10 m ≠ [] := by simp
    refine ⟨_, _, (List.dropLast_append_getLast hne).symm, ?_⟩
    exact Nat.isDigit_of_mem_toDigits (by decide) (by decide) (List.getLast_mem hne)
  obtain ⟨front, digit, hfront, hdigit⟩ := hdigits n.natAbs
  unfold decimal
  rw [hfront]
  split
  · exact ⟨'-' :: front, digit, rfl, hdigit⟩
  · exact ⟨front, digit, rfl, hdigit⟩

theorem lineFeed_not_mem_decimal (n : Int) : '\n' ∉ decimal n := by
  have hdigits : ∀ m, '\n' ∉ Nat.toDigits 10 m := fun m hmem =>
    absurd (Nat.isDigit_of_mem_toDigits (by decide) (by decide) hmem) (by decide)
  unfold decimal
  split
  · simp [hdigits]
  · exact hdigits _

end Text

namespace Report

/-! ## What is printed -/

/-- A text between an escape code and the code that ends it, where there is colour. -/
def shaded (color : Bool) (code : String) (t : Text) : Text :=
  if color then code.toList ++ t ++ "\x1b[0m".toList else t

/-- What is said about violations. -/
def sayings : List String := [
  "Imports must be in the following order: node_modules, aliases, parentDirectory, currentDirectory",
  "Imports of different groups must be separated by newlines",
  "Imports of the same type must be grouped together",
  "Must be sorted alphabetically"]

/-- The first line of a block: the place of the violation. -/
def placeLine (color : Bool) (filename : String) (line column : Int) : Text :=
  "  ".toList ++ shaded color "\x1b[36m" (filename.toList ++ ':' :: Text.decimal line ++ ':' :: Text.decimal column)

/-- The last line of a block. -/
def messageLine (color : Bool) (saying : String) : Text :=
  "  ".toList ++ shaded color "\x1b[31m" saying.toList

/-- How a hint begins, up to the name of the file. -/
def hintOpening (color : Bool) : Text :=
  "  ".toList ++ (if color then "\x1b[32m".toList else []) ++ "Fix: run `import-groups fix ".toList

/-- How a hint ends, from the name of the file on. -/
def hintClosing (color : Bool) : Text :=
  "` to regroup and sort all imports".toList ++ if color then "\x1b[0m".toList else []

def bar (color : Bool) : Text :=
  shaded color "\x1b[90m" (List.replicate 60 '─')

def filesLine (color : Bool) (files : Nat) : Text :=
  "  ".toList ++ shaded color "\x1b[1m" "Files:".toList ++ ' ' :: shaded color "\x1b[34m" (Text.decimal files)

def countsLine (color : Bool) (violations fixable : Nat) : Text :=
  "  ".toList ++ shaded color "\x1b[1m" "Violations:".toList ++
    ' ' :: shaded color "\x1b[31m" (Text.decimal violations) ++
    ' ' :: shaded color "\x1b[2m" ('(' :: Text.decimal fixable ++ " fixable)".toList)

def verdictLine (color clean : Bool) : Text :=
  "  ".toList ++
    if clean then shaded color "\x1b[32m" "All imports are grouped and sorted".toList
    else shaded color "\x1b[31m" "Imports need regrouping".toList

/-- The lines at the end of a report. -/
def summaryLines (color : Bool) (files violations fixable : Nat) : List Text :=
  [[], bar color, filesLine color files, countsLine color violations fixable,
    verdictLine color (decide (violations = 0)), bar color]

/-- A part of the report, above its summary. -/
inductive Block where
  | violation (filename : String) (d : Diagnostic)
  | hint (filename : String)

namespace Block

def isViolation : Block → Bool
  | violation .. => true
  | hint _ => false

def isHint : Block → Bool
  | violation .. => false
  | hint _ => true

/-- Nothing in the block breaks a line. -/
def OneLine : Block → Prop
  | violation filename d => '\n' ∉ filename.toList ∧ '\n' ∉ d.sourceLine
  | hint filename => '\n' ∉ filename.toList

/-- How the block is printed. Under the place of a violation its line is shown, if there is one, and marked. -/
def Spells (color : Bool) : Block → Text → Prop
  | violation filename d, part => ∃ shown, ∃ saying ∈ sayings,
      (d.sourceLine = [] ∧ shown = [] ∨
        ∃ marks, '\n' ∉ marks ∧ shown = ["    ".toList ++ d.sourceLine, "    ".toList ++ marks]) ∧
      part = Text.joinWith ['\n'] (placeLine color filename d.line d.column :: (shown ++ [messageLine color saying]))
  | hint filename, part => part = hintOpening color ++ filename.toList ++ hintClosing color

end Block

/-! ## What the code prints -/

/-- The escape codes that a report uses. -/
def inks : List (String × String) := [
  ("reset", "\x1b[0m"), ("file_path", "\x1b[36m"), ("error", "\x1b[31m"), ("caret", "\x1b[35m"), ("fix", "\x1b[32m"),
  ("summary_bar", "\x1b[90m"), ("bold", "\x1b[1m"), ("info", "\x1b[34m"), ("dim", "\x1b[2m"),
  ("allowed", "\x1b[32m"), ("blocked", "\x1b[31m")]

section

variable {color : Bool}

theorem ink_of_mem : ∀ ink ∈ inks, Report.ink true ink.1 = ink.2.toList := by
  decide +kernel

theorem inked_eq {role code : String} (h : (role, code) ∈ inks) (t : Text) :
    inked color role t = shaded color code t := by
  have hreset : ink true "reset" = "\x1b[0m".toList := ink_of_mem ("reset", "\x1b[0m") (by decide)
  cases color with
  | true => rw [inked, ink_of_mem _ h, hreset, shaded, if_pos rfl]
  | false => rw [inked_false, shaded, if_neg Bool.false_ne_true]

theorem message_mem_sayings (rule : Rule) : rule.message ∈ sayings := by
  cases rule <;> decide

/-- A violation is printed as its block. -/
theorem spells_violation (filename : String) (d : Diagnostic) :
    (Block.violation filename d).Spells color
      (violation color filename d.line d.column d.rule.message d.sourceLine (d.stop - d.start)) := by
  have hplace : ∀ t, inked color "file_path" t = shaded color "\x1b[36m" t := inked_eq (by decide)
  have hmessage : ∀ t, inked color "error" t = shaded color "\x1b[31m" t := inked_eq (by decide)
  have hcaret : ∀ t, inked color "caret" t = shaded color "\x1b[35m" t := inked_eq (by decide)
  unfold violation violationLines caretLine
  dsimp only
  rw [hplace, hmessage, hcaret, toList_location]
  by_cases hline : d.sourceLine = []
  · refine ⟨[], d.rule.message, message_mem_sayings d.rule, .inl ⟨hline, rfl⟩, ?_⟩
    rw [if_pos (List.isEmpty_iff.mpr hline)]
    rfl
  · generalize hmarks : List.replicate (d.column - 1).toNat ' ' ++
      List.replicate (underlineWidth d.sourceLine d.column (d.stop - d.start)) Wording.caretMark = marks
    have hfeed : '\n' ∉ shaded color "\x1b[35m" marks := by
      rw [← hmarks]
      cases color <;> simp [shaded, Wording.caretMark]
    refine ⟨_, d.rule.message, message_mem_sayings d.rule, .inr ⟨shaded color "\x1b[35m" marks, hfeed, rfl⟩, ?_⟩
    rw [if_neg (mt List.isEmpty_iff.mp hline)]
    rfl

theorem spells_hint (filename : String) : (Block.hint filename).Spells color (fixHint color filename) := by
  have hfix : ∀ t, inked color "fix" t = shaded color "\x1b[32m" t := inked_eq (by decide)
  have hopening : "Fix: run `import-groups fix ".toList = "Fix: ".toList ++ "run `import-groups fix ".toList := by
    decide +kernel
  unfold Block.Spells hintOpening hintClosing
  rw [fixHint, hfix, hopening]
  unfold Wording.fixPrefix Wording.fixAvailable shaded
  simp only [String.toList_append]
  cases color with
  | true => simp only [if_true, List.append_assoc]
  | false => simp only [Bool.false_eq_true, if_false, List.append_assoc, List.append_nil]

theorem summary_eq (files violations fixable : Nat) :
    summary color files violations fixable = Text.joinWith ['\n'] (summaryLines color files violations fixable) := by
  have hbar : ∀ t, inked color "summary_bar" t = shaded color "\x1b[90m" t := inked_eq (by decide)
  have hbold : ∀ t, inked color "bold" t = shaded color "\x1b[1m" t := inked_eq (by decide)
  have hinfo : ∀ t, inked color "info" t = shaded color "\x1b[34m" t := inked_eq (by decide)
  have herror : ∀ t, inked color "error" t = shaded color "\x1b[31m" t := inked_eq (by decide)
  have hdim : ∀ t, inked color "dim" t = shaded color "\x1b[2m" t := inked_eq (by decide)
  have hallowed : ∀ t, inked color "allowed" t = shaded color "\x1b[32m" t := inked_eq (by decide)
  have hblocked : ∀ t, inked color "blocked" t = shaded color "\x1b[31m" t := inked_eq (by decide)
  have hdecimal : ∀ n : Int, ofInt n = Text.decimal n := Text.toList_toString
  have hcounts : ∀ t : Text, '(' :: t ++ ' ' :: Wording.fixable.toList ++ [')'] = '(' :: t ++ " fixable)".toList := by
    intro t
    rw [List.append_assoc]
    rfl
  unfold summary summaryLines bar filesLine countsLine verdictLine
  dsimp only
  rw [hbar, hbold, hbold, hinfo, herror, hdim, hallowed, hblocked, hdecimal, hdecimal, hdecimal, hcounts]
  by_cases hclean : violations = 0
  · rw [hclean]
    rfl
  · rw [if_neg (by omega), if_neg (by simpa using hclean)]
    rfl

end

/-! ## Lines that are told from others -/

/-- The last line of a block. -/
def isMessageLine (color : Bool) (line : Text) : Bool :=
  sayings.any fun saying => line == messageLine color saying

/-- A hint, whatever the name of the file. -/
def isHintLine (color : Bool) (line : Text) : Bool :=
  (hintOpening color).isPrefixOf line && (hintClosing color).isSuffixOf line

section

variable {color : Bool} {line : Text}

theorem isMessageLine_iff : isMessageLine color line = true ↔ ∃ saying ∈ sayings, line = messageLine color saying := by
  simp [isMessageLine]

theorem isHintLine_iff :
    isHintLine color line = true ↔ hintOpening color <+: line ∧ hintClosing color <:+ line := by
  rw [isHintLine, Bool.and_eq_true, List.isPrefixOf_iff_prefix, List.isSuffixOf_iff_suffix]

/-- How the last line of a block begins. -/
def messageStarts (color : Bool) : List Text :=
  if color then ["  \x1b[31".toList] else ["  Impo".toList, "  Must".toList]

/-- How a hint begins. -/
def hintStart (color : Bool) : Text :=
  if color then "  \x1b[32".toList else "  Fix:".toList

theorem take_of_isMessageLine (h : isMessageLine color line = true) : line.take 6 ∈ messageStarts color := by
  have hstarts : ∀ color, ∀ saying ∈ sayings, (messageLine color saying).take 6 ∈ messageStarts color := by
    decide +kernel
  obtain ⟨saying, hsaying, rfl⟩ := isMessageLine_iff.mp h
  exact hstarts color saying hsaying

theorem take_of_isHintLine (h : isHintLine color line = true) : line.take 6 = hintStart color := by
  have hstart : ∀ color, 6 ≤ (hintOpening color).length ∧ (hintOpening color).take 6 = hintStart color := by
    decide +kernel
  obtain ⟨⟨rest, rfl⟩, -⟩ := isHintLine_iff.mp h
  rw [List.take_append_of_le_length (hstart color).1]
  exact (hstart color).2

/-- A line is not of both kinds. -/
theorem isHintLine_eq_false (h : isMessageLine color line = true) : isHintLine color line = false := by
  have hstart : ∀ color, hintStart color ∉ messageStarts color := by decide +kernel
  rw [Bool.eq_false_iff]
  intro hhint
  exact hstart color (take_of_isHintLine hhint ▸ take_of_isMessageLine h)

theorem isMessageLine_eq_false (h : isHintLine color line = true) : isMessageLine color line = false := by
  rw [Bool.eq_false_iff]
  intro hmessage
  exact Bool.false_ne_true ((isHintLine_eq_false hmessage).symm.trans h)

/-- Neither the last line of a block nor a hint. -/
def IsOther (color : Bool) (line : Text) : Prop :=
  isMessageLine color line = false ∧ isHintLine color line = false

instance (color : Bool) (line : Text) : Decidable (IsOther color line) :=
  inferInstanceAs (Decidable (_ ∧ _))

/-- A line is another one if it begins like neither of the two. -/
theorem isOther_of_take {n : Nat} {front : Text} (hn : n ≤ 6) (hfront : line.take n = front)
    (hmessage : ∀ start ∈ messageStarts color, start.take n ≠ front) (hhint : (hintStart color).take n ≠ front) :
    IsOther color line := by
  have htake : (line.take 6).take n = front := by rw [List.take_take, Nat.min_eq_left hn, hfront]
  constructor
  · rw [Bool.eq_false_iff]
    intro hline
    exact hmessage _ (take_of_isMessageLine hline) htake
  · rw [Bool.eq_false_iff]
    intro hline
    exact hhint (take_of_isHintLine hline ▸ htake)

/-- Without colour the place of a violation is told from other lines by the digit at its end. -/
theorem isOther_of_digit {front : Text} {digit : Char} (hdigit : digit.isDigit = true) :
    IsOther false (front ++ [digit]) := by
  constructor
  · rw [Bool.eq_false_iff, ne_eq, isMessageLine_iff]
    rintro ⟨saying, hsaying, hline⟩
    have hlast := congrArg List.getLast? hline
    have hnone : ∀ saying ∈ sayings, (messageLine false saying).getLast?.any Char.isDigit = false := by
      decide +kernel
    have hdigits := hnone saying hsaying
    rw [← hlast, List.getLast?_concat] at hdigits
    exact Bool.false_ne_true (hdigits.symm.trans hdigit)
  · rw [Bool.eq_false_iff, ne_eq, isHintLine_iff]
    rintro ⟨-, rest, hline⟩
    have hlast := congrArg List.getLast? hline
    have hclosing : (hintClosing false).getLast? = some 's' := by decide +kernel
    rw [List.getLast?_concat, List.getLast?_append, hclosing] at hlast
    obtain rfl : 's' = digit := Option.some.inj hlast
    exact absurd hdigit (by decide)

theorem isOther_placeLine (filename : String) (line column : Int) :
    IsOther color (placeLine color filename line column) := by
  cases color with
  | true =>
    have hfront : (placeLine true filename line column).take 6 = "  \x1b[36".toList := rfl
    exact isOther_of_take (by decide) hfront (by decide) (by decide)
  | false =>
    obtain ⟨front, digit, hfront, hdigit⟩ := Text.exists_decimal column
    have hplace : placeLine false filename line column =
        ("  ".toList ++ (filename.toList ++ ':' :: Text.decimal line ++ ':' :: front)) ++ [digit] := by
      rw [placeLine, shaded, if_neg Bool.false_ne_true, hfront]
      simp
    rw [hplace]
    exact isOther_of_digit hdigit

/-- What is shown of the source stands further to the right. -/
theorem isOther_shown (t : Text) : IsOther color ("    ".toList ++ t) := by
  have hfront : ("    ".toList ++ t).take 3 = "   ".toList := rfl
  cases color with
  | true => exact isOther_of_take (by decide) hfront (by decide) (by decide)
  | false => exact isOther_of_take (by decide) hfront (by decide) (by decide)

theorem isOther_filesLine (files : Nat) : IsOther color (filesLine color files) := by
  cases color with
  | true =>
    have hfront : (filesLine true files).take 6 = "  \x1b[1m".toList := rfl
    exact isOther_of_take (by decide) hfront (by decide) (by decide)
  | false =>
    have hfront : (filesLine false files).take 5 = "  Fil".toList := rfl
    exact isOther_of_take (by decide) hfront (by decide) (by decide)

theorem isOther_countsLine (violations fixable : Nat) : IsOther color (countsLine color violations fixable) := by
  cases color with
  | true =>
    have hfront : (countsLine true violations fixable).take 6 = "  \x1b[1m".toList := rfl
    exact isOther_of_take (by decide) hfront (by decide) (by decide)
  | false =>
    have hfront : (countsLine false violations fixable).take 5 = "  Vio".toList := rfl
    exact isOther_of_take (by decide) hfront (by decide) (by decide)

theorem isOther_summaryLines (files violations fixable : Nat) :
    ∀ line ∈ summaryLines color files violations fixable, IsOther color line := by
  have hfixed : ∀ color clean, IsOther color [] ∧ IsOther color (bar color) ∧
      IsOther color (verdictLine color clean) := by
    decide +kernel
  obtain ⟨hempty, hbar, hverdict⟩ := hfixed color (decide (violations = 0))
  simp only [summaryLines, List.forall_mem_cons]
  exact ⟨hempty, hbar, isOther_filesLine files, isOther_countsLine violations fixable, hverdict, hbar, by simp⟩

theorem isMessageLine_messageLine {saying : String} (h : saying ∈ sayings) :
    isMessageLine color (messageLine color saying) = true :=
  isMessageLine_iff.mpr ⟨saying, h, rfl⟩

theorem isHintLine_hint (filename : String) :
    isHintLine color (hintOpening color ++ filename.toList ++ hintClosing color) = true := by
  rw [isHintLine_iff, List.append_assoc]
  exact ⟨List.prefix_append _ _, (List.suffix_append _ _).trans (List.suffix_append _ _)⟩

/-! ## Counting in the text -/

theorem countP_others {lines : List Text} (h : ∀ line ∈ lines, IsOther color line) :
    lines.countP (isMessageLine color) = 0 ∧ lines.countP (isHintLine color) = 0 := by
  rw [List.countP_eq_zero, List.countP_eq_zero]
  exact ⟨fun line hline => by simp [(h line hline).1], fun line hline => by simp [(h line hline).2]⟩

theorem not_mem_shaded {code : String} {t : Text} (hcode : '\n' ∉ code.toList) (ht : '\n' ∉ t) :
    '\n' ∉ shaded color code t := by
  have hreset : '\n' ∉ "\x1b[0m".toList := by decide
  unfold shaded
  split
  · simp only [List.mem_append, not_or]
    exact ⟨⟨hcode, ht⟩, hreset⟩
  · exact ht

theorem not_mem_placeLine {filename : String} (h : '\n' ∉ filename.toList) (line column : Int) :
    '\n' ∉ placeLine color filename line column := by
  rw [placeLine, List.mem_append, not_or]
  refine ⟨by decide, not_mem_shaded (by decide) ?_⟩
  simp [h, Text.lineFeed_not_mem_decimal]

/-- The lines of a block, of which the last one is told from others, and a hint, which is one line. -/
theorem countP_part {block : Block} {part : Text} (hspells : block.Spells color part) (hline : block.OneLine) :
    (part.splitOn '\n').countP (isMessageLine color) = (if block.isViolation then 1 else 0) ∧
      (part.splitOn '\n').countP (isHintLine color) = (if block.isHint then 1 else 0) := by
  cases block with
  | violation filename d =>
    obtain ⟨shown, saying, hsaying, hshown, rfl⟩ := hspells
    have hfeed : ∀ color, ∀ saying ∈ sayings, '\n' ∉ messageLine color saying := by decide +kernel
    have hlines : ∀ line ∈ shown, '\n' ∉ line ∧ IsOther color line := by
      intro line hmem
      rcases hshown with ⟨-, rfl⟩ | ⟨marks, hmarks, rfl⟩
      · simp at hmem
      · simp only [List.mem_cons, List.not_mem_nil, or_false] at hmem
        rcases hmem with rfl | rfl
        · exact ⟨by simpa using hline.2, isOther_shown _⟩
        · exact ⟨by simpa using hmarks, isOther_shown _⟩
    have hothers : ∀ line ∈ placeLine color filename d.line d.column :: shown, IsOther color line := by
      rw [List.forall_mem_cons]
      exact ⟨isOther_placeLine filename _ _, fun line hmem => (hlines line hmem).2⟩
    obtain ⟨hmessages, hhints⟩ := countP_others hothers
    have hmessage : isMessageLine color (messageLine color saying) = true := isMessageLine_messageLine hsaying
    have hhint := isHintLine_eq_false hmessage
    rw [Text.splitOn_joinWith_lines (by simp), ← List.cons_append, List.countP_append, List.countP_append, hmessages,
      hhints, List.countP_singleton, List.countP_singleton, hmessage, hhint]
    · exact ⟨rfl, rfl⟩
    · simp only [List.forall_mem_cons, List.forall_mem_append]
      exact ⟨not_mem_placeLine hline.1 _ _, fun line hmem => (hlines line hmem).1, hfeed color saying hsaying, by simp⟩
  | hint filename =>
    obtain rfl : part = _ := hspells
    have hfeed : ∀ color, '\n' ∉ hintOpening color ∧ '\n' ∉ hintClosing color := by decide +kernel
    have hname : '\n' ∉ filename.toList := hline
    have hpart : '\n' ∉ hintOpening color ++ filename.toList ++ hintClosing color := by
      simp [(hfeed color).1, (hfeed color).2, hname]
    have hhint : isHintLine color (hintOpening color ++ filename.toList ++ hintClosing color) = true :=
      isHintLine_hint filename
    have hmessage := isMessageLine_eq_false hhint
    rw [Text.splitOn_of_not_mem hpart, List.countP_singleton, List.countP_singleton, hhint, hmessage]
    exact ⟨rfl, rfl⟩

/-- The blocks and the hints of the parts of a report. -/
theorem countP_parts {blocks : List Block} {parts : List Text}
    (hspells : List.Forall₂ (Block.Spells color) blocks parts) (hlines : ∀ block ∈ blocks, block.OneLine) :
    (parts.flatMap (Text.splitOn '\n')).countP (isMessageLine color) = blocks.countP Block.isViolation ∧
      (parts.flatMap (Text.splitOn '\n')).countP (isHintLine color) = blocks.countP Block.isHint := by
  induction hspells with
  | nil => exact ⟨rfl, rfl⟩
  | cons hblock _ ih =>
    rw [List.forall_mem_cons] at hlines
    obtain ⟨hmessage, hhint⟩ := countP_part hblock hlines.1
    obtain ⟨hmessages, hhints⟩ := ih hlines.2
    rw [List.flatMap_cons, List.countP_append, List.countP_append, hmessage, hhint, hmessages, hhints, List.countP_cons,
      List.countP_cons]
    exact ⟨Nat.add_comm _ _, Nat.add_comm _ _⟩

theorem not_mem_summaryLines (files violations fixable : Nat) :
    ∀ line ∈ summaryLines color files violations fixable, '\n' ∉ line := by
  have hfixed : ∀ color clean, '\n' ∉ bar color ∧ '\n' ∉ verdictLine color clean := by decide +kernel
  have hfiles : '\n' ∉ filesLine color files := by
    simp only [filesLine, List.mem_append, List.mem_cons, not_or]
    exact ⟨⟨by decide, not_mem_shaded (by decide) (by decide)⟩, by decide,
      not_mem_shaded (by decide) (Text.lineFeed_not_mem_decimal _)⟩
  have hfixable : '\n' ∉ '(' :: Text.decimal fixable ++ " fixable)".toList := by
    simp [Text.lineFeed_not_mem_decimal]
  have hcounts : '\n' ∉ countsLine color violations fixable := by
    simp only [countsLine, List.mem_append, List.mem_cons, not_or]
    exact ⟨⟨⟨by decide, not_mem_shaded (by decide) (by decide)⟩, by decide,
      not_mem_shaded (by decide) (Text.lineFeed_not_mem_decimal _)⟩, by decide, not_mem_shaded (by decide) hfixable⟩
  obtain ⟨hbar, hverdict⟩ := hfixed color (decide (violations = 0))
  simp only [summaryLines, List.forall_mem_cons]
  exact ⟨by simp, hbar, hfiles, hcounts, hverdict, hbar, by simp⟩

end

/-! ## Reports on results -/

/-- A report in text: the blocks and the hints as they are spelled, then the summary. As long as nothing in them
breaks a line, there are as many lines in the text that end a block, and as many that give a hint, as the summary
counts. -/
structure Prints (color : Bool) (blocks : List Block) (files : Nat) (report : Text) : Prop where
  spelled : ∃ parts, List.Forall₂ (Block.Spells color) blocks parts ∧
    report = Text.joinWith ['\n'] (parts ++ summaryLines color files (blocks.countP Block.isViolation)
      (blocks.countP Block.isHint)) ++ ['\n']
  counted : (∀ block ∈ blocks, block.OneLine) →
    (report.splitOn '\n').countP (isMessageLine color) = blocks.countP Block.isViolation ∧
      (report.splitOn '\n').countP (isHintLine color) = blocks.countP Block.isHint

theorem Prints.of_spelled {color : Bool} {blocks : List Block} {parts : List Text} {files : Nat}
    (hspells : List.Forall₂ (Block.Spells color) blocks parts) :
    Prints color blocks files (Text.joinWith ['\n'] (parts ++ summaryLines color files
      (blocks.countP Block.isViolation) (blocks.countP Block.isHint)) ++ ['\n']) := by
  refine ⟨⟨parts, hspells, rfl⟩, fun hlines => ?_⟩
  generalize hsummary :
    summaryLines color files (blocks.countP Block.isViolation) (blocks.countP Block.isHint) = summary
  have hothers : ∀ line ∈ summary, IsOther color line := hsummary ▸ isOther_summaryLines files _ _
  have hfeeds : ∀ line ∈ summary, '\n' ∉ line := hsummary ▸ not_mem_summaryLines files _ _
  have hne : summary ≠ [] := by simp [← hsummary, summaryLines]
  have hempty : IsOther color [] := by cases color <;> decide +kernel
  obtain ⟨hmessages, hhints⟩ := countP_parts hspells hlines
  -- the summary and what follows the last line feed are lines of another kind
  have hbehind : ∀ line ∈ summary ++ [[]], IsOther color line :=
    List.forall_mem_append.mpr ⟨hothers, by simpa using hempty⟩
  obtain ⟨hnomessages, hnohints⟩ := countP_others hbehind
  rw [Text.splitOn_append, Text.splitOn_joinWith (by simp [hne]), List.flatMap_append,
    ← Text.splitOn_joinWith hne, Text.splitOn_joinWith_lines hne hfeeds, List.append_assoc]
  have hlast : Text.splitOn '\n' [] = [[]] := rfl
  rw [hlast]
  generalize summary ++ [[]] = behind at hnomessages hnohints ⊢
  rw [List.countP_append, List.countP_append, hmessages, hhints, hnomessages, hnohints]
  exact ⟨rfl, rfl⟩

/-- The blocks about a file. -/
def blocks (result : ScanResult) : List Block :=
  result.diagnostics.map (Block.violation result.filename) ++
    if result.fix.isSome && !result.fixed then [Block.hint result.filename] else []

theorem forall₂_fileParts (color : Bool) (result : ScanResult) :
    List.Forall₂ (Block.Spells color) (blocks result) (fileParts color result) := by
  apply List.rel_append
  · rw [List.forall₂_map_left_iff, List.forall₂_map_right_iff, List.forall₂_same]
    exact fun d _ => spells_violation result.filename d
  · split
    · exact .cons (spells_hint result.filename) .nil
    · exact .nil

theorem countP_isViolation (results : List ScanResult) :
    (results.flatMap blocks).countP Block.isViolation = violationCount results := by
  have hone : ∀ result, (blocks result).countP Block.isViolation = result.diagnostics.length := by
    intro result
    unfold blocks
    rw [List.countP_append, List.countP_map]
    have hall : result.diagnostics.countP (Block.isViolation ∘ Block.violation result.filename) =
        result.diagnostics.length := by
      rw [List.countP_eq_length]
      exact fun _ _ => rfl
    rw [hall]
    split
    · rfl
    · rfl
  rw [List.countP_flatMap, violationCount, List.length_flatMap]
  congr 1
  exact List.map_congr_left fun result _ => hone result

theorem countP_isHint (results : List ScanResult) :
    (results.flatMap blocks).countP Block.isHint = fixableCount results := by
  induction results with
  | nil => rfl
  | cons result results ih =>
    have hnone : result.diagnostics.countP (Block.isHint ∘ Block.violation result.filename) = 0 := by
      rw [List.countP_eq_zero]
      intro d _
      exact Bool.false_ne_true
    rw [List.flatMap_cons, List.countP_append, ih, blocks, List.countP_append, List.countP_map, hnone]
    unfold fixableCount
    rw [List.filter_cons]
    split
    · rw [List.length_cons, Nat.add_comm]
      rfl
    · simp

/-- The text of a report on results is what it should be. -/
theorem prints_text (color : Bool) (results : List ScanResult) :
    Prints color (results.flatMap blocks) results.length (text color results) := by
  have hspells : List.Forall₂ (Block.Spells color) (results.flatMap blocks) (results.flatMap (fileParts color)) := by
    have hsame : List.Forall₂ (· = ·) results results := List.forall₂_refl results
    refine List.rel_flatMap hsame ?_
    rintro result _ rfl
    exact forall₂_fileParts color result
  have htext : text color results = Text.joinWith ['\n'] (results.flatMap (fileParts color) ++
      summaryLines color results.length ((results.flatMap blocks).countP Block.isViolation)
        ((results.flatMap blocks).countP Block.isHint)) ++ ['\n'] := by
    rw [countP_isViolation, countP_isHint, text, summary_eq]
    exact congrArg (· ++ ['\n']) (Text.joinWith_append_singleton (by simp [summaryLines]))
  rw [htext]
  exact .of_spelled hspells

end Report

end ImportOrder
