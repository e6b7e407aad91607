import ImportOrder.Proofs.Layout
import ImportOrder.Proofs.Runs
import ImportOrder.Violation
import ImportOrder.Runtime

/-!
# Edits that do not disturb reading

An edit sets statements next to others than before, and reading may look past the end of a statement. Each field
of `ImportsUndisturbed` and `CodeUndisturbed` names one place where it does: a comment cut in two, a slash or an
unfinished string whose line goes on differently, an attribute clause behind a bare specifier, a regular expression
behind a value, and a comment that runs into the code below the last line.

`CodeUndisturbed` asks for more than is needed. What is needed is a matter of the text behind the last import only:
`rulesKeptBehindImports` for a clean second scan, `codeKeptBehindImports` for an unchanged program. All of these can
be decided.
-/

namespace ImportOrder

open Source

/-- The tokens of a statement that is no import, read as after a declaration. -/
def Statement.survey [Stack] (source : Text) (s : Statement) : Survey :=
  Source.survey (source.onward s.stop) ⟨0, .mark ';'⟩ (source.onward s.start)

/-- The looks of a statement: of an import those before its specifier, else those of all its tokens. -/
def Statement.looks [Stack] (source : Text) (s : Statement) : List Look :=
  if s.isImport then
    headerLooks ⟨0, .word importWord⟩ ((source.onward s.start).drop importWord.length)
  else (s.survey source).looks

namespace Plan

/-- The slots of a source in canonical form. -/
def slots (config : Configuration) (source : Text) (all : List Bundle) : List Slot :=
  importSlots config (newlineOf source) all ++ codeSlots (newlineOf source) all

/-- The source from its first import on. -/
def fromFirst (source : Text) (all : List Bundle) : Text :=
  (all.head?.map fun b => source.onward b.statement.start).getD []

/-- The source behind its last import. -/
def behindLast (source : Text) (all : List Bundle) : Text :=
  (all.getLast?.map fun b => source.onward b.statement.stop).getD []

/-- The edited source behind the canonical form. -/
def tailOf (config : Configuration) (source : Text) (all : List Bundle) (edit : Edit) : Text :=
  edit.replacement.drop (canonicalText config (newlineOf source) all).length ++ source.onward edit.stop

/-- The looks of every statement come out the same in its slot. -/
def LooksKept [Stack] (source tail : Text) : List Slot → Prop
  | [] => True
  | slot :: rest =>
    LooksHold (slot.bundle.statement.looks source) (source.onward slot.bundle.statement.stop)
      (slot.bundle.trailing ++ render tail rest) ∧ LooksKept source tail rest

/-- Each of these statements, and at last `rest`, may come behind the last token of the one before. -/
def SeamsKept [Stack] (source rest : Text) : Last → List Slot → Prop
  | last, [] => last.mayPrecede (Trivia.drop rest) = true
  | last, slot :: slots =>
    last.mayPrecede (source.onward slot.bundle.statement.start) = true ∧
      SeamsKept source rest (slot.bundle.statement.survey source).state.last slots

section

variable (config : Configuration) (source : Text) (all : List Bundle) (edit : Edit)

/-- The edited source behind the imports: the other statements, and what follows the canonical form. -/
def belowImports : Text :=
  render (tailOf config source all edit) (codeSlots (newlineOf source) all)

/-- The edited source right behind the last import, with the comment that closes its line. -/
def behindImports : Text :=
  ((importSlots config (newlineOf source) all).getLast?.map (·.bundle.trailing)).getD [] ++
    belowImports config source all edit

/-- What the last import leaves of the text behind it. -/
def leftBehindImports : Except Fault Text :=
  leftBehind (((importSlots config (newlineOf source) all).getLast?.map (·.bundle.statement.text)).getD [])
    (behindImports config source all edit)

/-- The edit does not disturb how the code above the imports and the imports themselves are read. -/
structure ImportsUndisturbed [Stack] : Prop where
  /-- The comments that close lines are whole; that of the last import need not be if it stays the last. -/
  whole : ∀ b ∈ all.dropLast ++ (importSlots config (newlineOf source) all).dropLast.map Slot.bundle,
    Trivia.Closed (b.trailing ++ ['\n'])
  /-- The code above the first import looks at nothing that changes. -/
  front : LooksHold (Source.survey (fromFirst source all) State.initial (dropInterpreterLine source)).looks
    (fromFirst source all)
    (render (belowImports config source all edit) (importSlots config (newlineOf source) all))
  /-- The imports look at nothing that differs in their new places. -/
  looks : LooksKept source (belowImports config source all edit) (importSlots config (newlineOf source) all)

/-- The edit does not disturb how the code that it moves, and the code behind it, is read. -/
structure CodeUndisturbed [Stack] : Prop where
  /-- What follows the last import is not taken for its attributes. -/
  left : leftBehindImports config source all edit = .ok (behindImports config source all edit)
  /-- The comments that close lines are whole, but for the last one. -/
  whole : ∀ slot ∈ (slots config source all).dropLast, Trivia.Closed (slot.bundle.trailing ++ ['\n'])
  /-- The statements look at nothing that differs in their new places. -/
  looks : LooksKept source (tailOf config source all edit) (codeSlots (newlineOf source) all)
  /-- No regular expression comes to stand where a slash divides. -/
  seams : SeamsKept source (behindLast source all) (.mark ';') (codeSlots (newlineOf source) all)
  /-- The comment on the last line leaves the code below it as it was. -/
  below : ∀ slot ∈ (slots config source all).getLast?,
    Trivia.drop (slot.bundle.trailing ++ tailOf config source all edit) =
      Trivia.drop (behindLast source all)

end

section

variable (config : Configuration) (source : Text) (all : List Bundle) (edit : Edit)

/-- The last import of the edited source, if it leaves `left`. -/
def lastImport (left : Text) : Option Piece :=
  (importSlots config (newlineOf source) all).getLast?.map fun slot =>
    ⟨slot.bundle.statement.text ++ behindImports config source all edit, left, slot.bundle.statement.path⟩

/-- What the last import leaves of the edited source can be read, and from the last import on no rule is broken. -/
def rulesKeptBehindImports [Stack] : Bool :=
  match leftBehindImports config source all edit with
  | .error _ => false
  | .ok left =>
    match pieces ⟨0, .mark ';'⟩ left with
    | .error _ => false
    | .ok found => (Violation.analyze config none (((lastImport config source all edit left).toList ++
        joinCode found).map (Document.statementIn (edit.apply source)))).isEmpty

/-- The last import takes nothing of what follows it, and what follows is read as the other statements of the span
and then the code behind the last import of the source. -/
def codeKeptBehindImports [Stack] : Bool :=
  leftBehindImports config source all edit == .ok (behindImports config source all edit) &&
    match pieces ⟨0, .mark ';'⟩ (behindImports config source all edit),
      pieces ⟨0, .mark ';'⟩ (behindLast source all) with
    | .ok found, .ok behind =>
      found.all (·.path.isNone) && found.map Piece.text ==
        ((codeSlots (newlineOf source) all).flatMap (fun slot => (slot.bundle.statement.survey source).tokens) ++
          behind).map Piece.text
    | _, _ => false

end

/-! ## Deciding the conditions -/

instance decidableLooksKept [Stack] (source tail : Text) : ∀ slots, Decidable (LooksKept source tail slots)
  | [] => .isTrue trivial
  | slot :: rest =>
    have := decidableLooksKept source tail rest
    inferInstanceAs (Decidable (LooksHold (slot.bundle.statement.looks source)
      (source.onward slot.bundle.statement.stop) (slot.bundle.trailing ++ render tail rest) ∧
        LooksKept source tail rest))

instance decidableSeamsKept [Stack] (source rest : Text) : ∀ last slots, Decidable (SeamsKept source rest last slots)
  | last, [] => inferInstanceAs (Decidable (last.mayPrecede (Trivia.drop rest) = true))
  | last, slot :: slots =>
    have := decidableSeamsKept source rest (slot.bundle.statement.survey source).state.last slots
    inferInstanceAs (Decidable (last.mayPrecede (source.onward slot.bundle.statement.start) = true ∧
      SeamsKept source rest (slot.bundle.statement.survey source).state.last slots))

section

variable {config : Configuration} {source : Text} {all : List Bundle} {edit : Edit}

instance [Stack] : Decidable (ImportsUndisturbed config source all edit) :=
  decidable_of_iff
    ((∀ b ∈ all.dropLast ++ (importSlots config (newlineOf source) all).dropLast.map Slot.bundle,
        Trivia.Closed (b.trailing ++ ['\n'])) ∧
      LooksHold (Source.survey (fromFirst source all) State.initial (dropInterpreterLine source)).looks
        (fromFirst source all)
        (render (belowImports config source all edit) (importSlots config (newlineOf source) all)) ∧
      LooksKept source (belowImports config source all edit) (importSlots config (newlineOf source) all))
    ⟨fun ⟨whole, front, looks⟩ => ⟨whole, front, looks⟩, fun h => ⟨h.whole, h.front, h.looks⟩⟩

instance [Stack] : Decidable (CodeUndisturbed config source all edit) :=
  decidable_of_iff
    (leftBehindImports config source all edit = .ok (behindImports config source all edit) ∧
      (∀ slot ∈ (slots config source all).dropLast, Trivia.Closed (slot.bundle.trailing ++ ['\n'])) ∧
      LooksKept source (tailOf config source all edit) (codeSlots (newlineOf source) all) ∧
      SeamsKept source (behindLast source all) (.mark ';') (codeSlots (newlineOf source) all) ∧
      ∀ slot ∈ (slots config source all).getLast?,
        Trivia.drop (slot.bundle.trailing ++ tailOf config source all edit) =
          Trivia.drop (behindLast source all))
    ⟨fun ⟨left, whole, looks, seams, below⟩ => ⟨left, whole, looks, seams, below⟩,
      fun h => ⟨h.left, h.whole, h.looks, h.seams, h.below⟩⟩

end

/-! ## A source that may be edited -/

/-- Imports of two groups with a regular expression between them, and code on the last line. -/
def knitSource : Text :=
  "import './b' // b\nimport 'a'\n/x/g\nimport 'c'; f()\n".toList

def knitSpan : List Bundle :=
  [⟨⟨0, 12, 0, 0, "import './b'".toList, some "./b".toList⟩, [], " // b".toList⟩,
    ⟨⟨18, 28, 1, 1, "import 'a'".toList, some "a".toList⟩, [], []⟩,
    ⟨⟨29, 33, 2, 2, "/x/g".toList, none⟩, [], []⟩,
    ⟨⟨34, 45, 3, 3, "import 'c';".toList, some "c".toList⟩, [], []⟩]

def knitEdit : Edit :=
  ⟨0, 46, "import 'a'\nimport 'c';\n\nimport './b' // b\n\n/x/g\n".toList⟩

theorem members_knitSpan : members {} knitSpan =
    fun g => knitSpan.filter fun b => b.statement.path.map (Configuration.classify {}) == some g := by
  funext g
  apply members_of_sorted
  cases g <;> decide

theorem importSlots_knitSpan : importSlots {} (newlineOf knitSource) knitSpan =
    (knitSpan.take 2).tail.map (⟨[], ·⟩) ++ (knitSpan.drop 3).map (⟨['\n'], ·⟩) ++
      (knitSpan.take 1).map (⟨['\n', '\n'], ·⟩) := by
  rw [importSlots, members_knitSpan]
  decide +kernel

theorem canonicalText_knitSpan :
    canonicalText {} (newlineOf knitSource) knitSpan = knitEdit.replacement.dropLast := by
  rw [canonicalText, blocks, members_knitSpan]
  decide +kernel

theorem plan_knitSource {statements : List Statement} (h : span knitSource statements = knitSpan) :
    plan {} knitSource statements = some knitEdit := by
  have hplan : plan {} knitSource statements =
      some ⟨0, 46, canonicalText {} (newlineOf knitSource) knitSpan ++ ['\n']⟩ := by
    rw [plan, h]
    rfl
  rw [hplan, canonicalText_knitSpan]
  decide +kernel

section

open ImportOrder.Runtime

theorem importsUndisturbed_knitSource : ImportsUndisturbed {} knitSource knitSpan knitEdit := by
  refine ⟨?_, ?_, ?_⟩
  · rw [importSlots_knitSpan]
    decide +kernel
  · rw [belowImports, tailOf, importSlots_knitSpan, canonicalText_knitSpan]
    decide +kernel
  · rw [belowImports, tailOf, importSlots_knitSpan, canonicalText_knitSpan]
    decide +kernel

theorem codeUndisturbed_knitSource : CodeUndisturbed {} knitSource knitSpan knitEdit := by
  refine ⟨?_, ?_, ?_, ?_, ?_⟩
  · rw [leftBehindImports, behindImports, belowImports, tailOf, importSlots_knitSpan, canonicalText_knitSpan]
    decide +kernel
  · rw [slots, importSlots_knitSpan]
    decide +kernel
  · rw [tailOf, canonicalText_knitSpan]
    decide +kernel
  · decide +kernel
  · rw [slots, tailOf, importSlots_knitSpan, canonicalText_knitSpan]
    decide +kernel

end

end Plan

end ImportOrder
