import ImportOrder.Group
import ImportOrder.Source.Statement

/-!
# Violations

Neighbouring imports are compared two by two. On consecutive lines they must share a group and be sorted;
with a blank line between them they must belong to different groups in canonical order. Other code ends
the comparison.
-/

namespace ImportOrder

/-- How two neighbouring imports can break the rules. -/
inductive Rule where
  | outOfOrder
  | notSeparated
  | notGrouped
  | notSorted
deriving DecidableEq, Repr

namespace Rule

/-- The name of the rule in structured output. -/
def name : Rule → String
  | outOfOrder => "out_of_order"
  | notSeparated => "not_separated"
  | notGrouped => "not_grouped"
  | notSorted => "not_sorted"

/-- The rule with a name. -/
def ofName? (name : String) : Option Rule :=
  [outOfOrder, notSeparated, notGrouped, notSorted].find? (·.name == name)

/-- What is said of a breach of the rule. -/
def message : Rule → String
  | outOfOrder =>
    "Imports must be in the following order: node_modules, aliases, parentDirectory, currentDirectory"
  | notSeparated => "Imports of different groups must be separated by newlines"
  | notGrouped => "Imports of the same type must be grouped together"
  | notSorted => "Must be sorted alphabetically"

end Rule

/-- A breach of a rule, placed at the second import of the pair, with the edit that mends the file. -/
structure Violation where
  start : Int
  stop : Int
  rule : Rule
  line : Int
  path : Text
  fix : Option Edit
deriving DecidableEq

namespace Violation

/-- The rule that two neighbouring imports break, if any: `gap` is the number of lines from the end of the
first to the start of the second. -/
def rule? (config : Configuration) (gap : Int) (current following : Text) : Option Rule :=
  let before := config.classify current
  let after := config.classify following
  if gap = 1 then
    if after ≠ before then some .notSeparated
    else if config.isSorted before current following then none
    else some .notSorted
  else if 1 < gap then
    if after = before then some .notGrouped
    else if after.precedence < before.precedence then some .outOfOrder
    else none
  else none

/-- The violation between two neighbouring statements, if any. -/
def between? (config : Configuration) (fix : Option Edit) (current following : Statement) :
    Option Violation :=
  match current.path, following.path with
  | some path, some path' =>
    (rule? config (following.line - current.endLine) path path').map fun rule =>
      { start := following.start, stop := following.stop, rule, line := following.line,
        path := path', fix }
  | _, _ => none

/-- All violations between neighbouring statements, in their order. -/
def analyze (config : Configuration) (fix : Option Edit) : List Statement → List Violation
  | [] => []
  | [_] => []
  | current :: following :: rest =>
    (between? config fix current following).toList ++ analyze config fix (following :: rest)

end Violation

end ImportOrder
