import ImportOrder.Text.Order

/-!
# Import groups

Every module path belongs to one of four groups, told by its first characters. Groups have a canonical
order, and within a group paths are ordered by a key.
-/

namespace ImportOrder

/-- Where an import comes from, in canonical order. -/
inductive Group where
  | package
  | aliased
  | parentDirectory
  | currentDirectory
deriving DecidableEq, Repr

namespace Group

/-- All groups in canonical order. -/
def canonical : List Group :=
  [package, aliased, parentDirectory, currentDirectory]

/-- The place of the group in the canonical order. -/
def precedence : Group → Nat
  | package => 0
  | aliased => 1
  | parentDirectory => 2
  | currentDirectory => 3

/-- Whether paths of the group are relative to the importing file. -/
def isRelative : Group → Bool
  | parentDirectory | currentDirectory => true
  | package | aliased => false

/-- The name of the group in output. -/
def name : Group → String
  | package => "module"
  | aliased => "alias"
  | parentDirectory => "parentDirectory"
  | currentDirectory => "currentDirectory"

end Group

/-- What influences grouping and sorting: the beginnings that mark an aliased path, and whether whole
paths are compared everywhere. -/
structure Configuration where
  aliases : List Text := []
  byFullPath : Bool := false
deriving DecidableEq

namespace Configuration

/-- The group of a module path. A relative beginning wins over an alias, and an alias over a package. -/
def classify (config : Configuration) (path : Text) : Group :=
  if ['.', '/'].isPrefixOf path then .currentDirectory
  else if ['.', '.', '/'].isPrefixOf path then .parentDirectory
  else if config.aliases.any (·.isPrefixOf path) then .aliased
  else .package

/-- The part of a path before its first slash. -/
def root (path : Text) : Text :=
  path.takeWhile (· != '/')

/-- The part of a path after its last slash. -/
def member (path : Text) : Text :=
  (path.reverse.takeWhile (· != '/')).reverse

/-- What a path is ordered by within its group. -/
def sortKey (config : Configuration) (group : Group) (path : Text) : List Text :=
  if config.byFullPath || group.isRelative then [path] else [root path, member path, path]

/-- Whether one path may stand before another of its group: their keys compare part by part. -/
def isSorted (config : Configuration) (group : Group) (current following : Text) : Bool :=
  lexLe Text.le (config.sortKey group current) (config.sortKey group following)

end Configuration

end ImportOrder
