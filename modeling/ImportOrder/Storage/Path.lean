import ImportOrder.Text.Basic

/-!
# Paths

A path keeps its parts without empty ones and single points; two points stay, since only the file system
knows what they lead to.
-/

namespace ImportOrder

/-- A path: what it starts from, which is empty for a relative one, and its parts. -/
structure Path where
  anchor : String
  parts : List String
deriving DecidableEq

namespace Path

/-- The names between slashes, empty ones included. -/
def names (s : String) : List String :=
  (Text.splitOn '/' s.toList).map String.ofList

/-- What a path starts from: nothing, one slash, or exactly two slashes. -/
def anchorOf (s : String) : String :=
  match s.toList with
  | '/' :: '/' :: '/' :: _ => "/"
  | '/' :: '/' :: _ => "//"
  | '/' :: _ => "/"
  | _ => ""

/-- The path that a string names. -/
def ofString (s : String) : Path :=
  ⟨anchorOf s, (names s).filter fun name => name != "" && name != "."⟩

/-- The normal spelling of a path. -/
def render (path : Path) : String :=
  if path.anchor = "" ∧ path.parts = [] then "." else path.anchor ++ "/".intercalate path.parts

/-- The path of an entry below. -/
def child (path : Path) (name : String) : Path :=
  { path with parts := path.parts ++ [name] }

/-- The number of bytes before a name that is joined to a path: those of the path and of the slash behind it. -/
def sizeBelow (path : Path) : Nat :=
  if path.render.toList.getLast? = some '/' then path.render.utf8ByteSize else path.render.utf8ByteSize + 1

/-- The normal spelling of the path that a string names. -/
def normalize (s : String) : String :=
  (ofString s).render

/-- The place that names lead to from a place, without looking at the file system: two points lead up. -/
def follow (place : List String) : List String → List String
  | [] => place
  | name :: rest =>
    if name = ".." then follow place.dropLast rest
    else if name = "" ∨ name = "." then follow place rest
    else follow (place ++ [name]) rest

/-- The spelling of a place. -/
def absolute (place : List String) : String :=
  "/" ++ "/".intercalate place

end Path

end ImportOrder
