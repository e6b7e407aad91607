/-!
# Trees of files

A file holds bytes, and a directory holds named entries. A place is the list of names that leads to an entry
from the top.
-/

namespace ImportOrder

/-- A file or a directory. -/
inductive Tree where
  | file (content : ByteArray)
  | directory (entries : List (String × Tree))
deriving Inhabited

namespace Tree

/-- The entry at a place. -/
def get? (tree : Tree) (place : List String) : Option Tree :=
  match place, tree with
  | [], tree => some tree
  | _ :: _, .file _ => none
  | name :: rest, .directory entries =>
    match entries.lookup name with
    | some tree => tree.get? rest
    | none => none

/-- The entries with one of them replaced, or added at the end. -/
def setEntry (name : String) (tree : Tree) : List (String × Tree) → List (String × Tree)
  | [] => [(name, tree)]
  | entry :: rest =>
    if entry.1 = name then (name, tree) :: rest else entry :: setEntry name tree rest

/-- The tree with an entry put at a place. Directories on the way are made if missing; a file on the way
stays. -/
def put (tree : Tree) (place : List String) (new : Tree) : Tree :=
  match place, tree with
  | [], _ => new
  | _ :: _, .file content => .file content
  | name :: rest, .directory entries =>
    .directory (setEntry name (put ((entries.lookup name).getD (.directory [])) rest new) entries)

/-- The tree without the entry at a place. -/
def erase (tree : Tree) (place : List String) : Tree :=
  match place, tree with
  | [], tree => tree
  | _ :: _, .file content => .file content
  | [name], .directory entries => .directory (entries.filter fun entry => entry.1 != name)
  | name :: rest, .directory entries =>
    match entries.lookup name with
    | some tree => .directory (setEntry name (erase tree rest) entries)
    | none => .directory entries

def isDirectory : Tree → Bool
  | directory _ => true
  | file _ => false

mutual

/-- All files of a tree with their places. -/
def files : Tree → List (List String × ByteArray)
  | file content => [([], content)]
  | directory entries => entryFiles entries

/-- All files below the given entries with their places. -/
def entryFiles : List (String × Tree) → List (List String × ByteArray)
  | [] => []
  | (name, tree) :: rest =>
    (files tree).map (fun (place, content) => (name :: place, content)) ++ entryFiles rest

end

end Tree

end ImportOrder
