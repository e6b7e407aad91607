import ImportOrder.Scan
import ImportOrder.Options.Validation
import ImportOrder.Storage.Path
import ImportOrder.Storage.Tree
import ImportOrder.Text.Newline
import ImportOrder.Yaml.Reader

/-!
# Actions on a file system

An action reads and changes a tree of files and may fail. What it has changed before failing stays changed.
-/

namespace ImportOrder

/-- A tree of files and the place that relative paths start from. -/
structure FileSystem where
  root : Tree
  current : List String

/-- Why the file system refuses a request. -/
inductive Refusal where
  | notFound
  | alreadyExists
  | notDirectory
  | isDirectory
  | nameTooLong
  /-- The path holds a NUL character, which no name can have. -/
  | nulInPath
deriving DecidableEq, Repr

/-- The number and the wording of a refusal. -/
def Refusal.description : Refusal → String
  | notFound => "[Errno 2] No such file or directory"
  | alreadyExists => "[Errno 17] File exists"
  | notDirectory => "[Errno 20] Not a directory"
  | isDirectory => "[Errno 21] Is a directory"
  | nameTooLong => "[Errno 36] File name too long"
  | nulInPath => "embedded null byte"

/-- The number of bytes that a name may have. -/
def nameLimit : Nat := 255

/-- The number of bytes below which a path has to stay. -/
def pathLimit : Nat := 4096

/-- Why an action fails. -/
inductive Failure where
  /-- The file system refuses a path. -/
  | refused (refusal : Refusal) (path : String)
  /-- A file is not UTF-8. -/
  | undecodable (path : String)
  /-- A source has a part that is not read to its end. -/
  | source (error : ParseError) (hpart : error.error.part ≠ .nesting)
  /-- Options break their rules. -/
  | options (path : String) (faults : List OptionFault)
  /-- An options file is not YAML. -/
  | yaml (path : String) (reason : String)
  /-- A scalar of an options file has no value. -/
  | scalar (fault : Yaml.ScalarFault)
  /-- The stack has no room for what stands inside each other, in a source or in an options file. -/
  | tooDeep
  /-- The aliases of options cannot be extended. -/
  | aliases (cause : NotIterable)

/-- What is said of a failure. -/
def Failure.message : Failure → String
  | refused refusal path => refusal.description ++ ": " ++ Quoted.ofString path
  | undecodable path => "invalid UTF-8: " ++ path
  | source error _ => error.message
  | options path faults => Wording.configError path ("; ".intercalate (faults.map OptionFault.message))
  | yaml path reason => Wording.configError path reason
  | scalar fault => fault.message
  | tooDeep => "maximum recursion depth exceeded"
  | aliases cause => cause.value.typeName ++ " cannot be extended"

/-- How the failure to read a source is met: as a fault of the source, unless it is the stack that ran out. -/
def Failure.ofParse (error : ParseError) : Failure :=
  if h : error.error.part = .nesting then .tooDeep else .source error h

/-- An action on a file system. -/
abbrev Action := ExceptT Failure (StateM FileSystem)

namespace FileSystem

/-- Follows names from a place; every name has to be looked up in a directory. -/
def walk (fs : FileSystem) (place : List String) : List String → Except Refusal (List String)
  | [] => .ok place
  | name :: rest =>
    match fs.root.get? place with
    | none => .error .notFound
    | some (.file _) => .error .notDirectory
    | some (.directory _) =>
      if name = "" ∨ name = "." then fs.walk place rest
      else if name = ".." then fs.walk place.dropLast rest
      else if nameLimit < name.utf8ByteSize then .error .nameTooLong
      else fs.walk (place ++ [name]) rest

/-- Where a path starts from. -/
def startOf (fs : FileSystem) (path : String) : List String :=
  if path.toList.head? = some '/' then [] else fs.current

/-- The place that a path names; the entry itself need not exist. -/
def locate (fs : FileSystem) (path : String) : Except Refusal (List String) :=
  if path = "" then .error .notFound
  else if path.toList.contains '\x00' then .error .nulInPath
  else if pathLimit ≤ path.utf8ByteSize then .error .nameTooLong
  else fs.walk (fs.startOf path) (Path.names path)

/-- The entry that a path names. -/
def get? (fs : FileSystem) (path : String) : Option Tree :=
  match fs.locate path with
  | .ok place => fs.root.get? place
  | .error _ => none

/-- Whether a path names a directory. -/
def isDirectory (fs : FileSystem) (path : String) : Bool :=
  ((fs.get? path).map Tree.isDirectory).getD false

/-- The entry that a path names, where a name that is too long is not the same as a missing entry. -/
def lookUp (fs : FileSystem) (path : String) : Except Refusal (Option Tree) :=
  match fs.locate path with
  | .ok place => .ok (fs.root.get? place)
  | .error .nameTooLong => .error .nameTooLong
  | .error _ => .ok none

/-- The place that a path names by its spelling alone. -/
def resolve (fs : FileSystem) (path : String) : List String :=
  Path.follow (fs.startOf path) (Path.names path)

end FileSystem

namespace Action

/-- Refuses a path. -/
def refuse {α : Type} (refusal : Refusal) (path : String) : Action α :=
  throw (.refused refusal path)

/-- The place that a path names. -/
def locate (path : String) : Action (List String) := do
  match (← get).locate path with
  | .ok place => return place
  | .error refusal => refuse refusal path

/-- The entry that a path names, if there is one. -/
def lookUp (path : String) : Action (Option Tree) := do
  match (← get).lookUp path with
  | .ok entry => return entry
  | .error refusal => refuse refusal path

/-- Puts an entry at a place. -/
def put (place : List String) (tree : Tree) : Action Unit :=
  modify fun fs => { fs with root := fs.root.put place tree }

/-- The bytes of a file. -/
def readBytes (path : String) : Action ByteArray := do
  let place ← locate path
  match (← get).root.get? place with
  | some (.file content) => return content
  | some (.directory _) => refuse .isDirectory path
  | none => refuse .notFound path

/-- The text of a file, with every line break a line feed. -/
def readText (path : String) : Action Text := do
  match String.fromUTF8? (← readBytes path) with
  | some s => return Text.unifyNewlines s.toList
  | none => throw (.undecodable path)

/-- Replaces the content of a file by what a function makes of the old one; a new file begins empty. -/
def update (path : String) (f : ByteArray → ByteArray) : Action Unit := do
  let place ← locate path
  match (← get).root.get? place with
  | some (.directory _) => refuse .isDirectory path
  | some (.file content) => put place (.file (f content))
  | none => put place (.file (f ByteArray.empty))

/-- Writes a file. -/
def writeText (path : String) (t : Text) : Action Unit :=
  update path fun _ => (String.ofList t).toUTF8

/-- Adds to the end of a file. -/
def appendText (path : String) (t : Text) : Action Unit :=
  update path fun content => content ++ (String.ofList t).toUTF8

/-- Removes a file. -/
def remove (path : String) : Action Unit := do
  let place ← locate path
  match (← get).root.get? place with
  | some (.file _) => modify fun fs => { fs with root := fs.root.erase place }
  | some (.directory _) => refuse .isDirectory path
  | none => refuse .notFound path

/-- The path without the slashes at its end. -/
def withoutEndSlashes (path : String) : String :=
  String.ofList (Text.dropEndWhile (· == '/') path.toList)

/-- Makes a directory in one that exists. -/
def makeDirectory (path : String) : Action Unit := do
  let bare := withoutEndSlashes path
  match (← get).locate (if bare = "" then path else bare) with
  | .error refusal => refuse refusal path
  | .ok place =>
    match (← get).root.get? place with
    | some _ => refuse .alreadyExists path
    | none => put place (.directory [])

/-- A path cut before its last name. The slashes between the two are dropped, unless there is nothing
else. -/
def splitLast (path : String) : String × String :=
  let chars := path.toList
  let last := (chars.reverse.takeWhile (· != '/')).reverse
  let front := chars.take (chars.length - last.length)
  let bare := Text.dropEndWhile (· == '/') front
  (String.ofList (if bare.isEmpty then front else bare), String.ofList last)

/-- Makes a directory with all that are missing above it. With `existing`, one that is there already is no
failure. The bound is the number of names left to look at. -/
def makeDirectories (existing : Bool) : Nat → String → Action Unit
  | 0, path => makeDirectory path
  | bound + 1, path => do
    let (front, last) :=
      let (front, last) := splitLast path
      if last = "" then splitLast front else (front, last)
    let missing := front != "" && last != "" && ((← get).get? front).isNone
    if missing then
      tryCatch (makeDirectories existing bound front) fun failure =>
        match failure with
        | .refused .alreadyExists _ => pure ()
        | failure => throw failure
    if missing && last = "." then return ()
    else
      tryCatch (makeDirectory path) fun failure => do
        if existing && (← get).isDirectory path then pure () else throw failure

end Action

end ImportOrder
