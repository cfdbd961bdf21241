/-! Files by their paths. What the program needs of a file system is a class, which a tree of files in memory
implements. -/

namespace Stencil.Command

/-- A path without what says nothing: no empty parts, and no parts that stay where they are. -/
structure Location where
  slashes : Nat
  parts : List String
  deriving DecidableEq, Repr

namespace Location

def splitSlashes : List Char → List (List Char)
  | [] => [[]]
  | c :: rest => if c = '/' then [] :: splitSlashes rest else (splitSlashes rest).modifyHead (c :: ·)

def ofText (text : String) : Location :=
  let slashes := (text.toList.takeWhile (· = '/')).length
  ⟨if slashes ≤ 2 then slashes else 1,
   ((splitSlashes text.toList).map String.ofList).filter fun part => part ≠ "" && part ≠ "."⟩

def text (location : Location) : String :=
  let text := String.ofList (List.replicate location.slashes '/') ++ String.intercalate "/" location.parts
  if text = "" then "." else text

def child (location : Location) (name : String) : Location := { location with parts := location.parts ++ [name] }

/-- A name without what follows its last point. A point at either end does not count. -/
def stem (name : String) : String :=
  let reversed := name.toList.reverse
  let ending := reversed.takeWhile (· ≠ '.')
  let start := (reversed.drop (ending.length + 1)).reverse
  if ending.isEmpty || start.isEmpty then name else String.ofList start

end Location

inductive AccessError where
  | notFound
  | notADirectory
  | isADirectory
  | nameTooLong
  /-- No path holds the null character. -/
  | nullCharacter
  | other (number : Nat) (reason : String)
  deriving DecidableEq, Repr

namespace AccessError

def number : AccessError → Nat
  | .notFound => 2
  | .notADirectory => 20
  | .isADirectory => 21
  | .nameTooLong => 36
  | .nullCharacter => 22
  | .other number _ => number

def reason : AccessError → String
  | .notFound => "No such file or directory"
  | .notADirectory => "Not a directory"
  | .isADirectory => "Is a directory"
  | .nameTooLong => "File name too long"
  | .nullCharacter => "embedded null byte"
  | .other _ reason => reason

end AccessError

class Files (m : Type → Type) where
  read : Location → m (Except AccessError (List UInt8))
  isDirectory : Location → m (Except AccessError Bool)
  /-- The names in a directory, in any order. -/
  names : Location → m (List String)
  write : Location → String → m (Except AccessError Unit)

/-- Files and directories by the parts of their paths from the working directory. A path to something above begins with
parts that go up, and an absolute one with the root; no name up there leads back down to the working directory. A directory
that holds something need not be listed. -/
structure FileTree where
  files : List (List String × List UInt8)
  directories : List (List String)
  deriving DecidableEq, Repr

namespace FileTree

def empty : FileTree := ⟨[], []⟩

def up : String := ".."
def root : String := "/"

def paths (tree : FileTree) : List (List String) := tree.files.map Prod.fst ++ tree.directories

/-- The working directory, those that it lies in, and the root are in every tree. -/
def isAncestor (path : List String) : Bool := path.all (· = up) || path = [root]

def isDirectory (tree : FileTree) (path : List String) : Bool :=
  isAncestor path || path ∈ tree.directories || tree.paths.any fun other => path.isPrefixOf other && path ≠ other

/-- The root lies in itself. -/
def parent (path : List String) : List String :=
  if path.all (· = up) then path ++ [up] else if path = [root] then path else path.dropLast

inductive Place where
  | file (path : List String) (content : List UInt8)
  | directory (path : List String)
  /-- Nothing is there, but its directory is. -/
  | absent (path : List String)
  deriving DecidableEq, Repr

def nameLimit : Nat := 255
def pathLimit : Nat := 4095

def walk (tree : FileTree) : Place → List String → Except AccessError Place
  | place, [] => .ok place
  | .directory path, part :: parts =>
    if part = up then tree.walk (.directory (parent path)) parts
    else if nameLimit < part.utf8ByteSize then .error .nameTooLong
    else
      let path := path ++ [part]
      match tree.files.lookup path with
      | some content => tree.walk (.file path content) parts
      | none => tree.walk (if tree.isDirectory path then .directory path else .absent path) parts
  | .file _ _, _ :: _ => .error .notADirectory
  | .absent _, _ :: _ => .error .notFound

def find (tree : FileTree) (location : Location) : Except AccessError Place :=
  if '\x00' ∈ location.text.toList then .error .nullCharacter
  else if pathLimit < location.text.utf8ByteSize then .error .nameTooLong
  else tree.walk (.directory (if location.slashes = 0 then [] else [root])) location.parts

def put (tree : FileTree) (path : List String) (content : List UInt8) : FileTree :=
  { tree with files := (path, content) :: tree.files.filter fun file => file.1 ≠ path }

def read (tree : FileTree) (location : Location) : Except AccessError (List UInt8) := do
  match ← tree.find location with
  | .file _ content => return content
  | .directory _ => throw .isADirectory
  | .absent _ => throw .notFound

def write (tree : FileTree) (location : Location) (text : String) : Except AccessError FileTree := do
  match ← tree.find location with
  | .file path _ => return tree.put path text.toUTF8.toList
  | .absent path => return tree.put path text.toUTF8.toList
  | .directory _ => throw .isADirectory

/-- Where nothing is, there is no directory. A path that is no path at all is an error. -/
def holdsDirectory (tree : FileTree) (location : Location) : Except AccessError Bool :=
  match tree.find location with
  | .ok (.directory _) => .ok true
  | .ok _ => .ok false
  | .error .nameTooLong => .error .nameTooLong
  | .error _ => .ok false

def isName (part : String) : Bool := part ≠ up && part ≠ root

def names (tree : FileTree) (location : Location) : List String :=
  match tree.find location with
  | .ok (.directory path) =>
    (tree.paths.filterMap fun other =>
      if path.isPrefixOf other then (other.drop path.length).head?.filter isName else none).eraseDups
  | _ => []

/-- The files below the working directory that are not in an older tree, or have another content there. -/
def changesFrom (tree older : FileTree) : List (List String × List UInt8) :=
  tree.files.filter fun file => file.1.head?.all isName && older.files.lookup file.1 ≠ some file.2

instance : Files (StateM FileTree) where
  read location := do return (← get).read location
  isDirectory location := do return (← get).holdsDirectory location
  names location := do return (← get).names location
  write location text := do
    match (← get).write location text with
    | .ok tree =>
      set tree
      return .ok ()
    | .error error => return .error error

end FileTree
end Stencil.Command
