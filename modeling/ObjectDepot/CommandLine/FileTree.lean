import ObjectDepot.Bytes
import ObjectDepot.Text.Quoted

/-!
# Files

Why a file cannot be read, and trees of files that are read as those of a system are: a path is
followed name by name, from the root or from the folder in which the program works.
-/

namespace ObjectDepot.CommandLine

/-- Why a file cannot be read. `throughFile` is a path that goes on after a file. -/
inductive Unreadable where
  | missing
  | throughFile
  | folder
  | zeroCharacter
  | nameTooLong
  deriving DecidableEq

/-- All reasons. -/
def Unreadable.all : List Unreadable :=
  [.missing, .throughFile, .folder, .zeroCharacter, .nameTooLong]

/-- The number by which a system reports a reason. -/
def Unreadable.code : Unreadable → Nat
  | .missing => 2
  | .throughFile => 20
  | .folder => 21
  | .zeroCharacter => 22
  | .nameTooLong => 36

/-- The reason with a number. -/
def Unreadable.ofCode? (code : Nat) : Option Unreadable :=
  Unreadable.all.find? (·.code == code)

/-- The words for a reason. -/
def Unreadable.words : Unreadable → String
  | .missing => "No such file or directory"
  | .throughFile => "Not a directory"
  | .folder => "Is a directory"
  | .zeroCharacter => "embedded null byte"
  | .nameTooLong => "File name too long"

/-- A file cannot be read. -/
structure FileFault where
  reason : Unreadable
  path : String
  deriving DecidableEq

/-- The words for a fault. -/
def FileFault.message (fault : FileFault) : String :=
  match fault.reason with
  | .zeroCharacter => fault.reason.words
  | reason =>
    "[Errno " ++ toString reason.code ++ "] " ++ reason.words ++ ": " ++ Text.quoted fault.path

/-- What stands at a place of a tree. -/
inductive Node where
  | folder
  | file (data : Bytes)
  deriving DecidableEq

/-- A tree of files. A place is given by the names that lead to it from the root; all places on the
way to a known one are folders. -/
structure FileTree where
  nodes : List (List String × Node)
  workplace : List String
  deriving DecidableEq

/-- The names on a path. Where a slash stands first, last or beside another one, the name is
empty. -/
def pathNames (path : String) : List String :=
  (path.toList.splitOn '/').map String.ofList

/-- How many bytes a name may have. -/
def maxNameSize : Nat := 255

/-- How many bytes a path may have. -/
def maxPathSize : Nat := 4095

namespace FileTree

/-- What stands at a place. -/
def node? (tree : FileTree) (place : List String) : Option Node :=
  match tree.nodes.lookup place with
  | some node => some node
  | none =>
    if (tree.workplace :: tree.nodes.map Prod.fst).any place.isPrefixOf then some .folder else none

/-- The place to which a name leads from another place. -/
def step (tree : FileTree) (place : List String) (name : String) :
    Except Unreadable (List String) :=
  match tree.node? place with
  | none => .error .missing
  | some (.file _) => .error .throughFile
  | some .folder =>
    if name = "" ∨ name = "." then .ok place
    else if name = ".." then .ok place.dropLast
    else if maxNameSize < name.utf8ByteSize then .error .nameTooLong
    else .ok (place ++ [name])

/-- The place to which a path leads. -/
def follow (tree : FileTree) (path : String) : Except Unreadable (List String) :=
  let start := if path.toList.head? = some '/' then [] else tree.workplace
  (pathNames path).foldlM tree.step start

/-- What the file at a path holds. -/
def read (tree : FileTree) (path : String) : Except FileFault Bytes :=
  Except.mapError (⟨·, path⟩) <|
    if path.toList.contains '\x00' then .error .zeroCharacter
    else if maxPathSize < path.utf8ByteSize then .error .nameTooLong
    else if path = "" then .error .missing
    else do
      match tree.node? (← tree.follow path) with
      | none => .error .missing
      | some .folder => .error .folder
      | some (.file data) => .ok data

end FileTree

end ObjectDepot.CommandLine
