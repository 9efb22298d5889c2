import SexpLayout.Files.Path

/-!
# File trees

A file tree is a list of entries, files and directories, each at a place, which is the list of names
from the root of the tree.  Relative paths start at the working directory.  Looking a path up
follows its names one by one, so that every one of them but the last has to be a directory.  A name
has at most 255 bytes and a path at most 4095, and neither holds a null character.
-/

namespace SexpLayout

abbrev Place := List Text

inductive Entry where
  | file (bytes : ByteArray)
  | directory

def Entry.isDirectory : Entry → Bool
  | directory => true
  | file _ => false

/-- Entries at places, and the working directory. -/
structure FileTree where
  home : Place
  entries : List (Place × Entry)

/-- Why a path leads to no file. -/
inductive Fault where
  | missing
  | notDirectory
  | isDirectory
  | tooLong
  | nullCharacter
  deriving DecidableEq, Repr

namespace FileTree

def maxNameSize : Nat := 255

def maxPathSize : Nat := 4095

/-- The entry at a place.  The root is a directory. -/
def entry? (tree : FileTree) : Place → Option Entry
  | [] => some .directory
  | place => tree.entries.lookup place

/-- Follows names from a place on.  The name `..` leads to the place above. -/
def follow (tree : FileTree) : Place → List Text → Except Fault Place
  | here, [] => .ok here
  | here, name :: names =>
    match tree.entry? here with
    | none => .error .missing
    | some (.file _) => .error .notDirectory
    | some .directory =>
      if maxNameSize < name.utf8Size then .error .tooLong
      else tree.follow (if name = ['.', '.'] then here.dropLast else here ++ [name]) names

/-- The place that a path leads to; there need not be anything. -/
def locate (tree : FileTree) (p : Path) : Except Fault Place :=
  if p.text.contains '\x00' then .error .nullCharacter
  else if maxPathSize < p.text.utf8Size then .error .tooLong
  else tree.follow (if p.isRelative then tree.home else []) p.names

def find? (tree : FileTree) (p : Path) : Option Entry :=
  match tree.locate p with
  | .ok place => tree.entry? place
  | .error _ => none

/-- What a path leads to, if anything; only a path that is too long cannot be asked for. -/
def probe (tree : FileTree) (p : Path) : Except (Fault × Path) (Option Entry) :=
  if tree.locate p matches .error .tooLong then .error (.tooLong, p) else .ok (tree.find? p)

def isDirectory (tree : FileTree) (p : Path) : Bool :=
  (tree.find? p).any Entry.isDirectory

def isFile (tree : FileTree) (p : Path) : Bool :=
  (tree.find? p).any fun e => !e.isDirectory

def read (tree : FileTree) (p : Path) : Except Fault ByteArray :=
  match tree.locate p with
  | .error fault => .error fault
  | .ok place =>
    match tree.entry? place with
    | none => .error .missing
    | some .directory => .error .isDirectory
    | some (.file bytes) => .ok bytes

def writeAt (tree : FileTree) (place : Place) (bytes : ByteArray) : FileTree where
  home := tree.home
  entries := tree.entries.map fun e => if e.1 = place then (e.1, .file bytes) else e

def write (tree : FileTree) (p : Path) (bytes : ByteArray) : FileTree :=
  match tree.locate p with
  | .ok place => tree.writeAt place bytes
  | .error _ => tree

/-- The entries right below a directory, by name. -/
def children (tree : FileTree) (p : Path) : List (Text × Entry) :=
  match tree.locate p with
  | .error _ => []
  | .ok here =>
    tree.entries.filterMap fun e =>
      if e.1.dropLast = here then e.1.getLast?.map fun name => (name, e.2) else none

/-- The directory itself and all directories below it. -/
def directoriesBelow (tree : FileTree) (p : Path) : List Path :=
  match tree.locate p with
  | .error _ => []
  | .ok here =>
    p :: tree.entries.filterMap fun e =>
      if e.2.isDirectory && here.isPrefixOf e.1 && here.length < e.1.length then
        some (p.below (e.1.drop here.length))
      else none

end FileTree

end SexpLayout
