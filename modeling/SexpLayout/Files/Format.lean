import SexpLayout.Config.Json
import SexpLayout.Files.Pattern
import SexpLayout.Format.Form

/-!
# Formatting files

A file is read as UTF-8 with unified line ends, formatted, and written back only if the text has
changed.  A directory is formatted file by file; the first failure ends it, and what has been
written by then stays.
-/

namespace SexpLayout

/-- Why a file cannot be formatted. -/
inductive FileError where
  /-- The path leads to no file. -/
  | io (fault : Fault) (path : Path)
  /-- The bytes are not UTF-8. -/
  | undecodable
  /-- The configuration is not valid. -/
  | config (error : ConfigError)
  /-- The text cannot be read. -/
  | read (error : ReadError)
  /-- The pattern for the files of a directory is not valid. -/
  | pattern (error : Pattern.PatternError)

/-- The number and the wording of a fault.  A null character is found before the path is looked up,
and the path is not named then. -/
def Fault.message (fault : Fault) (path : Path) : Text :=
  match fault with
  | missing => Text.ofString "[Errno 2] No such file or directory: " ++ path.text.quoted
  | notDirectory => Text.ofString "[Errno 20] Not a directory: " ++ path.text.quoted
  | isDirectory => Text.ofString "[Errno 21] Is a directory: " ++ path.text.quoted
  | tooLong => Text.ofString "[Errno 36] File name too long: " ++ path.text.quoted
  | nullCharacter => Text.ofString "embedded null byte"

/-- The wording of a file error.  What is wrong with bytes that are not UTF-8 only their decoder can
say. -/
def FileError.message? : FileError → Option Text
  | io fault path => some (fault.message path)
  | undecodable => none
  | config e => some e.message
  | read e => some e.message
  | pattern e => some e.message

/-- What an action on files leaves: the tree, the events on the way, and how it ended. -/
structure FileAction (α : Type) where
  tree : FileTree
  events : List Event
  outcome : Except FileError α

namespace FileTree

def readText (tree : FileTree) (path : Path) : Except FileError Text :=
  match tree.read path with
  | .error fault => .error (.io fault path)
  | .ok bytes =>
    match String.fromUTF8? bytes with
    | none => .error .undecodable
    | some s => .ok (Text.unifyLineEnds s.toList)

def writeText (tree : FileTree) (path : Path) (text : Text) : FileTree :=
  tree.write path (String.ofList text).toUTF8

/-- Formats a file, and writes it if its text changes and `write` is set.  The value says whether
the text changes. -/
def formatFile (config : Except ConfigError Config) (mode : Mode) (write : Bool) (tree : FileTree)
    (path : Path) : FileAction Bool :=
  match tree.readText path, config with
  | .error e, _ => ⟨tree, [], .error e⟩
  | .ok _, .error e => ⟨tree, [], .error (.config e)⟩
  | .ok old, .ok config =>
    let run := formatText config mode old
    match run.outcome with
    | .error e => ⟨tree, run.events, .error (.read e)⟩
    | .ok new =>
      if new = old then ⟨tree, run.events ++ [.unchanged path.text], .ok false⟩
      else if write then
        ⟨tree.writeText path new, run.events ++ [.reformatted path.text], .ok true⟩
      else ⟨tree, run.events, .ok true⟩

/-- Formats files one after the other up to the first failure.  The value holds those that
change. -/
def formatFiles (config : Config) (mode : Mode) (write : Bool) :
    FileTree → List Path → FileAction (List Path)
  | tree, [] => ⟨tree, [], .ok []⟩
  | tree, path :: paths =>
    let first := tree.formatFile (.ok config) mode write path
    match first.outcome with
    | .error e => ⟨first.tree, first.events, .error e⟩
    | .ok changed =>
      let rest := formatFiles config mode write first.tree paths
      ⟨rest.tree, first.events ++ rest.events,
        rest.outcome.map fun ps => if changed then path :: ps else ps⟩

def formatDirectory (config : Except ConfigError Config) (mode : Mode) (write : Bool)
    (pattern : Text) (tree : FileTree) (path : Path) : FileAction (List Path) :=
  match config, Pattern.ofText pattern with
  | .error e, _ => ⟨tree, [], .error (.config e)⟩
  | .ok _, .error e => ⟨tree, [], .error (.pattern e)⟩
  | .ok config, .ok parts =>
    match tree.filesMatching parts path with
    | .error (fault, place) => ⟨tree, [], .error (.io fault place)⟩
    | .ok paths => formatFiles config mode write tree paths

end FileTree

end SexpLayout
