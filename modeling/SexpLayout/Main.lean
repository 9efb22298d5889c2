import SexpLayout.CommandLine.Run

/-!
# The program

Reads the files and directories that the arguments name into a file tree, runs the command line on
it, writes the files that have changed, and prints what the run has printed.
-/

namespace SexpLayout.Main

open CommandLine

def usage : String :=
  "usage: sexpfmt [-h] [--one-line] [--check] [--stdout] [--config CONFIG] [--no-indent]\n" ++
  "               [--pattern PATTERN] [-v]\n" ++
  "               paths [paths ...]\n"

/-- The place that a path leads to from the working directory. -/
def placeOf (home : Place) (p : Path) : Place :=
  p.names.foldl (fun here name => if name = ['.', '.'] then here.dropLast else here ++ [name])
    (if p.isRelative then home else [])

/-- The name of a place for the operating system. -/
def nameOf (place : Place) : String := String.ofList ('/' :: Text.join ['/'] place)

def entryAt? (place : Place) : IO (Option Entry) := do
  let file := (← IO.currentDir) / nameOf place
  if ← file.isDir then return some .directory
  else if ← file.pathExists then return some (.file (← IO.FS.readBinFile file))
  else return none

/-- The entries below a directory.  Links to directories are not followed. -/
partial def entriesBelow (place : Place) : IO (List (Place × Entry)) := do
  let children ← ((← IO.currentDir) / nameOf place).readDir
  let entries ← children.toList.mapM fun child => do
    let here := place ++ [child.fileName.toList]
    match (← child.path.symlinkMetadata).type, ← child.path.isDir with
    | .dir, _ => return (here, .directory) :: (← entriesBelow here)
    | .other, _ | .symlink, true => return []
    | _, _ => return ((← entryAt? here).map fun e => (here, e)).toList
  return entries.flatten

/-- The entries on the way to a place, at the place, and below it. -/
def entriesAround (place : Place) : IO (List (Place × Entry)) := do
  let mut entries : List (Place × Entry) := []
  for n in List.range place.length do
    if let some e ← entryAt? (place.take (n + 1)) then
      entries := entries ++ [(place.take (n + 1), e)]
  match entries.lookup place with
  | some .directory => return entries ++ (← entriesBelow place)
  | _ => return entries

/-- The part of the file system that the options name. -/
def snapshot (o : Options) : IO FileTree := do
  let home := Path.namesOf (← IO.currentDir).toString.toList
  let config := if o.config.isEmpty then [] else [o.config]
  let paths := o.paths.filter fun name => name ≠ ['-']
  let mut entries ← (List.range home.length).mapM fun n => return (home.take (n + 1), .directory)
  for name in config ++ paths do
    entries := entries ++ (← entriesAround (placeOf home (Path.ofText name)))
  return ⟨home, entries⟩

/-- Writes the files of the second tree that differ from the first. -/
def writeChanges (before after : FileTree) : IO Unit := do
  for (old, new) in before.entries.zip after.entries do
    match old.2, new.2 with
    | .file a, .file b => if a.data != b.data then IO.FS.writeBinFile (nameOf new.1) b
    | _, _ => pure ()

partial def readInput (input : IO.FS.Stream) (read : String) : IO String := do
  let line ← input.getLine
  if line.isEmpty then return read else readInput input (read ++ line)

def wording : Config.Wording where
  undecodable _ := Text.ofString "invalid UTF-8"
  malformed _ := Text.ofString "invalid JSON"

def execute (o : Options) : IO UInt32 := do
  let tree ← snapshot o
  let input ← if o.paths.contains ['-'] then readInput (← IO.getStdin) "" else pure ""
  let (s, failure) := run wording o tree input.toList
  writeChanges tree s.tree
  IO.print (String.ofList s.stdout)
  IO.eprint (String.ofList s.stderr)
  match failure with
  | none => return UInt32.ofNat s.status
  | some e =>
    IO.eprintln ((e.message?.map String.ofList).getD "invalid UTF-8")
    return 1

end SexpLayout.Main

def main (args : List String) : IO UInt32 := do
  match SexpLayout.CommandLine.Options.ofArguments (args.map String.toList) with
  | .ok o => SexpLayout.Main.execute o
  | .error .help =>
    IO.print SexpLayout.Main.usage
    return 0
  | .error .usage =>
    IO.eprint SexpLayout.Main.usage
    return 2
