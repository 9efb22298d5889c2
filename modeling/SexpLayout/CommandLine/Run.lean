import SexpLayout.CommandLine.Options
import SexpLayout.Files.Format

/-!
# Running the command line

A run takes the paths one after the other.  A file that cannot be opened or read as forms is
reported, and the run goes on; bytes that are not UTF-8, paths with a null character and patterns
that are not valid end it.  The exit status is 2 after a report, else 1 if files would change under
`--check`, else 0.
-/

namespace SexpLayout.CommandLine

def line (t : Text) : Text := t ++ ['\n']

/-- The line that logs an event.  Without `--verbose`, only files that are written
are logged. -/
def logLine (verbose : Bool) : Event → Text
  | .laidOut mode head breaks =>
    debug "formatter" (Text.ofString "laid out " ++ Text.ofString mode.name ++
      Text.ofString " form " ++ head.quoted ++ Text.ofString " (" ++ Text.ofNat breaks ++
      Text.ofString " breaks)")
  | .formatted forms =>
    debug "buffer" (Text.ofString "formatted " ++ Text.ofNat forms ++
      Text.ofString " top-level forms")
  | .unchanged path => debug "files" (path ++ Text.ofString " already formatted")
  | .reformatted path => line (Text.ofString "INFO sexpfmt.files: reformatted " ++ path)
where
  /-- A line for the verbose log. -/
  debug (part : String) (t : Text) : Text :=
    if verbose then
      line (Text.ofString "DEBUG sexpfmt." ++ Text.ofString part ++ Text.ofString ": " ++ t)
    else []

/-- What a run has done so far: the files, what is left of the input, what has been printed, and the
exit status. -/
structure Session where
  tree : FileTree
  input : Text
  stdout : Text
  stderr : Text
  status : Nat

namespace Session

def log (verbose : Bool) (events : List Event) (s : Session) : Session :=
  { s with stderr := s.stderr ++ events.flatMap (logLine verbose) }

def report (name message : Text) (s : Session) : Session :=
  { s with
    stderr := s.stderr ++ line (Text.ofString "error: " ++ name ++ Text.ofString ": " ++ message)
    status := 2 }

def print (t : Text) (s : Session) : Session := { s with stdout := s.stdout ++ t }

def listChanges (paths : List Path) (s : Session) : Session :=
  { s with
    stdout := s.stdout ++
      paths.flatMap fun p => line (Text.ofString "would reformat " ++ p.text)
    status := if paths.isEmpty then s.status else max s.status 1 }

end Session

/-- What happens with a path: the session after it, and the error that ends the run, if any. -/
abbrev Step := Session × Option FileError

/-- The message that reports an error, unless it ends the run. -/
def reported? : FileError → Option Text
  | .io .nullCharacter _ => none
  | .io fault path => some (fault.message path)
  | .read e => some e.message
  | _ => none

/-- Goes on after an error that is reported, and ends the run for any other. -/
def fail (name : Text) (e : FileError) (s : Session) : Step :=
  match reported? e with
  | some message => (s.report name message, none)
  | none => (s, some e)

def printFormatted (o : Options) (config : Config) (mode : Mode) (name text : Text) (s : Session) :
    Step :=
  let run := formatText config mode text
  let s := s.log o.verbose run.events
  match run.outcome with
  | .ok new => (s.print new, none)
  | .error e => fail name (.read e) s

/-- Formats files in place, or lists those that would change. -/
def settle (o : Options) (name : Text) (action : FileAction (List Path)) (s : Session) : Step :=
  let s := { s with tree := action.tree }.log o.verbose action.events
  match action.outcome with
  | .error e => fail name e s
  | .ok changed => (if o.check then s.listChanges changed else s, none)

/-- Formats one file in place; the value holds it if it changes. -/
def formatOne (config : Config) (mode : Mode) (write : Bool) (tree : FileTree) (path : Path) :
    FileAction (List Path) :=
  let action := tree.formatFile (.ok config) mode write path
  ⟨action.tree, action.events, action.outcome.map fun changed => if changed then [path] else []⟩

/-- Handles one argument.  The argument `-` stands for the input, which is empty once it has been
read. -/
def runPath (o : Options) (config : Config) (mode : Mode) (name : Text) (s : Session) : Step :=
  let path := Path.ofText name
  if name = ['-'] then printFormatted o config mode name s.input { s with input := [] }
  else if o.stdout then
    if s.tree.isDirectory path then
      (s.report name (Text.ofString "--stdout takes files, not directories"), none)
    else match s.tree.readText path with
      | .error e => fail name e s
      | .ok text => printFormatted o config mode name text s
  else if s.tree.isDirectory path then
    settle o name (s.tree.formatDirectory (.ok config) mode (!o.check) o.pattern path) s
  else settle o name (formatOne config mode (!o.check) s.tree path) s

/-- Handles the arguments in order, up to the first error that ends the run. -/
def runPaths (o : Options) (config : Config) (mode : Mode) : List Text → Session → Step
  | [], s => (s, none)
  | name :: names, s =>
    match runPath o config mode name s with
    | (s, none) => runPaths o config mode names s
    | (s, some e) => (s, some e)

/-- Why the file of the configuration cannot be read, or holds none. -/
inductive LoadFailure where
  | io (fault : Fault) (path : Path)
  | content (error : Config.LoadError)

def LoadFailure.message (wording : Config.Wording) : LoadFailure → Text
  | io fault path => fault.message path
  | content e => e.message wording

def loadConfig (o : Options) (tree : FileTree) : Except LoadFailure Config :=
  if o.config.isEmpty then .ok { Config.standard with indent := true }
  else
    let path := Path.ofText o.config
    match tree.read path with
    | .error fault => .error (.io fault path)
    | .ok bytes => (Config.ofBytes bytes).mapError .content

/-- Runs the command line on a file tree and an input. -/
def run (wording : Config.Wording) (o : Options) (tree : FileTree) (input : Text) : Step :=
  let s : Session := ⟨tree, input.unifyLineEnds, [], [], 0⟩
  match loadConfig o tree with
  | .error e =>
    (s.report (Text.ofString "cannot load config " ++ o.config) (e.message wording), none)
  | .ok config =>
    let config := if o.noIndent then { config with indent := false } else config
    runPaths o config (if o.oneLine then .oneLine else .multiLine) o.paths s

end SexpLayout.CommandLine
