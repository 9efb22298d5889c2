import SexpLayout.Files.Pattern
import SexpLayout.Text.Numeral

/-!
# Options

The arguments of the command line are options and paths.

* An option may be shortened as long as only one option starts that way.
* A value follows its option, or stands behind an equals sign; a flag takes no value.
* Flags of one letter may be written together, `-vv` or `-v=v`.
* The paths stand together, in one run.
* Behind `--` every argument is a path, and the first `--` among the paths is dropped.

First every argument is classified by itself (`Argument.ofText`), then they are taken in order.  So
an ambiguous option is refused before anything is taken, and a misused one only when it is its turn.
-/

namespace SexpLayout.CommandLine

inductive Flag where
  | help
  | oneLine
  | check
  | stdout
  | noIndent
  | verbose
  | config
  | pattern
  deriving DecidableEq, Repr

def Flag.takesValue : Flag → Bool
  | config | pattern => true
  | _ => false

def spellings : List (String × Flag) :=
  [("-h", .help), ("--help", .help), ("--one-line", .oneLine), ("--check", .check),
    ("--stdout", .stdout), ("--config", .config), ("--no-indent", .noIndent),
    ("--pattern", .pattern), ("-v", .verbose), ("--verbose", .verbose)]

/-- What the arguments ask for. -/
structure Options where
  oneLine : Bool := false
  check : Bool := false
  stdout : Bool := false
  noIndent : Bool := false
  verbose : Bool := false
  config : Text := []
  pattern : Text := Pattern.standard
  paths : List Text := []
  deriving DecidableEq, Repr

/-- The arguments ask for help, or cannot be understood. -/
inductive Refusal where
  | help
  | usage
  deriving DecidableEq, Repr

def Options.set (o : Options) : Flag → Options
  | .oneLine => { o with oneLine := true }
  | .check => { o with check := true }
  | .stdout => { o with stdout := true }
  | .noIndent => { o with noIndent := true }
  | .verbose => { o with verbose := true }
  | _ => o

/-- The options with the value of an option.  The divider `--` is no value; it leaves the value
empty. -/
def Options.setValue (o : Options) (flag : Flag) (value : Text) : Options :=
  let value := if value = ['-', '-'] then [] else value
  match flag with
  | .config => { o with config := value }
  | .pattern => { o with pattern := value }
  | _ => o

inductive Argument where
  /-- A path, or the value of an option. -/
  | plain (text : Text)
  /-- The mark behind which all arguments are plain. -/
  | divider
  /-- An option, with the value behind its equals sign. -/
  | option (flag : Flag) (value : Option Text)
  /-- A flag of one letter with more letters behind it. -/
  | cluster (flag : Flag) (letters : Text)
  /-- An option that there is not. -/
  | unknown
  deriving DecidableEq, Repr

namespace Argument

/-- The digits and the point of a number. -/
def isUnsignedNumber (t : Text) : Bool :=
  match t.dropWhile isDecimalDigit with
  | [] => !t.isEmpty
  | '.' :: ds => !ds.isEmpty && ds.all isDecimalDigit
  | _ => false

/-- An argument that starts with a dash and writes a number; one line end may follow it. -/
def isNegativeNumber : Text → Bool
  | '-' :: cs => isUnsignedNumber (if cs.getLast? = some '\n' then cs.dropLast else cs)
  | _ => false

/-- The text before the first equals sign, and the text behind it if there is one. -/
def splitValue (t : Text) : Text × Option Text :=
  match t.dropWhile (· ≠ '=') with
  | [] => (t, none)
  | _ :: value => (t.takeWhile (· ≠ '='), some value)

def spelled? (t : Text) : Option Flag :=
  (spellings.find? fun s => Text.ofString s.1 == t).map Prod.snd

def startingWith (t : Text) : List Flag :=
  (spellings.filter fun s => t.isPrefixOf (Text.ofString s.1)).map Prod.snd

/-- The letters behind the first one of an argument with a single dash.  An equals sign right behind
the first one does not count. -/
def lettersBehind : Text → Text
  | '=' :: cs => cs
  | cs => cs

/-- The flags of some letters, of which there is at least one. -/
def letters? (t : Text) : Option (List Flag) :=
  if t.isEmpty then none else t.mapM fun c => spelled? ['-', c]

/-- Classifies an argument before the divider.  The error is an option that is not shortened
unambiguously. -/
def ofText (t : Text) : Except Refusal Argument :=
  match t, spelled? t, splitValue t with
  | _, some flag, _ => .ok (.option flag none)
  | '-' :: '-' :: _, none, (name, value) =>
    match spelled? name, startingWith name with
    | some flag, _ => .ok (.option flag value)
    | none, [flag] => .ok (.option flag value)
    | none, _ :: _ :: _ => .error .usage
    | none, [] => .ok (if t.contains ' ' then .plain t else .unknown)
  | '-' :: c :: cs, none, _ =>
    match spelled? ['-', c] with
    | some flag => .ok (.cluster flag (lettersBehind cs))
    | none => .ok (if isNegativeNumber t || t.contains ' ' then .plain t else .unknown)
  | _, none, _ => .ok (.plain t)

/-- Classifies the arguments in order; behind the divider all are plain. -/
def ofTexts : List Text → Except Refusal (List Argument)
  | [] => .ok []
  | t :: ts =>
    if t = ['-', '-'] then .ok (.divider :: ts.map .plain)
    else do
      let a ← ofText t
      let rest ← ofTexts ts
      return a :: rest

def path? : Argument → Option Text
  | plain t => some t
  | divider => some ['-', '-']
  | _ => none

def isPath (a : Argument) : Bool := a.path?.isSome

end Argument

/-- What has been understood so far: the options, whether the paths have been taken, and whether
something is left over. -/
structure Progress where
  options : Options
  taken : Bool
  leftOver : Bool

/-- Takes a run of paths.  It needs one plain argument at least, and only the first run is taken. -/
def Progress.takePaths (p : Progress) (run : List Argument) : Progress :=
  let hasPath := run.any fun a => a ≠ .divider
  if p.taken || !hasPath then { p with leftOver := true }
  else
    { p with
      options := { p.options with paths := (run.filterMap Argument.path?).erase ['-', '-'] }
      taken := true }

/-- Sets flags one after the other; help comes before all that follows. -/
def Progress.setFlags (p : Progress) : List Flag → Except Refusal Progress
  | [] => .ok p
  | .help :: _ => .error .help
  | flag :: flags => { p with options := p.options.set flag }.setFlags flags

def takeArguments (p : Progress) : List Argument → Except Refusal Progress
  | [] => .ok p
  | .option flag (some v) :: rest =>
    if flag.takesValue then takeArguments { p with options := p.options.setValue flag v } rest
    else .error .usage
  | .option flag none :: rest =>
    if flag.takesValue then
      match rest with
      | .plain v :: rest => takeArguments { p with options := p.options.setValue flag v } rest
      | _ => .error .usage
    else do takeArguments (← p.setFlags [flag]) rest
  | .cluster flag letters :: rest =>
    match Argument.letters? letters with
    | some flags => do takeArguments (← p.setFlags (flag :: flags)) rest
    | none => .error .usage
  | .unknown :: rest => takeArguments { p with leftOver := true } rest
  | .plain t :: rest =>
    takeArguments (p.takePaths (.plain t :: rest.takeWhile Argument.isPath))
      (rest.dropWhile Argument.isPath)
  | .divider :: rest =>
    takeArguments (p.takePaths (.divider :: rest.takeWhile Argument.isPath))
      (rest.dropWhile Argument.isPath)
termination_by args => args.length
decreasing_by
  all_goals
    have := (List.dropWhile_sublist (l := rest) Argument.isPath).length_le
    simp only [List.length_cons]
    omega

def Options.ofArguments (args : List Text) : Except Refusal Options := do
  let arguments ← Argument.ofTexts args
  let p ← takeArguments ⟨{}, false, false⟩ arguments
  if p.taken && !p.leftOver then return p.options else .error .usage

end SexpLayout.CommandLine
