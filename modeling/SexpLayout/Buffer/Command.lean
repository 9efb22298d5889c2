import SexpLayout.Buffer.Basic
import SexpLayout.Config.Json
import SexpLayout.Format.Form

/-!
# Editing commands

The commands work on the list around the point: the innermost one to collapse or expand it, the one
at the top to format it.  A command works on the buffer itself (`Edit`), but it stages the new text
first, so that it fails before it has assigned anything.
-/

namespace SexpLayout.Buffer

/-- Where a list starts and stops. -/
abbrev Span := Nat × Nat

inductive CommandError where
  | config (error : ConfigError)
  | read (error : ReadError)
  | noEnclosingList (point : Int)
  | noTopLevelForm (point : Int)
  | pointOutside

def CommandError.message : CommandError → Text
  | config e => e.message
  | read e => e.message
  | noEnclosingList point =>
    Text.ofString "no enclosing list at offset " ++ Text.ofInt point
  | noTopLevelForm point =>
    Text.ofString "no top-level form at offset " ++ Text.ofInt point
  | pointOutside => Text.ofString "string index out of range"

inductive Command where
  /-- Spread every list at the top over lines. -/
  | formatBuffer
  /-- Spread the list at the top around the point over lines. -/
  | formatCurrentForm
  /-- Spread the innermost list around the point over lines. -/
  | expand
  /-- Put the innermost list around the point on one line, and the lists in it too if `deep`. -/
  | collapse (deep : Bool)
  /-- Replace the text between two offsets. -/
  | replace (start stop : Int) (new : Text)
  /-- Move the point. -/
  | goto (point : Int)

/-- The innermost list around a point: of the lists that hold the point the last to open. -/
def enclosingList (text : Text) (point : Int) : Except CommandError Span :=
  match Forms.spansOf text with
  | .error e => .error (.read e)
  | .ok spans =>
    match (spans.filter fun s => s.1 ≤ point && point < s.2).getLast? with
    | some span => .ok span
    | none => .error (.noEnclosingList point)

/-- The first list at the top that holds a point or stops there. -/
def topLevelForm (text : Text) (point : Int) : Except CommandError Span :=
  match Passage.ofDocument text with
  | .error e => .error (.read e)
  | .ok p =>
    match p.lexemes.find? fun l => l.kind = .compound && l.start ≤ point && point ≤ l.stop with
    | some l => .ok (l.start, l.stop)
    | none => .error (.noTopLevelForm point)

/-- A command at work on a buffer.  What it has assigned to the buffer stays, also if it fails
afterwards. -/
abbrev Edit := ExceptT CommandError (StateM Buffer)

/-- How an edit ends, and the buffer it leaves behind. -/
def Edit.on {α : Type} (edit : Edit α) (b : Buffer) : Except CommandError α × Buffer :=
  edit.run.run b

/-- Replaces the text between two offsets.  The text is assigned first, and then the point, which is
put back to the code where it was.  It must not lie behind the end of the text. -/
def replaceRegion (start stop : Int) (new : Text) : Edit Unit := do
  match (← get).anchor? with
  | none => throw .pointOutside
  | some anchor =>
    modify fun b => { b with text := b.text.before start ++ new ++ b.text.since stop }
    modify fun b => { b with point := anchor.offset b.text }

def formatSpan (config : Config) (mode : Mode) (deep : Bool) (span : Span) : Edit Unit := do
  let text := (← get).text
  match (formatAt config mode deep (text.columnAt span.1) (text.slice span.1 span.2)).outcome with
  | .error e => throw (.read e)
  | .ok new => replaceRegion span.1 span.2 new

def formatAll (config : Config) : Edit Unit := do
  let text := (← get).text
  match (formatText config .multiLine text).outcome with
  | .error e => throw (.read e)
  | .ok new => replaceRegion 0 text.length new

/-- A valid configuration, or the failure of the command that needs it. -/
def valid (config : Except ConfigError Config) : Except CommandError Config :=
  match config with
  | .ok config => .ok config
  | .error e => .error (.config e)

def perform (config : Except ConfigError Config) : Command → Edit Unit
  | .formatBuffer => do formatAll (← valid config)
  | .formatCurrentForm => do
    let config ← valid config
    let b ← get
    formatSpan config .multiLine true (← topLevelForm b.text b.point)
  | .expand => do
    let config ← valid config
    let b ← get
    formatSpan config .multiLine true (← enclosingList b.text b.point)
  | .collapse deep => do
    let config ← valid config
    let b ← get
    formatSpan config .oneLine deep (← enclosingList b.text b.point)
  | .replace start stop new => replaceRegion start stop new
  | .goto point => modify fun b => { b with point := point }

/-- The buffer after a command that succeeds. -/
def run (config : Except ConfigError Config) (b : Buffer) (command : Command) :
    Except CommandError Buffer :=
  let (outcome, b') := (perform config command).on b
  outcome.map fun _ => b'

/-- The buffer that a command leaves behind, whether it succeeds or not. -/
def step (config : Except ConfigError Config) (b : Buffer) (command : Command) : Buffer :=
  ((perform config command).on b).2

end SexpLayout.Buffer
