import SexpLayout.Config.Basic
import SexpLayout.Config.Error
import SexpLayout.Json.Reader

/-!
# Configurations as JSON

A configuration is written as an object.  The entries of its skip table come before the usual ones,
or instead of them if `replace_skip_table` is set; its arities come before the usual ones.  What is
wrong is reported in a fixed order: the shape of the skip table, the arities, the two numbers, and
last the counts of the skip table.
-/

namespace SexpLayout

namespace SkipTable

/-- The table of some names and counts; the first count that is not a natural number is the
error. -/
def ofPairs : List (Json × Json) → Except ConfigError SkipTable
  | [] => .ok ⟨[]⟩
  | (name, count) :: pairs =>
    match count.count? with
    | none => .error (.skipCount name count)
    | some n => do
      let table ← ofPairs pairs
      return ⟨⟨name.asName, n⟩ :: table.entries⟩

def pairsOfFields (fields : List (Letters × Json)) : List (Json × Json) :=
  fields.map fun p => (.str p.1, p.2)

def pairsOfItems : List Json → Except ConfigError (List (Json × Json))
  | [] => .ok []
  | .arr [name, count] :: items => do
    let pairs ← pairsOfItems items
    return (name, count) :: pairs
  | item :: _ => .error (.entryShape item)

/-- The names and counts that a value writes: as an object or as a list of pairs. -/
def pairsOfJson : Json → Except ConfigError (List (Json × Json))
  | .obj fields => .ok (pairsOfFields fields)
  | .arr items => pairsOfItems items
  | _ => .error .tableShape

end SkipTable

namespace Arity

/-- The arities of an object; the first that is not a natural number is the error. -/
def countsOfFields : List (Letters × Json) → Except ConfigError (List (Text × Nat))
  | [] => .ok []
  | (name, value) :: fields =>
    match value.count? with
    | none => .error (.arityCount name value)
    | some n => do
      let counts ← countsOfFields fields
      match name.text? with
      | some symbol => return (symbol, n) :: counts
      | none => return counts

/-- The arities that a configuration writes, before the usual ones. -/
def ofJson (value : Json) : Except ConfigError Arity :=
  if !value.isSet then .ok standard
  else match value with
    | .obj fields => do
      let counts ← countsOfFields fields
      return (ofCounts counts).orElse standard
    | _ => .error .arityShape

end Arity

namespace Config

/-- A setting that is a natural number, or its usual value if it is not written. -/
def countSetting (fields : List (Letters × Json)) (name : String) (usual : Nat) :
    Except ConfigError Nat :=
  match Json.field? fields (Text.ofString name) with
  | none => .ok usual
  | some value =>
    match value.count? with
    | some n => .ok n
    | none => .error (.setting name value)

/-- The setting is written and counts as set. -/
def flagSetting (fields : List (Letters × Json)) (name : String) : Bool :=
  ((Json.field? fields (Text.ofString name)).map Json.isSet).getD false

def ofFields (fields : List (Letters × Json)) : Except ConfigError Config := do
  let pairs ← SkipTable.pairsOfJson
      ((Json.field? fields (Text.ofString "skip_table")).getD (.arr []))
  let arity ← Arity.ofJson ((Json.field? fields (Text.ofString "arity")).getD .null)
  let threshold ← countSetting fields "newline_threshold" standardThreshold
  let width ← countSetting fields "indent_width" standardWidth
  let table ← SkipTable.ofPairs pairs
  return {
    skipTable :=
      if flagSetting fields "replace_skip_table" then table
      else ⟨table.entries ++ SkipTable.standard.entries⟩
    arity := arity
    newlineThreshold := threshold
    indent := flagSetting fields "indent"
    indentWidth := width }

def ofJson : Json → Except ConfigError Config
  | .obj fields => ofFields fields
  | value => .error (.notObject value)

/-- What a caller gives for a configuration. -/
inductive Given where
  | nothing
  | written (value : Json)
  | ready (config : Config)

/-- The configuration that a caller means: the usual one if nothing is given. -/
def Given.coerce : Given → Except ConfigError Config
  | nothing => .ok .standard
  | written value => ofJson value
  | ready config => .ok config

theorem coerce_empty : (Given.written (.obj [])).coerce = Given.nothing.coerce := rfl

/-- Why a file holds no configuration: it is not UTF-8, it cannot be read as JSON, or its value is
not a configuration. -/
inductive LoadError where
  | undecodable (bytes : ByteArray)
  | unreadable (text : Text) (failure : Json.Failure)
  | invalid (error : ConfigError)

/-- What the decoders of the host say of bytes that are not UTF-8, and of a text that is not
JSON. -/
structure Wording where
  undecodable : ByteArray → Text
  malformed : Text → Text

def LoadError.message (wording : Wording) : LoadError → Text
  | undecodable bytes => wording.undecodable bytes
  | unreadable text .malformed => wording.malformed text
  | unreadable _ (.longInteger digits) =>
    Text.ofString "Exceeds the limit (" ++ Text.ofNat Json.maxDigits ++
      Text.ofString " digits) for integer string conversion: value has " ++ Text.ofNat digits ++
      Text.ofString " digits; use sys.set_int_max_str_digits() to increase the limit"
  | invalid error => error.message

def ofText (text : Text) : Except LoadError Config :=
  match Json.read text with
  | .error failure => .error (.unreadable text failure)
  | .ok value =>
    match ofJson value with
    | .ok config => .ok config
    | .error e => .error (.invalid e)

def ofBytes (bytes : ByteArray) : Except LoadError Config :=
  match String.fromUTF8? bytes with
  | none => .error (.undecodable bytes)
  | some s => ofText s.toList

end Config

end SexpLayout
