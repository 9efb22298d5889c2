import SexpLayout.Json.Basic

/-!
# Reading JSON

`Json.read` reads a whole text as one value.  Beyond the standard it takes `NaN`, `Infinity` and
`-Infinity`.  Space, tab, line feed and carriage return may stand between tokens, and nothing else;
a control character in a string is refused.  A field that is written twice has the last value, at
the place of the first.  An integer has at most `maxDigits` digits; what is wrong first is reported.

Each function takes one piece off the front of a text and hands back what is left.  The nesting of
values is bounded by fuel, of which `read` has more than the text can use.
-/

namespace SexpLayout.Json

/-- Why a text cannot be read: it is not JSON, or it writes an integer with too many digits. -/
inductive Failure where
  | malformed
  | longInteger (digits : Nat)
  deriving DecidableEq, Repr

def maxDigits : Nat := 4300

/-- A piece that has to be there. -/
def demand {α : Type} : Option α → Except Failure α
  | some a => .ok a
  | none => .error .malformed

/-- The text behind the blanks that JSON allows. -/
def dropBlanks (t : Text) : Text :=
  t.dropWhile fun c => c = ' ' || c = '\t' || c = '\n' || c = '\r'

def isDigit (c : Char) : Bool := '0' ≤ c && c ≤ '9'

def digitsValue (ds : Text) : Nat := ds.foldl (fun n d => 10 * n + (d.toNat - '0'.toNat)) 0

/-! ### strings -/

def hexDigit? (c : Char) : Option Nat :=
  if isDigit c then some (c.toNat - '0'.toNat)
  else if 'a' ≤ c && c ≤ 'f' then some (c.toNat - 'a'.toNat + 10)
  else if 'A' ≤ c && c ≤ 'F' then some (c.toNat - 'A'.toNat + 10)
  else none

def codeUnit? (a b c d : Char) : Option Nat := do
  return ((← hexDigit? a) * 16 + (← hexDigit? b)) * 256 + ((← hexDigit? c) * 16 + (← hexDigit? d))

def isHighHalf (u : Nat) : Bool := 0xD800 ≤ u && u < 0xDC00

def isLowHalf (u : Nat) : Bool := 0xDC00 ≤ u && u < 0xE000

def unitLetter (u : Nat) : Letter :=
  if isHighHalf u || isLowHalf u then .half u else .char (Char.ofNat u)

/-- The character that a letter stands for behind a backslash. -/
def escape? : Char → Option Char
  | '"' => some '"'
  | '\\' => some '\\'
  | '/' => some '/'
  | 'b' => some '\x08'
  | 'f' => some '\x0c'
  | 'n' => some '\n'
  | 'r' => some '\r'
  | 't' => some '\t'
  | _ => none

/-- The code units of a string whose opening quote has been read, and what is left behind its
closing quote.  A character that is written as itself counts as one unit. -/
def stringUnits? : Text → Option (List Nat × Text)
  | [] => none
  | '"' :: cs => some ([], cs)
  | '\\' :: 'u' :: a :: b :: c :: d :: cs => do
    let u ← codeUnit? a b c d
    let (us, rest) ← stringUnits? cs
    return (u :: us, rest)
  | '\\' :: c :: cs => do
    let e ← escape? c
    let (us, rest) ← stringUnits? cs
    return (e.toNat :: us, rest)
  | c :: cs =>
    if c.toNat < 0x20 then none
    else do
      let (us, rest) ← stringUnits? cs
      return (c.toNat :: us, rest)

/-- The letters of some code units: the two halves of a surrogate pair make up one character. -/
def ofUnits : List Nat → Letters
  | [] => []
  | [u] => [unitLetter u]
  | u :: v :: us =>
    if isHighHalf u && isLowHalf v then
      .char (Char.ofNat (0x10000 + (u - 0xD800) * 0x400 + (v - 0xDC00))) :: ofUnits us
    else unitLetter u :: ofUnits (v :: us)

def readString? (t : Text) : Option (Letters × Text) := do
  let (us, rest) ← stringUnits? t
  return (ofUnits us, rest)

/-! ### numbers -/

/-- The digits of a whole number: a zero alone, or digits that start with another digit. -/
def wholeDigits? : Text → Option (Text × Text)
  | '0' :: cs => some (['0'], cs)
  | cs => if (cs.takeWhile isDigit).isEmpty then none
    else some (cs.takeWhile isDigit, cs.dropWhile isDigit)

/-- The digits behind a point; without a digit, the point is not part of the number. -/
def fractionDigits : Text → Text × Text
  | '.' :: cs =>
    if (cs.takeWhile isDigit).isEmpty then ([], '.' :: cs)
    else (cs.takeWhile isDigit, cs.dropWhile isDigit)
  | cs => ([], cs)

/-- The exponent, with its sign; without a digit, there is none. -/
def exponentPart? : Text → Option (Int × Text)
  | c :: cs =>
    if c = 'e' || c = 'E' then
      let (negative, cs) := match cs with
        | '-' :: cs => (true, cs)
        | '+' :: cs => (false, cs)
        | cs => (false, cs)
      let ds := cs.takeWhile isDigit
      let n : Int := digitsValue ds
      if ds.isEmpty then none else some (if negative then -n else n, cs.dropWhile isDigit)
    else none
  | [] => none

def readInteger (negative : Bool) (digits : Text) : Except Failure Json :=
  if maxDigits < digits.length then .error (.longInteger digits.length)
  else .ok (int (if negative then -digitsValue digits else digitsValue digits))

/-- A number: an integer, unless it has a fraction or an exponent. -/
def readNumber (t : Text) : Except Failure (Json × Text) := do
  let (negative, t) := match t with
    | '-' :: cs => (true, cs)
    | cs => (false, cs)
  let (whole, t) ← demand (wholeDigits? t)
  let (fraction, t) := fractionDigits t
  match exponentPart? t, fraction with
  | none, [] => return (← readInteger negative whole, t)
  | none, _ => return (float (value negative whole fraction 0), t)
  | some (e, t), _ => return (float (value negative whole fraction e), t)
where
  /-- The number nearest to the decimal. -/
  value (negative : Bool) (whole fraction : Text) (e : Int) : Binary64 :=
    Binary64.ofDecimal negative (digitsValue (whole ++ fraction)) (e - fraction.length)

/-! ### values -/

def words : List (String × Json) :=
  [("null", null), ("true", bool true), ("false", bool false), ("NaN", float .nan),
    ("Infinity", float (.infinite false)), ("-Infinity", float (.infinite true))]

def readWord? (t : Text) : Option (Json × Text) :=
  words.findSome? fun w => (Text.dropLead? (Text.ofString w.1) t).map fun rest => (w.2, rest)

mutual

def readValue : (fuel : Nat) → Text → Except Failure (Json × Text)
  | 0, _ => .error .malformed
  | fuel + 1, t =>
    match t with
    | '"' :: cs => do
      let (s, rest) ← demand (readString? cs)
      return (str s, rest)
    | '[' :: cs =>
      match dropBlanks cs with
      | ']' :: rest => .ok (arr [], rest)
      | cs => do
        let (items, rest) ← readItems fuel cs
        return (arr items, rest)
    | '\x7b' :: cs =>
      match dropBlanks cs with
      | '\x7d' :: rest => .ok (obj [], rest)
      | cs => do
        let (fields, rest) ← readFields fuel [] cs
        return (obj fields, rest)
    | t =>
      match readWord? t with
      | some found => .ok found
      | none => readNumber t

/-- The items of a list, of which there is at least one, up to the closing bracket. -/
def readItems : (fuel : Nat) → Text → Except Failure (List Json × Text)
  | 0, _ => .error .malformed
  | fuel + 1, t => do
    let (item, rest) ← readValue fuel t
    match dropBlanks rest with
    | ']' :: rest => return ([item], rest)
    | ',' :: rest =>
      let (items, rest) ← readItems fuel (dropBlanks rest)
      return (item :: items, rest)
    | _ => .error .malformed

/-- The fields of an object, of which there is at least one more, up to the closing brace. -/
def readFields : (fuel : Nat) → List (Letters × Json) → Text →
    Except Failure (List (Letters × Json) × Text)
  | 0, _, _ => .error .malformed
  | fuel + 1, fields, t =>
    match t with
    | '"' :: cs => do
      let (name, rest) ← demand (readString? cs)
      match dropBlanks rest with
      | ':' :: rest =>
        let (value, rest) ← readValue fuel (dropBlanks rest)
        let fields := insertField name value fields
        match dropBlanks rest with
        | '\x7d' :: rest => return (fields, rest)
        | ',' :: rest => readFields fuel fields (dropBlanks rest)
        | _ => .error .malformed
      | _ => .error .malformed
    | _ => .error .malformed

end

def read (t : Text) : Except Failure Json := do
  let (value, rest) ← readValue (2 * t.length + 2) (dropBlanks t)
  if (dropBlanks rest).isEmpty then return value else .error .malformed

end SexpLayout.Json
