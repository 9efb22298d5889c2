import SexpLayout.Json.Basic
import SexpLayout.Number.Shortest

/-!
# How messages show JSON values

Messages show `None`, `True` and `False`, integers in decimal, other numbers in their shortest
decimal (positionally from `0.0001` up to below `10 ^ 16`), texts in quotes, lists in brackets and
objects in braces.
-/

namespace SexpLayout.Json

/-- The exponent of a number in scientific form, with its sign and at least two digits. -/
def exponentText (e : Int) : Text :=
  let ds := Nat.toDigits 10 e.natAbs
  (if e < 0 then '-' else '+') :: (List.replicate (2 - ds.length) '0' ++ ds)

/-- The decimal `0.d₁d₂… * 10 ^ p`. -/
def decimalText (ds : Text) (p : Int) : Text :=
  if p ≤ -4 || 16 < p then
    match ds with
    | [] => ['0']
    | [d] => d :: 'e' :: exponentText (p - 1)
    | d :: rest => d :: '.' :: rest ++ 'e' :: exponentText (p - 1)
  else if p ≤ 0 then '0' :: '.' :: List.replicate (-p).toNat '0' ++ ds
  else
    let whole := ds.take p.toNat ++ List.replicate (p.toNat - ds.length) '0'
    let fraction := ds.drop p.toNat
    whole ++ '.' :: (if fraction.isEmpty then ['0'] else fraction)

def floatText : Binary64 → Text
  | .nan => ['n', 'a', 'n']
  | .infinite negative => (if negative then ['-'] else []) ++ ['i', 'n', 'f']
  | .finite negative m e =>
    (if negative then ['-'] else []) ++
      if m = 0 then ['0', '.', '0']
      else decimalText (Binary64.shortest m e).1 (Binary64.shortest m e).2

mutual

def shown : Json → Text
  | null => Text.ofString "None"
  | bool true => Text.ofString "True"
  | bool false => Text.ofString "False"
  | int n => Text.ofInt n
  | float x => floatText x
  | str s => s.quoted
  | arr items => '[' :: Text.join [',', ' '] (shownItems items) ++ [']']
  | obj fields => '\x7b' :: Text.join [',', ' '] (shownFields fields) ++ ['\x7d']

def shownItems : List Json → List Text
  | [] => []
  | item :: items => shown item :: shownItems items

def shownFields : List (Letters × Json) → List Text
  | [] => []
  | (name, value) :: fields => (name.quoted ++ ':' :: ' ' :: shown value) :: shownFields fields

end

/-- A value as a name: a string as it is, anything else as it is shown. -/
def asName : Json → Letters
  | str s => s
  | value => Letters.ofText value.shown

def kindName : Json → String
  | null => "NoneType"
  | bool _ => "bool"
  | int _ => "int"
  | float _ => "float"
  | str _ => "str"
  | arr _ => "list"
  | obj _ => "object"

end SexpLayout.Json
