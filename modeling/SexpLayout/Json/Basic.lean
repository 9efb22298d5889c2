import SexpLayout.Json.Letters
import SexpLayout.Number.Binary64

/-!
# JSON values

The values of JSON texts.  Integers are exact and are told apart from numbers with a fraction or an
exponent.  The fields of an object keep the order in which they were first written.
-/

namespace SexpLayout

inductive Json where
  | null
  | bool (b : Bool)
  | int (n : Int)
  | float (x : Binary64)
  | str (s : Letters)
  | arr (items : List Json)
  | obj (fields : List (Letters × Json))

namespace Json

def field? (fields : List (Letters × Json)) (name : Text) : Option Json :=
  (fields.find? fun p => p.1 == Letters.ofText name).map Prod.snd

theorem field?_cons (name : Letters) (value : Json) (fields : List (Letters × Json)) (text : Text) :
    field? ((name, value) :: fields) text =
      if name = Letters.ofText text then some value else field? fields text := by
  by_cases h : name = Letters.ofText text <;> simp [field?, h]

/-- The fields with one more: a name that is there already keeps its place and gets the new
value. -/
def insertField (name : Letters) (value : Json) : List (Letters × Json) → List (Letters × Json)
  | [] => [(name, value)]
  | (n, v) :: rest => if n = name then (n, value) :: rest else (n, v) :: insertField name value rest

/-- The values that count as set: all but false, null, zero, and what is empty. -/
def isSet : Json → Bool
  | null => false
  | bool b => b
  | int n => n ≠ 0
  | float x => x.isNonzero
  | str s => !s.isEmpty
  | arr items => !items.isEmpty
  | obj fields => !fields.isEmpty

def count? : Json → Option Nat
  | int (.ofNat n) => some n
  | _ => none

end Json

end SexpLayout
