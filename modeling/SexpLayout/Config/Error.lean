import SexpLayout.Json.Printer

/-!
# Configuration errors

Why a JSON value is not a configuration.
-/

namespace SexpLayout

/-- Why a JSON value is not a configuration. -/
inductive ConfigError where
  /-- The value is not an object. -/
  | notObject (got : Json)
  /-- The skip table is neither an object nor a list. -/
  | tableShape
  /-- An item of the skip table is not a pair. -/
  | entryShape (item : Json)
  /-- A skip count is not a natural number. -/
  | skipCount (name : Json) (got : Json)
  /-- The arities are not an object. -/
  | arityShape
  /-- An arity is not a natural number. -/
  | arityCount (name : Letters) (got : Json)
  /-- A setting is not a natural number. -/
  | setting (name : String) (got : Json)

namespace ConfigError

def countDemand (got : Json) : Text :=
  Text.ofString " must be a non-negative integer, got " ++ got.shown

def message : ConfigError → Text
  | notObject got =>
    Text.ofString "config must be a JSON object, got " ++ Text.ofString got.kindName
  | tableShape => Text.ofString "skip_table must be an object or a list of [name, count] pairs"
  | entryShape item =>
    Text.ofString "skip_table entries must be [name, count] pairs, got " ++ item.shown
  | skipCount name got => Text.ofString "skip count for " ++ name.shown ++ countDemand got
  | arityShape => Text.ofString "arity must map symbol names to integers"
  | arityCount name got => Text.ofString "arity for " ++ name.quoted ++ countDemand got
  | setting name got => Text.ofString name ++ countDemand got

end ConfigError

end SexpLayout
