import SexpLayout.Arity

/-!
# Configurations

What a user can set: the skip counts, the arities, and the indentation.
-/

namespace SexpLayout

structure Config where
  /-- The skip counts of symbols. -/
  skipTable : SkipTable
  /-- The arities of symbols that the skip table does not know. -/
  arity : Arity
  /-- A setting that configuration files carry; no layout depends on it. -/
  newlineThreshold : Nat
  /-- Whether formatted lists are indented. -/
  indent : Bool
  /-- How far a line is indented behind its innermost open bracket; below zero, how far in front
  of it.  Only a configuration that is not read from JSON can have a width below zero. -/
  indentWidth : Int

namespace Config

/-- The line length that a configuration carries unless it names another. -/
def standardThreshold : Nat := 40

def standardWidth : Nat := 2

/-- The usual skip counts and arities, without indentation. -/
def standard : Config where
  skipTable := .standard
  arity := .standard
  newlineThreshold := standardThreshold
  indent := false
  indentWidth := standardWidth

instance : Inhabited Config := ⟨standard⟩

end Config

end SexpLayout
