import SexpLayout.SkipTable

/-!
# Arities

The arity of a symbol is the number of arguments it keeps on its line when the skip table does not
know it.  `skipCount` asks the table first and then the arity.
-/

namespace SexpLayout

/-- The arity of each symbol, if it has one. -/
abbrev Arity := Text → Option Int

namespace Arity

def unknown : Arity := fun _ => none

/-- The usual arities of Emacs Lisp forms that the usual skip table does not name. -/
def standardCounts : List (String × Nat) :=
  [("prog1", 1), ("prog2", 2), ("save-restriction", 0), ("save-match-data", 0),
    ("save-current-buffer", 0), ("save-window-excursion", 0), ("with-temp-buffer", 0),
    ("with-output-to-string", 0), ("with-syntax-table", 1), ("with-no-warnings", 0),
    ("ignore-errors", 0), ("pcase", 1), ("pcase-let", 1), ("pcase-dolist", 1), ("cl-flet", 1),
    ("cl-labels", 1), ("cl-letf", 1), ("cl-block", 1), ("cl-case", 1),
    ("cl-destructuring-bind", 2), ("if-let", 2), ("when-let", 1), ("if-let*", 2),
    ("when-let*", 1), ("with-slots", 2), ("eval-when-compile", 0), ("eval-and-compile", 0)]

/-- The arities of a list of names, the first entry with a name counting. -/
def ofCounts (counts : List (Text × Nat)) : Arity := fun name =>
  (counts.find? fun p => p.1 == name).map fun p => (p.2 : Int)

def standard : Arity := ofCounts (standardCounts.map fun p => (Text.ofString p.1, p.2))

/-- The arities of `first`, and those of `second` for the symbols it does not know. -/
def orElse (first second : Arity) : Arity := fun name => (first name).or (second name)

end Arity

/-- The skip count of a symbol: from the table, or else its arity. -/
def skipCount (table : SkipTable) (arity : Arity) (name : Text) : Option Int :=
  match table.lookup name with
  | some n => some n
  | none => arity name

end SexpLayout
