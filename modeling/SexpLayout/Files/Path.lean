import SexpLayout.Text.Basic

/-!
# Paths

A path is a root, empty for a relative path, and a list of names.  Repeated and final slashes and
the name `.` make no difference; the name `..` is kept.
-/

namespace SexpLayout

/-- A root and the names below it. -/
structure Path where
  root : Text
  names : List Text
  deriving DecidableEq, Repr

namespace Path

/-- The names in a text, without the empty ones and `.`. -/
def namesOf (t : Text) : List Text :=
  (t.splitOn '/').filter fun name => name ≠ [] && name ≠ ['.']

/-- The root of a path: two slashes are a root of their own, more are the same as one. -/
def rootOf : Text → Text
  | '/' :: '/' :: '/' :: _ => ['/']
  | '/' :: '/' :: _ => ['/', '/']
  | '/' :: _ => ['/']
  | _ => []

def ofText (t : Text) : Path := ⟨rootOf t, namesOf t⟩

/-- A path written out; the empty path is the dot. -/
def text (p : Path) : Text :=
  match p.root, p.names with
  | [], [] => ['.']
  | root, names => root ++ Text.join ['/'] names

def isRelative (p : Path) : Bool := p.root.isEmpty

def below (p : Path) (names : List Text) : Path := ⟨p.root, p.names ++ names⟩

/-- The order of lists of names, name by name. -/
def namesPrecede : List Text → List Text → Bool
  | [], _ => true
  | _ :: _, [] => false
  | a :: as, b :: bs => if a = b then namesPrecede as bs else a.precedes b

/-- The order of paths under one root, name by name. -/
def precedes (p q : Path) : Bool := namesPrecede p.names q.names

end Path

end SexpLayout
