import SexpLayout.Json.Letters

/-!
# Skip tables

The skip count of a symbol says how many line breaks behind it, as the head of a list, are folded
back onto the line of the head.  A skip table is a list of entries in which the first one with a
name counts; later entries with the name are never looked at.
-/

namespace SexpLayout

/-- A name and its skip count.  A name that is not a text is no symbol's name. -/
structure SkipEntry where
  letters : Letters
  count : Nat
  deriving DecidableEq, Repr

/-- The name of an entry in print, with the replacement character for what is no character. -/
def SkipEntry.name (e : SkipEntry) : Text := e.letters.text

/-- Skip counts by name, the first entry with a name first. -/
structure SkipTable where
  entries : List SkipEntry
  deriving DecidableEq, Repr

namespace SkipTable

def lookup (table : SkipTable) (name : Text) : Option Nat :=
  (table.entries.find? fun e => e.letters == Letters.ofText name).map SkipEntry.count

def contains (table : SkipTable) (name : Text) : Bool :=
  table.entries.any fun e => e.letters == Letters.ofText name

/-- The usual skip counts of Emacs Lisp. -/
def standardCounts : List (String × Nat) :=
  [("and", 1), ("or", 1), ("not", 1), ("if", 1), ("when", 1), ("unless", 1), ("while", 1),
    ("cond", 0), ("progn", 0), ("save-excursion", 0), ("let", 1), ("let*", 1), ("lambda", 1),
    ("dolist", 1), ("dotimes", 1), ("catch", 1), ("condition-case", 2), ("unwind-protect", 1),
    ("with-current-buffer", 1), ("defun", 2), ("defmacro", 2), ("defsubst", 2), ("defvar", 2),
    ("defconst", 2), ("defcustom", 2), ("defface", 2), ("defgroup", 2), ("define-key", 2),
    ("global-set-key", 2), ("add-hook", 2), ("add-to-list", 2), ("setq", 2), ("setq-default", 2),
    ("setf", 2), ("equal", 2), ("eq", 2), ("string-match", 2), ("concat", 1), ("format", 1),
    ("message", 1), ("funcall", 2), ("apply", 2), ("mapcar", 2), ("mapc", 2), ("nth", 2),
    ("car", 1), ("cdr", 1), ("buffer-substring", 2), ("buffer-substring-no-properties", 2),
    ("with-eval-after-load", 1)]

def standard : SkipTable :=
  ⟨standardCounts.map fun p => ⟨Letters.ofText (Text.ofString p.1), p.2⟩⟩

instance : Inhabited SkipTable := ⟨standard⟩

/-- How a table is shown: by its size. -/
def summary (table : SkipTable) : Text :=
  Text.ofString "SkipTable(" ++ Text.ofNat table.entries.length ++ Text.ofString " entries)"

end SkipTable

end SexpLayout
