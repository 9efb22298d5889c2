import SexpLayout.Files.Tree

/-!
# Patterns of file names

A pattern is a list of parts between slashes.  In a part, `*` stands for any characters, `?` for
one, and brackets for one out of a set; a part without these stands for itself, and the part `**`
for any number of directories.  A pattern is searched for at every depth below a directory.
-/

namespace SexpLayout

namespace Pattern

/-- The pattern of Emacs Lisp files. -/
def standard : Text := ['*', '.', 'e', 'l']

/-- One character of a name. -/
inductive CharSet where
  | any
  | one (c : Char)
  | ranges (negated : Bool) (ranges : List (Char × Char))
  deriving DecidableEq, Repr

def CharSet.holds : CharSet → Char → Bool
  | any, _ => true
  | one d, c => c = d
  | ranges negated rs, c => (rs.any fun r => r.1 ≤ c && c ≤ r.2) != negated

/-- A piece of a name: any characters, or one out of a set. -/
inductive Piece where
  | star
  | char (set : CharSet)
  deriving DecidableEq, Repr

/-- The text and all that is left of it when characters are taken off its front. -/
def suffixes : Text → List Text
  | [] => [[]]
  | c :: cs => (c :: cs) :: suffixes cs

def spells : List Piece → Text → Bool
  | [], t => t.isEmpty
  | .star :: ps, t => (suffixes t).any (spells ps)
  | .char set :: ps, t =>
    match t with
    | [] => false
    | c :: cs => set.holds c && spells ps cs

/-- For each place in a list, whether something is true there or behind it. -/
def trueFrom : List Bool → List Bool
  | [] => []
  | b :: bs => (b || bs.any id) :: trueFrom bs

/-- For each suffix of a name, the longest first, whether the pieces spell it.  Every piece goes
over the name once, however many stars there are. -/
def spelledSuffixes : List Piece → Text → List Bool
  | [], t => t.map (fun _ => false) ++ [true]
  | .star :: ps, t => trueFrom (spelledSuffixes ps t)
  | .char set :: ps, t =>
    List.zipWith (fun c b => set.holds c && b) t (spelledSuffixes ps t).tail ++ [false]

def isSpelled (ps : List Piece) (name : Text) : Bool := (spelledSuffixes ps name).headD false

theorem trueFrom_map_suffixes (f : Text → Bool) (t : Text) :
    trueFrom ((suffixes t).map f) = (suffixes t).map fun u => (suffixes u).any f := by
  induction t with
  | nil => simp [suffixes, trueFrom]
  | cons c cs ih => simp [suffixes, trueFrom, ih, List.any_map]

theorem spelledSuffixes_eq (ps : List Piece) (t : Text) :
    spelledSuffixes ps t = (suffixes t).map (spells ps) := by
  induction ps with
  | nil =>
    induction t with
    | nil => simp [spelledSuffixes, suffixes, spells]
    | cons c cs ih => simpa [spelledSuffixes, suffixes, spells] using ih
  | cons p ps ih =>
    cases p with
    | star => simp only [spelledSuffixes, ih, trueFrom_map_suffixes, spells]
    | char set =>
      simp only [spelledSuffixes, ih]
      clear ih
      induction t with
      | nil => simp [suffixes, spells]
      | cons c cs ih =>
        cases cs with
        | nil => simp [suffixes, spells]
        | cons d ds => simpa [suffixes, spells] using ih

/-- The pass over the suffixes decides whether the pieces spell a name. -/
theorem isSpelled_eq_spells (ps : List Piece) (name : Text) :
    isSpelled ps name = spells ps name := by
  rw [isSpelled, spelledSuffixes_eq]
  cases name <;> simp [suffixes]

/-- What is written between brackets: a character, or a range of them. -/
inductive SetItem where
  | single (c : Char)
  | range (first last : Char)
  deriving DecidableEq, Repr

def SetItem.bounds : SetItem → Char × Char
  | single c => (c, c)
  | range first last => (first, last)

/-- The item is a range that runs backwards. -/
def SetItem.isEmpty (item : SetItem) : Bool := item.bounds.2 < item.bounds.1

/-- The items between brackets: `a-z` is a range, any other character stands for itself. -/
def itemsOf : Text → List SetItem
  | [] => []
  | a :: '-' :: b :: cs => .range a b :: itemsOf cs
  | c :: cs => .single c :: itemsOf cs

def setOfItems (negated : Bool) (items : List SetItem) : CharSet :=
  .ranges negated (items.map SetItem.bounds)

/-- The set that a text between brackets describes.  An exclamation mark in front negates it, also
when only empty ranges stand before it; if it is the start of a range there, the rest of the range
stands for itself. -/
def setOf : Text → CharSet
  | '!' :: cs => setOfItems true (itemsOf cs)
  | body =>
    match (itemsOf body).dropWhile SetItem.isEmpty with
    | .single '!' :: items => setOfItems true items
    | .range '!' last :: items => setOfItems true (.single '-' :: .single last :: items)
    | items => setOfItems false items

/-- The text up to a closing bracket, and what is left behind it. -/
def splitBracket? : Text → Option (Text × Text)
  | [] => none
  | ']' :: cs => some ([], cs)
  | c :: cs => (splitBracket? cs).map fun p => (c :: p.1, p.2)

/-- The text between brackets whose opening one has been read.  A closing bracket in front, also
behind an exclamation mark, belongs to the set. -/
def bracketBody? : Text → Option (Text × Text)
  | '!' :: ']' :: cs => (splitBracket? cs).map fun p => ('!' :: ']' :: p.1, p.2)
  | '!' :: cs => (splitBracket? cs).map fun p => ('!' :: p.1, p.2)
  | ']' :: cs => (splitBracket? cs).map fun p => (']' :: p.1, p.2)
  | cs => splitBracket? cs

theorem length_splitBracket? {t : Text} {p : Text × Text} (h : splitBracket? t = some p) :
    p.2.length < t.length := by
  induction t using splitBracket?.induct generalizing p with
  | case1 => cases h
  | case2 cs =>
    cases h
    simp
  | case3 c cs hc ih =>
    obtain ⟨q, hq, rfl⟩ := Option.map_eq_some_iff.1 (splitBracket?.eq_3 c cs hc ▸ h)
    have hlt := ih hq
    exact Nat.lt_succ_of_lt hlt

theorem length_bracketBody? {t : Text} {p : Text × Text} (h : bracketBody? t = some p) :
    p.2.length < t.length := by
  have hmap : ∀ {cs : Text} {f : Text × Text → Text}, t.length ≥ cs.length →
      (splitBracket? cs).map (fun q => (f q, q.2)) = some p → p.2.length < t.length := by
    intro cs f hle hcs
    obtain ⟨q, hq, rfl⟩ := Option.map_eq_some_iff.1 hcs
    have hlt := length_splitBracket? hq
    exact Nat.lt_of_lt_of_le hlt hle
  unfold bracketBody? at h
  split at h
  · exact hmap (by simp; omega) h
  · exact hmap (by simp) h
  · exact hmap (by simp) h
  · exact length_splitBracket? h

/-- The pieces of a part.  An opening bracket that is not closed stands for itself. -/
def piecesOf : Text → List Piece
  | [] => []
  | '*' :: cs => .star :: piecesOf cs
  | '?' :: cs => .char .any :: piecesOf cs
  | '[' :: cs =>
    match h : bracketBody? cs with
    | some (body, rest) =>
      have : rest.length < cs.length := length_bracketBody? h
      .char (setOf body) :: piecesOf rest
    | none => .char (.one '[') :: piecesOf cs
  | c :: cs => .char (.one c) :: piecesOf cs
termination_by t => t.length

inductive Part where
  /-- Any number of directories. -/
  | anyDepth
  /-- A name that is spelled by pieces. -/
  | matching (pieces : List Piece)
  /-- The name itself. -/
  | exactly (name : Text)
  /-- What has been found so far has to be a directory. -/
  | directory
  deriving DecidableEq, Repr

inductive PatternError where
  | absolute
  | starsInName
  deriving DecidableEq, Repr

def PatternError.message : PatternError → Text
  | absolute => Text.ofString "Non-relative patterns are unsupported"
  | starsInName => Text.ofString "Invalid pattern: '**' can only be an entire path component"

def hasStars : Text → Bool
  | '*' :: '*' :: _ => true
  | _ :: cs => hasStars cs
  | [] => false

def partOf (t : Text) : Except PatternError Part :=
  if t = ['*', '*'] then .ok .anyDepth
  else if hasStars t then .error .starsInName
  else if t.any fun c => c = '*' || c = '?' || c = '[' then .ok (.matching (piecesOf t))
  else .ok (.exactly t)

def ofText (t : Text) : Except PatternError (List Part) :=
  if t.head? = some '/' then .error .absolute
  else do
    let parts ← (Path.namesOf t).mapM partOf
    return if t.getLast? = some '/' then parts ++ [.directory] else parts

end Pattern

namespace FileTree

open Pattern

/-- The paths below a path that match the parts.  All but the last have to be directories.  Any
depth twice is any depth. -/
def select (tree : FileTree) : List Part → Path → Except (Fault × Path) (List Path)
  | [], p => .ok [p]
  | .directory :: _, p => .ok [p]
  | .anyDepth :: .anyDepth :: parts, p => tree.select (.anyDepth :: parts) p
  | .anyDepth :: parts, p => do
    return (← (tree.directoriesBelow p).mapM (tree.select parts)).flatten
  | .exactly name :: parts, p => do
    match ← tree.probe (p.below [name]) with
    | some e =>
      if parts.isEmpty || e.isDirectory then tree.select parts (p.below [name]) else return []
    | none => return []
  | .matching pieces :: parts, p => do
    let found := (tree.children p).filter fun child =>
      isSpelled pieces child.1 && (parts.isEmpty || child.2.isDirectory)
    return (← found.mapM fun child => tree.select parts (p.below [child.1])).flatten

/-- The files below a directory that match the pattern at some depth, each once, name by name in
order. -/
def filesMatching (tree : FileTree) (parts : List Part) (p : Path) :
    Except (Fault × Path) (List Path) := do
  match ← tree.probe p with
  | some .directory =>
    let found ← tree.select (.anyDepth :: parts) p
    return (found.eraseDups.filter tree.isFile).mergeSort Path.precedes
  | _ => return []

end FileTree

end SexpLayout
