import SexpLayout.Layout.Basic

/-!
# Laid-out texts

A laid-out text is a layout written down: the text itself and the offsets of the line ends that may
be folded.  As the offsets need not come from a layout, folding can fail; an offset below zero
counts from the end of the text.
-/

namespace SexpLayout

/-- A text with the offsets of the line ends in it that may be folded. -/
structure LaidText where
  text : Text
  head : Text := []
  second : Option Kind := none
  context : Bool := false
  mode : Mode := .oneLine
  breaks : List Int := []
  deriving DecidableEq, Repr

def Layout.laidText (l : Layout) : LaidText where
  text := l.text
  head := l.head
  second := l.second
  context := l.context
  mode := l.mode
  breaks := l.breaks.map Int.ofNat

/-- The text with the character at an offset replaced; below zero, the offset counts from the end.
There is no such text if there is no such character. -/
def Text.replaceAt? (t : Text) (offset : Int) (c : Char) : Option Text :=
  let i := if offset < 0 then offset + t.length else offset
  if 0 ≤ i && i < t.length then some (t.set i.toNat c) else none

namespace LaidText

/-- A line end to be folded lies outside the text. -/
inductive FoldError where
  | breakOutside
  deriving DecidableEq, Repr

def FoldError.message : FoldError → Text
  | breakOutside => Text.ofString "list assignment index out of range"

/-- Writes a space at each of the offsets, in order. -/
def foldAt : Text → List Int → Except FoldError Text
  | t, [] => .ok t
  | t, offset :: offsets =>
    match t.replaceAt? offset ' ' with
    | some t => foldAt t offsets
    | none => .error .breakOutside

/-- The text with its first line breaks folded.  On one line there is nothing to fold. -/
def joined (table : SkipTable) (arity : Arity) (l : LaidText) : Except FoldError Text :=
  if l.mode = .multiLine then
    foldAt l.text (l.breaks.take (Layout.foldCount table arity l.head l.second l.context))
  else .ok l.text

end LaidText

end SexpLayout
