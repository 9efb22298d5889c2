import SexpLayout.Text.Slice

/-!
# Buffers

A text under edit with a point, the place of the cursor.  When a region is replaced, the point stays
at the same code: it is remembered as an `Anchor`, the number of non-blank characters before it and
whether it stands right behind one of them, and found again in the new text.
-/

namespace SexpLayout

/-- A text under edit and the place of its cursor. -/
structure Buffer where
  text : Text
  point : Int
  deriving DecidableEq, Repr

namespace Buffer

/-- A place in the code of a text: how many non-blank characters stand before it, and whether the
character right before it is one of them. -/
structure Anchor where
  ink : Nat
  sticks : Bool
  deriving DecidableEq, Repr

/-- The anchor of a point; there is none behind the end of the text. -/
def anchor? (b : Buffer) : Option Anchor :=
  if (b.text.length : Int) < b.point then none
  else some
    { ink := (b.text.before b.point).ink
      sticks := 0 < b.point && ((b.text.before b.point).getLast?.any fun c => !isBlank c) }

/-- The place of an anchor in a text that starts at an offset.  An anchor that sticks is right
behind its last character, any other right before the next one, or at the end. -/
def Anchor.offsetFrom (sticks : Bool) : (offset ink : Nat) → Text → Nat
  | offset, _, [] => offset
  | offset, ink, c :: cs =>
    if isBlank c then offsetFrom sticks (offset + 1) ink cs
    else if ink = 0 then
      if sticks then offsetFrom sticks (offset + 1) ink cs else offset
    else if ink = 1 && sticks then offset + 1
    else offsetFrom sticks (offset + 1) (ink - 1) cs

def Anchor.offset (a : Anchor) (t : Text) : Nat := Anchor.offsetFrom a.sticks 0 a.ink t

end Buffer

end SexpLayout
