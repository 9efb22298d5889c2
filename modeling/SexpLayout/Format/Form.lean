import SexpLayout.Config.Basic
import SexpLayout.Format.Indent
import SexpLayout.Format.Traced
import SexpLayout.Forms.Reader
import SexpLayout.Layout.Basic

/-!
# Formatting forms and documents

`formatForm` lays a form out, folds its first line breaks, reads the result again and formats every
list in it the same way, the last list first.  A list inside has less ink than the form it is found
in, and laying out keeps the ink, so this ends for every text (`ink_lt_of_mem_relaid`); it does not
matter whether the laid-out text reads back as the same tokens.

Every list at the top of a document is formatted by itself (`formatText`) and, if the configuration
says so, indented from the column where it starts; the text between the lists is kept.
-/

namespace SexpLayout

namespace Passage

/-- The text of the lexemes and of the blanks behind them, with every list replaced by what `f`
makes of it.  The last list comes first. -/
def replaceFrom {ε : Type} (tail : Text) : (ls : List Lexeme) →
    ((l : Lexeme) → l ∈ ls → l.kind = .compound → Traced ε Text) → Traced ε Text
  | [], _ => pure tail
  | l :: ls, f => do
    let rest ← replaceFrom tail ls fun m hm => f m (List.mem_cons_of_mem l hm)
    if h : l.kind = .compound then
      let new ← f l List.mem_cons_self h
      return l.gap ++ new ++ rest
    else return l.source ++ rest

/-- The text of a passage with every list replaced by what `f` makes of it, the last list first. -/
def replaceLists {ε : Type} (p : Passage)
    (f : (l : Lexeme) → l ∈ p.lexemes → l.kind = .compound → Traced ε Text) : Traced ε Text :=
  replaceFrom p.tail p.lexemes f

end Passage

def layoutOf (config : Config) (mode : Mode) (context : Option Bool) (p : Passage) : Layout :=
  Layout.ofTokens mode context config.skipTable p.tokens

/-- The text of an expression laid out, with its first line breaks folded. -/
def relaid (config : Config) (mode : Mode) (context : Option Bool) (p : Passage) : Text :=
  (layoutOf config mode context p).joined config.skipTable config.arity

theorem nonBlank_relaid (config : Config) (mode : Mode) (context : Option Bool) {text : Text}
    {p : Passage} (h : Passage.ofExpression text = .ok p) :
    (relaid config mode context p).nonBlank = text.nonBlank := by
  rw [relaid, layoutOf, Layout.nonBlank_joined, ← Passage.nonBlank_of_ofExpression h]
  simp [Passage.tokens, List.flatMap_map]

/-- A list that is found in a laid-out expression has less ink than the expression. -/
theorem ink_lt_of_mem_relaid {config : Config} {mode : Mode} {context : Option Bool} {text : Text}
    {p q : Passage} (hp : Passage.ofExpression text = .ok p)
    (hq : Passage.ofExpression (relaid config mode context p) = .ok q) {l : Lexeme}
    (hl : l ∈ q.lexemes) (hk : l.kind = .compound) : l.text.ink < text.ink := by
  have h := Passage.ink_lt_of_mem_ofExpression hq hl hk
  have e : (relaid config mode context p).ink = text.ink :=
    congrArg List.length (nonBlank_relaid config mode context hp)
  omega

/-- The text of a form formatted.  The newline context is read off the head unless it is given; the
lists inside the form are formatted too if `deep` is set, in the newline context of the form.  Empty
lists are left alone.  How deeply calls may be nested and how much memory they may take on the host
is not modelled. -/
def formatForm (config : Config) (mode : Mode) (deep : Bool) (context : Option Bool) (text : Text) :
    Traced ReadError Text :=
  match _hp : Passage.ofExpression text with
  | .error e => .ofExcept (.error e)
  | .ok p =>
    if p.lexemes.isEmpty then pure text
    else do
      let laid := layoutOf config mode context p
      Traced.emit (.laidOut laid.mode laid.head laid.breaks.length)
      if deep then
        match _hq : Passage.ofExpression (relaid config mode context p) with
        | .error e => .ofExcept (.error e)
        | .ok q =>
          q.replaceLists fun l _hl _hk =>
            if l.text.length ≤ 2 then pure l.text
            else formatForm config mode true (some laid.context) l.text
      else return relaid config mode context p
termination_by text.ink
decreasing_by exact ink_lt_of_mem_relaid _hp _hq _hl _hk

/-- The text with every list in it formatted in a newline context, the last list first; empty lists
are left alone. -/
def formatInside (config : Config) (mode : Mode) (context : Bool) (text : Text) :
    Traced ReadError Text := do
  let p ← .ofExcept (Passage.ofExpression text)
  p.replaceLists fun l _ _ =>
    if l.text.length ≤ 2 then pure l.text
    else formatForm config mode true (some context) l.text

/-- Formatting a form is laying it out and then formatting what is inside. -/
theorem formatForm_eq (config : Config) (mode : Mode) (deep : Bool) (context : Option Bool)
    (text : Text) :
    formatForm config mode deep context text = (do
      let p ← .ofExcept (Passage.ofExpression text)
      if p.lexemes.isEmpty then pure text
      else do
        let laid := layoutOf config mode context p
        Traced.emit (.laidOut laid.mode laid.head laid.breaks.length)
        if deep then formatInside config mode laid.context (relaid config mode context p)
        else pure (relaid config mode context p)) := by
  rw [formatForm]
  split
  · next e hp =>
    simp [hp]
  · next p hp =>
    simp only [hp, Traced.ofExcept_ok_bind]
    split
    · rfl
    congr 1
    funext _
    split
    · unfold formatInside
      split
      · next e hq =>
        simp [hq]
      · next q hq =>
        simp [hq]
    · rfl

/-! ### documents -/

/-- A form that stands at a column, formatted and, if the configuration says so, indented. -/
def formatAt (config : Config) (mode : Mode) (deep : Bool) (column : Int) (form : Text) :
    Traced ReadError Text := do
  let new ← formatForm config mode deep none form
  if config.indent then .ofExcept (indentText config.indentWidth column new) else return new

def Passage.lists (p : Passage) : List Lexeme := p.lexemes.filter fun l => l.kind = .compound

/-- The text of a document with every list at its top formatted, the last list first. -/
def formatText (config : Config) (mode : Mode) (text : Text) : Traced ReadError Text := do
  let p ← .ofExcept (Passage.ofDocument text)
  let new ← p.replaceLists fun l _ _ =>
    formatAt config mode true (text.columnAt l.start) l.text
  Traced.emit (.formatted p.lists.length)
  return new

end SexpLayout
