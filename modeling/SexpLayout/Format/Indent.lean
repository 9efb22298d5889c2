import SexpLayout.Text.Slice
import SexpLayout.Token.Lexer

/-!
# Indentation

Every line behind the first starts `width` columns behind the innermost open bracket, or right under
the bracket if the line starts with a closing one, or at the base column if no bracket is open.

Only gaps between tokens change, and of a gap only what stands behind its first line end: the blank
lines in it become empty, and the last line becomes the indentation.  A gap without a line end stays
as it is, unless the token in front of it ends the line itself.  So a line that starts inside a
token, as in a string over several lines, is never touched.  Columns are those of the indented text;
the base column is the column of its first character.
-/

namespace SexpLayout

namespace Indent

/-- Where the indented text stands: the columns of the open brackets, the innermost first, the
column of the next character, and whether the last token ended its line. -/
structure Cursor where
  brackets : List Int
  column : Int
  fresh : Bool

/-- The column at which a line that starts with a token of the kind should begin. -/
def target (width base : Int) (brackets : List Int) (kind : Kind) : Int :=
  match brackets with
  | [] => base
  | column :: _ => if kind = .closeParen then column else column + width

/-- The line ends of a gap that the indentation keeps, with the blanks before the first of them. -/
def lineEnds (fresh : Bool) (gap : Text) : Text :=
  (if fresh then [] else gap.takeWhile (· ≠ '\n')) ++ List.replicate (gap.count '\n') '\n'

/-- The gap starts a new line: it holds a line end, or the token in front of it ends with one. -/
def startsLine (fresh : Bool) (gap : Text) : Bool := fresh || gap.contains '\n'

/-- The gap in front of a token of the kind, and the column behind the gap. -/
def indentGap (width base : Int) (cursor : Cursor) (kind : Kind) (gap : Text) : Text × Int :=
  if startsLine cursor.fresh gap then
    let column := target width base cursor.brackets kind
    (lineEnds cursor.fresh gap ++ List.replicate column.toNat ' ', column)
  else (gap, cursor.column + gap.length)

/-- The cursor behind a token that starts at a column. -/
def advance (cursor : Cursor) (column : Int) (t : Token) : Cursor where
  brackets :=
    match t.kind with
    | .openParen => column :: cursor.brackets
    | .closeParen => cursor.brackets.tail
    | _ => cursor.brackets
  column := if t.text.contains '\n' then t.text.lastColumn else column + t.text.length
  fresh := t.text.getLast? = some '\n'

/-- The lexemes with their gaps indented, and the cursor behind them. -/
def indentLexemes (width base : Int) : Cursor → List Lexeme → List Lexeme × Cursor
  | cursor, [] => ([], cursor)
  | cursor, l :: ls =>
    let (gap, column) := indentGap width base cursor l.kind l.gap
    let (rest, last) := indentLexemes width base (advance cursor column l.toToken) ls
    ({ l with gap := gap } :: rest, last)

/-- The blanks at the end of a text: what is behind their last line end is dropped. -/
def indentTail (fresh : Bool) (tail : Text) : Text :=
  if startsLine fresh tail then lineEnds fresh tail else tail

def indentPassage (width base : Int) (p : Passage) : Passage :=
  let (lexemes, last) := indentLexemes width base ⟨[], base, false⟩ p.lexemes
  ⟨lexemes, indentTail last.fresh p.tail⟩

end Indent

/-- The text indented, its first character standing at the base column. -/
def indentText (width base : Int) (text : Text) : Except ReadError Text := do
  let p ← Passage.scan text
  return (Indent.indentPassage width base p).text

end SexpLayout
