import SexpLayout.Token.Basic

/-!
# The gaps of a layout

What a layout writes behind a token depends on the token, on the next one, and on what is open: a
number written in two touching tokens, or the value of a pair.  That is kept as a `Phase`, so one
pass with one token of lookahead decides all gaps (`Gap.after`).

* Comments end their line.
* `1-` and `1+` stay together even if they are read as two tokens.
* Nothing stands behind brackets and quoting marks, nor before a closing bracket.
* Behind a dot, and over several lines behind a keyword, stands one space, and then the value of the
  pair in one piece: the marks in front of it and the token they belong to.
* A keyword pair ends its line for good; elsewhere neighbours are separated by a space on one line,
  and by a line break that may later be folded over several lines.
-/

namespace SexpLayout

inductive Mode where
  | oneLine
  | multiLine
  deriving DecidableEq, Repr

def Mode.name : Mode → String
  | oneLine => "one-line"
  | multiLine => "multi-line"

/-- What stands between two tokens.  Both `line` and `soft` end the line; a `soft` end may be folded
into a space. -/
inductive Gap where
  | nothing
  | space
  | line
  | soft
  deriving DecidableEq, Repr

namespace Gap

def text : Gap → Text
  | nothing => []
  | space => [' ']
  | line => ['\n']
  | soft => ['\n']

@[simp] theorem nonBlank_text (g : Gap) : g.text.nonBlank = [] := by cases g <;> rfl

/-- What separates two tokens that nothing ties together. -/
def separator : Mode → Gap
  | .oneLine => space
  | .multiLine => soft

/-- The pairs whose value stays on the line. -/
inductive Pair where
  | dotted
  | keyword
  deriving DecidableEq, Repr

/-- What the next token belongs to: nothing in particular, the second half of a number, the value of
a pair, or the closing bracket right behind a keyword pair. -/
inductive Phase where
  | free
  | half
  | value (pair : Pair)
  | closing
  deriving DecidableEq, Repr

/-- A colon with a character behind it that is not blank. -/
def isKeyword : Text → Bool
  | ':' :: c :: cs => !isBlank c || isKeyword (c :: cs)
  | _ :: cs => isKeyword cs
  | [] => false

/-- The two tokens touch and make up `1-` or `1+`. -/
def isSplitStep (t next : Token) : Bool :=
  t.stop == next.start && (t.text ++ next.text == ['1', '-'] || t.text ++ next.text == ['1', '+'])

/-- Marks and brackets: nothing separates them from what follows. -/
def clings (k : Kind) : Bool := k = .punctuation || k = .openParen || k = .closeParen

/-- The gap behind a token that is not part of something open, and what it opens. -/
def afterFree (mode : Mode) (t next : Token) : Gap × Phase :=
  if t.kind = .comment then (line, .free)
  else if isSplitStep t next then (nothing, .half)
  else if clings t.kind || next.kind = .closeParen then (nothing, .free)
  else if t.text = ['.'] && next.kind ≠ .comment then (space, .value .dotted)
  else if mode = .multiLine && t.kind = .symbol && isKeyword t.text && next.kind ≠ .comment then
    (space, .value .keyword)
  else (separator mode, .free)

/-- The gap behind a token of a pair's value.  A mark keeps the value open. -/
def afterValue (mode : Mode) (pair : Pair) (t next : Token) : Gap × Phase :=
  if t.kind = .punctuation && next.kind ≠ .closeParen && next.kind ≠ .comment then
    (nothing, .value pair)
  else match pair with
    | .dotted => (if next.kind = .closeParen then nothing else separator mode, .free)
    | .keyword => if next.kind = .closeParen then (nothing, .closing) else (line, .free)

/-- The gap behind a token, and what the next token belongs to. -/
def after (mode : Mode) (phase : Phase) (t : Token) : List Token → Gap × Phase
  | [] => (nothing, .free)
  | next :: _ =>
    match phase with
    | .free => afterFree mode t next
    | .half => (if next.kind = .closeParen then nothing else space, .free)
    | .value pair => afterValue mode pair t next
    | .closing => (nothing, .free)

end Gap

end SexpLayout
