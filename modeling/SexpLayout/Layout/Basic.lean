import SexpLayout.Arity
import SexpLayout.Layout.Gap

/-!
# Layouts

* `Cell` — a token's text and the gap behind it; `Layout.cells` lays out a list of tokens;
* `Layout` — the cells of a form, with what the folding of its first line breaks depends on: its
  head, the kind of the token behind the head, and whether the form is in newline context;
* `Layout.joined` — the text with the first line breaks folded into spaces, as many as the head's
  skip count says.

Main statement: a layout writes the ink of its tokens and nothing else (`Layout.nonBlank_joined`).
-/

namespace SexpLayout

/-- A token's text and the gap behind it. -/
structure Cell where
  text : Text
  gap : Gap
  deriving DecidableEq, Repr

def Cell.spell (cells : List Cell) : Text := cells.flatMap fun c => c.text ++ c.gap.text

/-- A form laid out: its cells, and what the folding of its breaks depends on. -/
structure Layout where
  cells : List Cell
  head : Text
  second : Option Kind
  context : Bool
  mode : Mode
  deriving DecidableEq, Repr

/-- The head of a list: the token behind the opening bracket, if there are three tokens at least. -/
def headToken : List Token → Option Token
  | opener :: head :: _ :: _ => if opener.kind = .openParen then some head else none
  | _ => none

def secondKind : List Token → Option Kind
  | opener :: _ :: second :: _ => if opener.kind = .openParen then some second.kind else none
  | _ => none

/-- The name of the head, which is empty if there is no head or the head is a list. -/
def headName (ts : List Token) : Text :=
  match headToken ts with
  | some head => if head.kind = .compound then [] else head.text
  | none => []

/-- Newline context: the head is itself a list or a symbol that the table knows. -/
def newlineContext (table : SkipTable) (ts : List Token) : Bool :=
  match headToken ts with
  | some head => head.kind = .compound || table.contains head.text
  | none => false

namespace Layout

def cellsFrom (mode : Mode) : Gap.Phase → List Token → List Cell
  | _, [] => []
  | phase, t :: ts =>
    ⟨t.text, (Gap.after mode phase t ts).1⟩ :: cellsFrom mode (Gap.after mode phase t ts).2 ts

/-- Only a form with a nested list is spread over several lines. -/
def effectiveMode (mode : Mode) (ts : List Token) : Mode :=
  if ts.any fun t => t.kind = .compound then mode else .oneLine

/-- The layout of a list of tokens.  The newline context is read off the head unless it is given. -/
def ofTokens (mode : Mode) (context : Option Bool) (table : SkipTable) (ts : List Token) : Layout :=
  if ts.isEmpty then ⟨[], [], none, false, .oneLine⟩
  else
    { cells := cellsFrom (effectiveMode mode ts) .free ts
      head := headName ts
      second := secondKind ts
      context := context.getD (newlineContext table ts)
      mode := effectiveMode mode ts }

def text (l : Layout) : Text := Cell.spell l.cells

/-- The offsets of the soft line ends of some cells that stand at an offset. -/
def breaksFrom (offset : Nat) : List Cell → List Nat
  | [] => []
  | c :: cs =>
    let stop := offset + c.text.length
    let rest := breaksFrom (stop + c.gap.text.length) cs
    if c.gap = .soft then stop :: rest else rest

/-- The offsets in the text of the line ends that may be folded. -/
def breaks (l : Layout) : List Nat := breaksFrom 0 l.cells

/-! ### folding -/

/-- Turns the first `n` soft line ends into spaces. -/
def fold : Nat → List Cell → List Cell
  | 0, cs => cs
  | _ + 1, [] => []
  | n + 1, c :: cs =>
    if c.gap = .soft then ⟨c.text, .space⟩ :: fold n cs else c :: fold (n + 1) cs

/-- The token behind the head keeps its line: a bracket does, and a list in newline context. -/
def keepsLine (second : Option Kind) (context : Bool) : Bool :=
  second = some .closeParen || second = some .openParen || (second = some .compound && context)

/-- How many line breaks are folded: the skip count of the head, or else one, unless the token
behind the head keeps its line. -/
def foldCount (table : SkipTable) (arity : Arity) (head : Text) (second : Option Kind)
    (context : Bool) : Nat :=
  match skipCount table arity head with
  | some n => n.toNat
  | none => if keepsLine second context then 0 else 1

/-- The text of a layout with its first line breaks folded. -/
def joined (table : SkipTable) (arity : Arity) (l : Layout) : Text :=
  Cell.spell (fold (foldCount table arity l.head l.second l.context) l.cells)

/-! ### ink -/

theorem nonBlank_spell (cells : List Cell) :
    (Cell.spell cells).nonBlank = cells.flatMap fun c => c.text.nonBlank := by
  induction cells with
  | nil => rfl
  | cons c cs ih =>
    simp only [Cell.spell, List.flatMap_cons, Text.nonBlank_append, Gap.nonBlank_text] at ih ⊢
    simp [ih]

theorem flatMap_cellsFrom (mode : Mode) (phase : Gap.Phase) (ts : List Token) :
    (cellsFrom mode phase ts).flatMap (fun c => c.text.nonBlank) =
      ts.flatMap fun t => t.text.nonBlank := by
  induction ts generalizing phase with
  | nil => rfl
  | cons t ts ih => simp [cellsFrom, ih]

theorem flatMap_fold (n : Nat) (cells : List Cell) :
    (fold n cells).flatMap (fun c => c.text.nonBlank) = cells.flatMap fun c => c.text.nonBlank := by
  fun_induction fold n cells <;> simp_all

theorem flatMap_cells (mode : Mode) (context : Option Bool) (table : SkipTable) (ts : List Token) :
    (ofTokens mode context table ts).cells.flatMap (fun c => c.text.nonBlank) =
      ts.flatMap fun t => t.text.nonBlank := by
  cases ts with
  | nil => rfl
  | cons t ts => exact flatMap_cellsFrom ..

theorem nonBlank_text (mode : Mode) (context : Option Bool) (table : SkipTable) (ts : List Token) :
    (ofTokens mode context table ts).text.nonBlank = ts.flatMap fun t => t.text.nonBlank := by
  rw [text, nonBlank_spell, flatMap_cells]

theorem nonBlank_joined (mode : Mode) (context : Option Bool) (table : SkipTable) (arity : Arity)
    (ts : List Token) :
    ((ofTokens mode context table ts).joined table arity).nonBlank =
      ts.flatMap fun t => t.text.nonBlank := by
  rw [joined, nonBlank_spell, flatMap_fold, flatMap_cells]

end Layout

end SexpLayout
