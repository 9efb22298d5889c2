import SexpLayout.Text.Blank

/-!
# Tokens

* `Token` — a kind, the characters, and the offsets where they start and stop;
* `Lexeme` — a token together with the blanks in front of it;
* `Passage` — lexemes and the blanks behind the last one.  A passage spells a text completely
  (`Passage.text`), so that moving blanks means changing gaps and nothing else;
* `ReadError` — why a text cannot be read: a string without its closing quote, or brackets that do
  not match.
-/

namespace SexpLayout

/-- The kinds of tokens.  A `compound` token is a whole bracketed list seen as one unit. -/
inductive Kind where
  | openParen
  | closeParen
  | punctuation
  | symbol
  | string
  | number
  | comment
  | compound
  | other
  deriving DecidableEq, Repr

/-- A token of a text: the characters from the offset `start` up to `stop`. -/
structure Token where
  kind : Kind
  text : Text
  start : Nat
  stop : Nat
  deriving DecidableEq, Repr

/-- A token and the blanks in front of it. -/
structure Lexeme extends Token where
  gap : Text
  deriving DecidableEq, Repr

/-- What a lexeme adds to a text: its blanks, then its characters. -/
def Lexeme.source (l : Lexeme) : Text := l.gap ++ l.text

namespace Lexeme

/-- The text of some lexemes, blanks included. -/
def spell (ls : List Lexeme) : Text := ls.flatMap source

@[simp] theorem spell_nil : spell [] = [] := rfl

@[simp] theorem spell_cons (l : Lexeme) (ls : List Lexeme) :
    spell (l :: ls) = l.source ++ spell ls := rfl

@[simp] theorem spell_append (ls ms : List Lexeme) : spell (ls ++ ms) = spell ls ++ spell ms :=
  List.flatMap_append ..

theorem ink_text_le {ls : List Lexeme} {l : Lexeme} (h : l ∈ ls) : l.text.ink ≤ (spell ls).ink := by
  induction ls with
  | nil => simp at h
  | cons m ms ih =>
    simp only [spell_cons, source, Text.ink_append]
    rcases List.mem_cons.1 h with rfl | h
    · omega
    · have := ih h
      omega

/-- The gap holds blanks only, and the token does not. -/
structure Proper (l : Lexeme) : Prop where
  gap_blank : ∀ c ∈ l.gap, isBlank c = true
  ink_pos : 0 < l.text.ink

theorem Proper.nonBlank_source {l : Lexeme} (h : l.Proper) :
    l.source.nonBlank = l.text.nonBlank := by
  simp [source, Text.nonBlank_of_blank h.gap_blank]

theorem nonBlank_spell {ls : List Lexeme} (h : ∀ l ∈ ls, l.Proper) :
    (spell ls).nonBlank = ls.flatMap fun l => l.text.nonBlank := by
  induction ls with
  | nil => rfl
  | cons l ls ih =>
    have h1 := (h l (by simp)).nonBlank_source
    have h2 := ih fun m hm => h m (by simp [hm])
    simp [h1, h2]

end Lexeme

/-- A text cut into lexemes, with the blanks at its end. -/
structure Passage where
  lexemes : List Lexeme
  tail : Text
  deriving DecidableEq, Repr

namespace Passage

def text (p : Passage) : Text := Lexeme.spell p.lexemes ++ p.tail

def tokens (p : Passage) : List Token := p.lexemes.map Lexeme.toToken

end Passage

/-- Why a text cannot be read, with the offset of the token at fault. -/
inductive ReadError where
  | unterminatedString (offset : Nat)
  | unexpected (closer : Text) (offset : Nat)
  | mismatched (closer : Text) (offset : Nat)
  | unterminated (opener : Text) (offset : Nat)
  deriving DecidableEq, Repr

def ReadError.message : ReadError → Text
  | unterminatedString offset =>
    Text.ofString "unterminated string at offset " ++ Text.ofNat offset
  | unexpected closer offset => report "unexpected " closer offset
  | mismatched closer offset => report "mismatched " closer offset
  | unterminated opener offset => report "unterminated " opener offset
where
  /-- A complaint about a bracket at an offset. -/
  report (complaint : String) (bracket : Text) (offset : Nat) : Text :=
    Text.ofString complaint ++ bracket ++ Text.ofString " at offset " ++ Text.ofNat offset

end SexpLayout
