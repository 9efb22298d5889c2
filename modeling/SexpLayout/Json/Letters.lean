import SexpLayout.Text.Quoted

/-!
# The letters of JSON strings

An escape in a JSON string may write half of a surrogate pair without the other half.  That is a
letter of the string, but not a character, so that such a string is not a text: no symbol has it as
its name.
-/

namespace SexpLayout

/-- A letter of a JSON string: a character, or half of a surrogate pair by itself. -/
inductive Letter where
  | char (c : Char)
  | half (unit : Nat)
  deriving DecidableEq, Repr

instance : Coe Char Letter := ⟨.char⟩

abbrev Letters := List Letter

def Letter.char? : Letter → Option Char
  | char c => some c
  | half _ => none

namespace Letters

def ofText (t : Text) : Letters := t.map .char

/-- The text of some letters, if all of them are characters. -/
def text? (s : Letters) : Option Text := s.mapM Letter.char?

/-- The text of some letters, with the replacement character for halves of pairs. -/
def text (s : Letters) : Text := s.map fun l => l.char?.getD (Char.ofNat 0xFFFD)

/-- A letter as it stands between the given quotes. -/
def escapeLetter (quote : Char) : Letter → Text
  | .char c => Text.escapeChar quote c
  | .half unit => '\\' :: 'u' :: Text.hex 4 unit

def quoted (s : Letters) : Text :=
  let mark := s.text.quoteMark
  mark :: s.flatMap (escapeLetter mark) ++ [mark]

@[simp]
theorem text_ofText (t : Text) : (ofText t).text = t := by
  induction t with
  | nil => rfl
  | cons c cs ih => simpa [ofText, text, Letter.char?] using ih

theorem ofText_inj {t u : Text} : ofText t = ofText u ↔ t = u :=
  ⟨fun h => by simpa using congrArg text h, congrArg ofText⟩

theorem text?_eq_some_iff {s : Letters} {t : Text} : s.text? = some t ↔ s = ofText t := by
  induction s generalizing t with
  | nil => cases t <;> simp [text?, ofText]
  | cons l s ih =>
    have hcons : text? (l :: s) = l.char?.bind fun c => (text? s).map (c :: ·) := by
      simp only [text?, List.mapM_cons, Option.map_eq_bind]
      rfl
    cases l with
    | half unit => cases t <;> simp [hcons, Letter.char?, ofText]
    | char c =>
      cases t with
      | nil => simp [hcons, Letter.char?, ofText]
      | cons d t => simp [hcons, Letter.char?, ofText, ih, and_left_comm]

end Letters

end SexpLayout
