import SexpLayout.Text.Printable

/-!
# Quoted texts

A text in quotes, as messages show it.  Single quotes are used unless the text holds one and holds
no double quote.  A backslash, the quote in use, tab, line feed and carriage return are escaped by a
letter, and the characters that cannot be printed by their code point in hexadecimal.
-/

namespace SexpLayout.Text

def quoteMark (t : Text) : Char :=
  if t.contains '\x27' && !t.contains '"' then '"' else '\x27'

/-- A number in hexadecimal with at least `width` digits. -/
def hex (width n : Nat) : Text :=
  let ds := Nat.toDigits 16 n
  List.replicate (width - ds.length) '0' ++ ds

/-- A character as it stands between the given quotes. -/
def escapeChar (quote c : Char) : Text :=
  if c = quote || c = '\\' then ['\\', c]
  else if c = '\n' then ['\\', 'n']
  else if c = '\t' then ['\\', 't']
  else if c = '\r' then ['\\', 'r']
  else if isPrintable c then [c]
  else if c.toNat < 0x100 then '\\' :: 'x' :: hex 2 c.toNat
  else if c.toNat < 0x10000 then '\\' :: 'u' :: hex 4 c.toNat
  else '\\' :: 'U' :: hex 8 c.toNat

def quoted (t : Text) : Text :=
  let mark := t.quoteMark
  mark :: t.flatMap (escapeChar mark) ++ [mark]

end SexpLayout.Text
