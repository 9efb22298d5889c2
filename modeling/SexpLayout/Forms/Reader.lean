import SexpLayout.Forms.Basic
import SexpLayout.Token.Lexer

/-!
# Reading forms

`Forms.read` matches the brackets of a list of lexemes.  It goes through the lexemes once and keeps
the lists that are still open as frames.  The first closer that does not fit is the error; if all
fit, the innermost list still open at the end is.

The views of a text by its forms are `Passage.ofDocument`, where every list at the top is one token,
and `Passage.ofExpression`, where a list that stands alone is opened by one level.  Main statements:
both spell their source (`ofDocument_text`, `ofExpression_text`), and a list inside an expression
has less ink than the expression (`ink_lt_of_mem_ofExpression`).
-/

namespace SexpLayout

namespace Forms

/-- A list that is still open: the forms before it, the last one first, and its opener. -/
structure Frame where
  before : Forms
  opener : Lexeme

/-- The two brackets are of one kind. -/
def closes (opener closer : Text) : Bool :=
  (opener == ['('] && closer == [')']) || (opener == ['['] && closer == [']'])

/-- Reads on, with the open lists, the innermost first, and the forms read so far in the innermost
one, the last one first. -/
def readOn : List Frame → Forms → List Lexeme → Except ReadError Forms
  | [], done, [] => .ok done.reverse
  | frame :: _, _, [] => .error (.unterminated frame.opener.text frame.opener.start)
  | stack, done, l :: ls =>
    match l.kind with
    | .openParen => readOn (⟨done, l⟩ :: stack) nil ls
    | .closeParen =>
      match stack with
      | [] => .error (.unexpected l.text l.start)
      | frame :: stack =>
        if closes frame.opener.text l.text then
          readOn stack (list frame.opener done.reverse l frame.before) ls
        else .error (.mismatched l.text l.start)
    | _ => readOn stack (atom l done) ls

def read (ls : List Lexeme) : Except ReadError Forms := readOn [] nil ls

/-- The lexemes in the open lists, in reading order. -/
def pending : List Frame → List Lexeme
  | [] => []
  | frame :: stack => pending stack ++ frame.before.reverse.lexemes ++ [frame.opener]

theorem readOn_lexemes {stack : List Frame} {done : Forms} {ls : List Lexeme} {f : Forms}
    (h : readOn stack done ls = .ok f) :
    f.lexemes = pending stack ++ done.reverse.lexemes ++ ls := by
  fun_induction readOn stack done ls with
  | case1 done =>
    cases h
    simp [pending]
  | case2 => cases h
  | case3 stack done l ls _ ih => simp [ih h, pending, reverse, reverseOnto, lexemes]
  | case4 => cases h
  | case5 done l ls _ frame stack _ ih => simp [ih h, pending, lexemes_reverse_list]
  | case6 => cases h
  | case7 stack done l ls _ _ ih => simp [ih h, lexemes_reverse_atom]

theorem read_lexemes {ls : List Lexeme} {f : Forms} (h : read ls = .ok f) : f.lexemes = ls := by
  simpa [pending, reverse, reverseOnto, lexemes] using readOn_lexemes h

/-- The forms of a text, and the blanks at its end. -/
def ofText (src : Text) : Except ReadError (Forms × Text) := do
  let p ← Passage.scan src
  let f ← read p.lexemes
  return (f, p.tail)

/-- The offsets where the lists of a text start and stop, in the order of their openers. -/
def spansOf (src : Text) : Except ReadError (List (Nat × Nat)) := do
  let f ← ofText src
  return f.1.spans

theorem ofText_eq_ok {src : Text} {f : Forms} {tail : Text} (h : ofText src = .ok (f, tail)) :
    Passage.scan src = .ok ⟨f.lexemes, tail⟩ := by
  simp only [ofText, bind, Except.bind, pure, Except.pure] at h
  split at h
  · cases h
  · next p hp =>
    split at h
    · cases h
    · next g hg =>
      cases h
      rw [hp, read_lexemes hg]

end Forms

namespace Passage

/-- A document: every list at the top is one token. -/
def ofDocument (src : Text) : Except ReadError Passage := do
  let (f, tail) ← Forms.ofText src
  return ⟨f.grouped, tail⟩

/-- An expression: every list below the first level is one token. -/
def ofExpression (src : Text) : Except ReadError Passage := do
  let (f, tail) ← Forms.ofText src
  return ⟨f.opened, tail⟩

theorem exists_of_ofDocument {src : Text} {p : Passage} (h : ofDocument src = .ok p) :
    ∃ f : Forms, Forms.ofText src = .ok (f, p.tail) ∧ p.lexemes = f.grouped := by
  simp only [ofDocument, bind, Except.bind, pure, Except.pure] at h
  split at h
  · cases h
  · next q hq =>
    cases h
    exact ⟨q.1, hq, rfl⟩

theorem exists_of_ofExpression {src : Text} {p : Passage} (h : ofExpression src = .ok p) :
    ∃ f : Forms, Forms.ofText src = .ok (f, p.tail) ∧ p.lexemes = f.opened := by
  simp only [ofExpression, bind, Except.bind, pure, Except.pure] at h
  split at h
  · cases h
  · next q hq =>
    cases h
    exact ⟨q.1, hq, rfl⟩

theorem ofDocument_text {src : Text} {p : Passage} (h : ofDocument src = .ok p) : p.text = src := by
  obtain ⟨f, hf, e⟩ := exists_of_ofDocument h
  rw [← scan_text (Forms.ofText_eq_ok hf)]
  simp [text, e, Forms.source_grouped]

theorem ofExpression_text {src : Text} {p : Passage} (h : ofExpression src = .ok p) :
    p.text = src := by
  obtain ⟨f, hf, e⟩ := exists_of_ofExpression h
  rw [← scan_text (Forms.ofText_eq_ok hf)]
  simp [text, e, Forms.source_opened]

theorem ofExpression_proper {src : Text} {p : Passage} (h : ofExpression src = .ok p) :
    (∀ l ∈ p.lexemes, l.Proper) ∧ ∀ c ∈ p.tail, isBlank c = true := by
  obtain ⟨f, hf, e⟩ := exists_of_ofExpression h
  obtain ⟨h1, h2⟩ := scan_proper (Forms.ofText_eq_ok hf)
  exact ⟨e ▸ Forms.opened_proper h1, h2⟩

theorem nonBlank_of_ofExpression {src : Text} {p : Passage} (h : ofExpression src = .ok p) :
    p.lexemes.flatMap (fun l => l.text.nonBlank) = src.nonBlank := by
  obtain ⟨h1, h2⟩ := ofExpression_proper h
  rw [← ofExpression_text h]
  simp [text, Lexeme.nonBlank_spell h1, Text.nonBlank_of_blank h2]

theorem ink_lt_of_mem_ofExpression {src : Text} {p : Passage} (h : ofExpression src = .ok p)
    {l : Lexeme} (hl : l ∈ p.lexemes) (hk : l.kind = .compound) : l.text.ink < src.ink := by
  obtain ⟨f, hf, e⟩ := exists_of_ofExpression h
  have hs := Forms.ofText_eq_ok hf
  have hlt := Forms.ink_lt_of_mem_opened (scan_proper hs).1 (scan_atomic hs) (e ▸ hl) hk
  rw [← scan_text hs]
  simp only [text, Text.ink_append]
  omega

end Passage

end SexpLayout
