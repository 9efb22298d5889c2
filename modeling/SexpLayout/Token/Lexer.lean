import SexpLayout.Text.Numeral
import SexpLayout.Token.Basic

/-!
# The lexer

`Passage.scan` cuts a text into lexemes.  Each of the functions `splitString`, `splitAtom`,
`splitComment` and `split?` cuts the first token off a text and hands back the rest, so that the two
parts make up the text again.  Main statements: a scanned passage spells its source
(`Passage.scan_text`), and all its lexemes are proper (`Passage.scan_proper`).
-/

namespace SexpLayout

namespace Lexer

def isOpener (c : Char) : Bool := c = '(' || c = '['

def isCloser (c : Char) : Bool := c = ')' || c = ']'

/-- The characters that end an atom: brackets, the string quote and the comment mark. -/
def isDelimiter (c : Char) : Bool := isOpener c || isCloser c || c = '"' || c = ';'

/-! ### one token -/

/-- The rest of a string whose opening quote has been read, up to its closing quote.  A backslash
takes the next character with it. -/
def splitString : Text → Option (Text × Text)
  | [] => none
  | '"' :: cs => some (['"'], cs)
  | '\\' :: c :: cs => (splitString cs).map fun p => ('\\' :: c :: p.1, p.2)
  | c :: cs => (splitString cs).map fun p => (c :: p.1, p.2)

/-- The longest run of atom characters.  A backslash takes the next character with it. -/
def splitAtom : Text → Text × Text
  | [] => ([], [])
  | '\\' :: c :: cs => ('\\' :: c :: (splitAtom cs).1, (splitAtom cs).2)
  | c :: cs =>
    if isBlank c || isDelimiter c then ([], c :: cs) else (c :: (splitAtom cs).1, (splitAtom cs).2)

/-- An atom from its first character on.  A character literal `?x` or `?\x` takes its character
whatever it is. -/
def splitLiteral : Text → Text × Text
  | '?' :: '\\' :: c :: cs => ('?' :: '\\' :: c :: (splitAtom cs).1, (splitAtom cs).2)
  | '?' :: c :: cs => ('?' :: c :: (splitAtom cs).1, (splitAtom cs).2)
  | cs => splitAtom cs

/-- A comment reaches to the end of its line, without the blanks there. -/
def splitComment (cs : Text) : Text × Text :=
  let text := Text.trimRight (cs.takeWhile (· ≠ '\n'))
  (text, cs.drop text.length)

/-- The marks that stand before what they quote or splice: `,@` and `#'`, then `'`, the backquote
and `,` alone. -/
def splitMark? : Text → Option (Text × Text)
  | ',' :: '@' :: cs => some ([',', '@'], cs)
  | '#' :: '\x27' :: cs => some (['#', '\x27'], cs)
  | c :: cs => if c = '\x27' || c = '\x60' || c = ',' then some ([c], cs) else none
  | [] => none

/-- The kind of an atom: a character literal, a number, the mark of a list that follows directly, or
else a symbol. -/
def atomKind (text rest : Text) : Kind :=
  if text.head? = some '?' then .other
  else if isNumeral text then .number
  else if text.head? = some '#' && rest.head?.any isOpener then .punctuation
  else .symbol

/-- The first token of a text that does not start with a blank: its kind, its characters and what is
left.  Only a string can fail, for want of a closing quote. -/
def split? : Text → Option (Kind × Text × Text)
  | [] => none
  | c :: cs =>
    if isOpener c then some (.openParen, [c], cs)
    else if isCloser c then some (.closeParen, [c], cs)
    else if c = '"' then (splitString cs).map fun p => (.string, c :: p.1, p.2)
    else if c = ';' then some (.comment, splitComment (c :: cs))
    else match splitMark? (c :: cs) with
      | some p => some (.punctuation, p)
      | none =>
        let p := splitLiteral (c :: cs)
        some (atomKind p.1 p.2, p)

/-! ### nothing is lost -/

theorem splitString_append {t : Text} {p : Text × Text} (h : splitString t = some p) :
    p.1 ++ p.2 = t := by
  fun_induction splitString t generalizing p with
  | case1 => simp at h
  | case2 cs =>
    cases h
    rfl
  | case3 c cs ih =>
    obtain ⟨q, hq, rfl⟩ := Option.map_eq_some_iff.1 h
    simp [ih hq]
  | case4 c cs _ _ ih =>
    obtain ⟨q, hq, rfl⟩ := Option.map_eq_some_iff.1 h
    simp [ih hq]

theorem splitAtom_append (t : Text) : (splitAtom t).1 ++ (splitAtom t).2 = t := by
  fun_induction splitAtom t <;> simp_all

theorem splitLiteral_append (t : Text) : (splitLiteral t).1 ++ (splitLiteral t).2 = t := by
  fun_cases splitLiteral t <;> simp [splitAtom_append]

theorem splitComment_append (t : Text) : (splitComment t).1 ++ (splitComment t).2 = t := by
  obtain ⟨w, -, e⟩ := Text.exists_trimRight_append (t.takeWhile (· ≠ '\n'))
  have h : Text.trimRight (t.takeWhile (· ≠ '\n')) <+: t :=
    ⟨w ++ t.dropWhile (· ≠ '\n'), by rw [← List.append_assoc, e, List.takeWhile_append_dropWhile]⟩
  exact List.prefix_iff_eq_append.1 h

theorem splitMark?_append {t : Text} {p : Text × Text} (h : splitMark? t = some p) :
    p.1 ++ p.2 = t := by
  fun_cases splitMark? t with
  | case1 | case2 =>
    cases h
    rfl
  | case3 c cs _ _ hc =>
    simp only [splitMark?, hc, if_true] at h
    cases h
    rfl
  | case4 c cs _ _ hc => simp [splitMark?, hc] at h
  | case5 => cases h

theorem split?_append {t : Text} {k : Kind} {text rest : Text}
    (h : split? t = some (k, text, rest)) : text ++ rest = t := by
  cases t with
  | nil => simp [split?] at h
  | cons c cs =>
    simp only [split?] at h
    split at h
    · cases h
      rfl
    split at h
    · cases h
      rfl
    split at h
    · obtain ⟨p, hp, e⟩ := Option.map_eq_some_iff.1 h
      simp only [Prod.mk.injEq] at e
      obtain ⟨-, rfl, rfl⟩ := e
      simp [splitString_append hp]
    split at h
    · have := splitComment_append (c :: cs)
      simp only [Option.some.injEq, Prod.ext_iff] at h
      obtain ⟨-, h1, h2⟩ := h
      rwa [h1, h2] at this
    split at h
    · next p hp =>
      have := splitMark?_append hp
      simp only [Option.some.injEq, Prod.ext_iff] at h
      obtain ⟨-, h1, h2⟩ := h
      rwa [h1, h2] at this
    · have := splitLiteral_append (c :: cs)
      simp only [Option.some.injEq, Prod.ext_iff] at h
      obtain ⟨-, h1, h2⟩ := h
      rwa [h1, h2] at this

theorem atomKind_ne_compound (text rest : Text) : atomKind text rest ≠ .compound := by
  unfold atomKind
  split
  · simp
  split
  · simp
  split <;> simp

theorem split?_kind {t : Text} {k : Kind} {text rest : Text}
    (h : split? t = some (k, text, rest)) : k ≠ .compound := by
  rintro rfl
  cases t with
  | nil => simp [split?] at h
  | cons c cs =>
    simp only [split?] at h
    split at h
    · cases h
    split at h
    · cases h
    split at h
    · obtain ⟨p, hp, e⟩ := Option.map_eq_some_iff.1 h
      cases e
    split at h
    · simp at h
    split at h
    · simp at h
    · simp only [Option.some.injEq, Prod.mk.injEq] at h
      exact atomKind_ne_compound _ _ h.1

/-! ### something is taken -/

theorem splitAtom_ne_nil {c : Char} (hb : isBlank c = false) (hd : isDelimiter c = false)
    (cs : Text) : (splitAtom (c :: cs)).1 ≠ [] := by
  generalize e : c :: cs = t
  fun_cases splitAtom t <;> simp_all

theorem splitLiteral_ne_nil {c : Char} (hb : isBlank c = false) (hd : isDelimiter c = false)
    (cs : Text) : (splitLiteral (c :: cs)).1 ≠ [] := by
  generalize e : c :: cs = t
  fun_cases splitLiteral t with
  | case1 | case2 => simp
  | case3 =>
    rw [← e]
    exact splitAtom_ne_nil hb hd cs

theorem splitMark?_ne_nil {t : Text} {p : Text × Text} (h : splitMark? t = some p) : p.1 ≠ [] := by
  fun_cases splitMark? t with
  | case1 | case2 =>
    cases h
    simp
  | case3 c cs _ _ hc =>
    simp only [splitMark?, hc, if_true] at h
    cases h
    simp
  | case4 c cs _ _ hc => simp [splitMark?, hc] at h
  | case5 => cases h

theorem splitComment_ne_nil (cs : Text) : (splitComment (';' :: cs)).1 ≠ [] := by
  obtain ⟨t, e⟩ := Text.exists_trimRight_cons (c := ';') (by decide) (cs.takeWhile (· ≠ '\n'))
  have h : (';' :: cs).takeWhile (· ≠ '\n') = ';' :: cs.takeWhile (· ≠ '\n') := by simp
  simp only [splitComment, h, e]
  simp

theorem split?_ne_nil {c : Char} {cs : Text} {k : Kind} {text rest : Text} (hb : isBlank c = false)
    (h : split? (c :: cs) = some (k, text, rest)) : text ≠ [] := by
  simp only [split?] at h
  by_cases hopen : isOpener c = true
  · rw [if_pos hopen] at h
    cases h
    simp
  rw [if_neg hopen] at h
  by_cases hclose : isCloser c = true
  · rw [if_pos hclose] at h
    cases h
    simp
  rw [if_neg hclose] at h
  by_cases hquote : c = '"'
  · rw [if_pos hquote] at h
    obtain ⟨p, -, e⟩ := Option.map_eq_some_iff.1 h
    simp only [Prod.mk.injEq] at e
    obtain ⟨-, rfl, -⟩ := e
    simp
  rw [if_neg hquote] at h
  by_cases hsemi : c = ';'
  · rw [if_pos hsemi] at h
    subst hsemi
    have := splitComment_ne_nil cs
    simp only [Option.some.injEq, Prod.ext_iff] at h
    rwa [h.2.1] at this
  rw [if_neg hsemi] at h
  split at h
  · next p hp =>
    have := splitMark?_ne_nil hp
    simp only [Option.some.injEq, Prod.ext_iff] at h
    rwa [h.2.1] at this
  · have := splitLiteral_ne_nil hb (by simp_all [isDelimiter]) cs
    simp only [Option.some.injEq, Prod.ext_iff] at h
    rwa [h.2.1] at this

/-- The first token of a text that starts with an inked character takes that character. -/
theorem split?_ink_pos {c : Char} {cs : Text} {k : Kind} {text rest : Text}
    (hb : isBlank c = false) (h : split? (c :: cs) = some (k, text, rest)) : 0 < text.ink := by
  have happ := split?_append h
  cases text with
  | nil => exact absurd rfl (split?_ne_nil hb h)
  | cons d ds =>
    cases happ
    exact Text.ink_cons_pos hb ds

theorem isBlank_of_dropWhile {src : Text} {c : Char} {cs : Text}
    (h : src.dropWhile isBlank = c :: cs) : isBlank c = false := by
  have := List.head_dropWhile_not (p := isBlank) (l := src) (by simp [h])
  simpa [h] using this

theorem length_lt_of_split? {src : Text} {c : Char} {cs : Text} {k : Kind} {text rest : Text}
    (hc : src.dropWhile isBlank = c :: cs) (h : split? (c :: cs) = some (k, text, rest)) :
    rest.length < src.length := by
  have h1 := congrArg List.length (split?_append h)
  have h2 := congrArg List.length (List.takeWhile_append_dropWhile (p := isBlank) (l := src))
  have h3 := List.length_pos_iff.2 (split?_ne_nil (isBlank_of_dropWhile hc) h)
  rw [hc] at h2
  simp only [List.length_append] at h1 h2
  omega

end Lexer

namespace Passage

/-! ### the whole text -/

/-- The passage of a text that stands at an offset: the blanks in front of the first token, the
token, and the passage of what is left. -/
def scanAt (offset : Nat) (src : Text) : Except ReadError Passage :=
  let gap := src.takeWhile isBlank
  match _hc : src.dropWhile isBlank with
  | [] => .ok ⟨[], gap⟩
  | c :: cs =>
    let start := offset + gap.length
    match _hs : Lexer.split? (c :: cs) with
    | none => .error (.unterminatedString start)
    | some (kind, text, rest) =>
      let stop := start + text.length
      match scanAt stop rest with
      | .error e => .error e
      | .ok p => .ok ⟨⟨⟨kind, text, start, stop⟩, gap⟩ :: p.lexemes, p.tail⟩
termination_by src.length
decreasing_by exact Lexer.length_lt_of_split? _hc _hs

def scan (src : Text) : Except ReadError Passage := scanAt 0 src

theorem mem_takeWhile_isBlank {src : Text} {c : Char} (h : c ∈ src.takeWhile isBlank) :
    isBlank c = true :=
  List.all_eq_true.1 (List.all_takeWhile (p := isBlank) (l := src)) c h

theorem scanAt_text {offset : Nat} {src : Text} {p : Passage} (h : scanAt offset src = .ok p) :
    p.text = src := by
  fun_induction scanAt offset src generalizing p with
  | case1 offset src gap =>
    next hc =>
    cases h
    have := List.takeWhile_append_dropWhile (p := isBlank) (l := src)
    simp_all [text, gap]
  | case2 => cases h
  | case3 => cases h
  | case4 offset src gap c cs hc start kind text rest hs stop q hq =>
    next ih =>
    cases h
    have h1 := Lexer.split?_append hs
    have h2 := List.takeWhile_append_dropWhile (p := isBlank) (l := src)
    have h3 := ih hq
    simp only [Passage.text] at h3
    simp only [Passage.text, Lexeme.spell_cons, Lexeme.source, List.append_assoc, h3, h1]
    rw [← hc, h2]

theorem scanAt_proper {offset : Nat} {src : Text} {p : Passage} (h : scanAt offset src = .ok p) :
    (∀ l ∈ p.lexemes, l.Proper) ∧ ∀ c ∈ p.tail, isBlank c = true := by
  fun_induction scanAt offset src generalizing p with
  | case1 offset src gap =>
    next hc =>
    cases h
    exact ⟨by simp, fun c hc => mem_takeWhile_isBlank hc⟩
  | case2 => cases h
  | case3 => cases h
  | case4 offset src gap c cs hc start kind text rest hs stop q hq =>
    next ih =>
    cases h
    obtain ⟨h1, h2⟩ := ih hq
    refine ⟨?_, h2⟩
    intro l hl
    rcases List.mem_cons.1 hl with rfl | hl
    · exact ⟨fun d hd => mem_takeWhile_isBlank hd,
        Lexer.split?_ink_pos (Lexer.isBlank_of_dropWhile hc) hs⟩
    · exact h1 l hl

theorem scanAt_atomic {offset : Nat} {src : Text} {p : Passage} (h : scanAt offset src = .ok p) :
    ∀ l ∈ p.lexemes, l.kind ≠ .compound := by
  fun_induction scanAt offset src generalizing p with
  | case1 =>
    cases h
    simp
  | case2 => cases h
  | case3 => cases h
  | case4 offset src gap c cs hc start kind text rest hs stop q hq =>
    next ih =>
    cases h
    intro l hl
    rcases List.mem_cons.1 hl with rfl | hl
    · exact Lexer.split?_kind hs
    · exact ih hq l hl

/-- A scanned passage spells its source. -/
theorem scan_text {src : Text} {p : Passage} (h : scan src = .ok p) : p.text = src := scanAt_text h

/-- The gaps of a scanned passage are blank, and its tokens are not. -/
theorem scan_proper {src : Text} {p : Passage} (h : scan src = .ok p) :
    (∀ l ∈ p.lexemes, l.Proper) ∧ ∀ c ∈ p.tail, isBlank c = true := scanAt_proper h

/-- The lexer itself makes no compound tokens. -/
theorem scan_atomic {src : Text} {p : Passage} (h : scan src = .ok p) :
    ∀ l ∈ p.lexemes, l.kind ≠ .compound := scanAt_atomic h

end Passage

end SexpLayout
