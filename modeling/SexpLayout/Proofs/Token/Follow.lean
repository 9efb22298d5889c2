import Mathlib.Data.List.TakeWhile
import SexpLayout.Token.Lexer

/-!
# What may follow a token

The lexer cuts a token off the front of a text, and where it cuts depends on what stands behind the
token: an atom ends before a blank or a delimiter, a comment with its line, and a `,` must not be
followed by an `@`.

* `Follows k t y` — the text `y` may stand behind the token `t` of the kind `k`;
* `Cut k t y` — the lexer cuts the token `t` off in front of `y`, and `y` follows it then
  (`follows_of_cut`);
* `cut_of_follows` — a token that was cut off once is cut off again in front of every text that
  follows it.  A token cut off at the end of a text may be incomplete (`?` or a final backslash), so
  it has to stay at the end.
-/

namespace SexpLayout

theorem isBlank_of_isOpener {c : Char} (h : Lexer.isOpener c = true) : isBlank c = false := by
  simp only [Lexer.isOpener, Bool.or_eq_true, decide_eq_true_eq] at h
  obtain rfl | rfl := h <;> decide

theorem isBlank_of_isCloser {c : Char} (h : Lexer.isCloser c = true) : isBlank c = false := by
  simp only [Lexer.isCloser, Bool.or_eq_true, decide_eq_true_eq] at h
  obtain rfl | rfl := h <;> decide

namespace Lexer

/-- An atom may end before the text. -/
def EndsAtom (y : Text) : Prop := ∀ c ∈ y.head?, isBlank c = true ∨ isDelimiter c = true

/-- A comment may end before the text: there are only blanks up to the end of the line. -/
def EndsLine (y : Text) : Prop := ∀ c ∈ y.takeWhile (· ≠ '\n'), isBlank c = true

def OpensList (y : Text) : Prop := y.head?.any isOpener = true

/-- The token is one of the fixed marks, and not the mark of a list such as `#s`. -/
def IsMark (t : Text) : Prop := splitMark? t = some (t, [])

/-- The text `y` may stand behind the token `t` of the kind `k`. -/
def Follows (k : Kind) (t y : Text) : Prop :=
  match k with
  | .comment => EndsLine y
  | .punctuation => (IsMark t ∧ (t = [','] → y.head? ≠ some '@')) ∨ (¬ IsMark t ∧ OpensList y)
  | .symbol => EndsAtom y ∧ (t.head? = some '#' → ¬ OpensList y)
  | .number | .other => EndsAtom y
  | .openParen | .closeParen | .string | .compound => True

/-! ### strings -/

theorem splitString_cons {c : Char} (hq : c ≠ '"') (hb : c ≠ '\\') (cs : Text) :
    splitString (c :: cs) = (splitString cs).map fun p => (c :: p.1, p.2) := by
  rw [splitString] <;> simp_all

theorem splitString_append_of_eq {s x : Text} (y : Text) (h : splitString (s ++ x) = some (s, x)) :
    splitString (s ++ y) = some (s, y) := by
  induction s using splitString.induct with
  | case1 =>
    -- a string takes its closing quote at least
    exfalso
    rw [List.nil_append] at h
    fun_cases splitString x <;> simp_all [splitString]
  | case2 cs => simp_all [splitString]
  | case3 c cs ih => simp_all [splitString]
  | case4 c cs hq hesc ih =>
    by_cases hb : c = '\\'
    · -- a backslash alone takes the first character behind it, or there is no closing quote
      subst hb
      obtain rfl : cs = [] := by
        cases cs with
        | nil => rfl
        | cons d ds => exact absurd rfl (hesc d ds rfl)
      cases x with
      | nil => simp [splitString] at h
      | cons d x => simp [splitString] at h
    · rw [List.cons_append, splitString_cons hq hb] at h ⊢
      obtain ⟨⟨s, x⟩, hp, e⟩ := Option.map_eq_some_iff.1 h
      simp only [Prod.mk.injEq, List.cons.injEq, true_and] at e
      obtain ⟨rfl, rfl⟩ := e
      simp [ih hp]

/-! ### atoms -/

theorem splitAtom_cons {c : Char} (hb : c ≠ '\\') (cs : Text) :
    splitAtom (c :: cs) =
      if isBlank c || isDelimiter c then ([], c :: cs)
      else (c :: (splitAtom cs).1, (splitAtom cs).2) := by
  rw [splitAtom]
  simp_all

theorem splitAtom_of_endsAtom {y : Text} (h : EndsAtom y) : splitAtom y = ([], y) := by
  cases y with
  | nil => rfl
  | cons c cs =>
    have hc := h c (by simp)
    have hb : c ≠ '\\' := by
      rintro rfl
      revert hc
      decide
    rw [splitAtom_cons hb, if_pos (by simpa using hc)]

theorem endsAtom_splitAtom (t : Text) : EndsAtom (splitAtom t).2 := by
  fun_induction splitAtom t with
  | case1 => simp [EndsAtom]
  | case2 c cs ih => exact ih
  | case3 c cs _ hc => simpa [EndsAtom] using hc
  | case4 c cs _ _ ih => exact ih

theorem splitAtom_append_of_eq {s x y : Text} (h : splitAtom (s ++ x) = (s, x))
    (hx : x = [] → y = []) (hy : EndsAtom y) : splitAtom (s ++ y) = (s, y) := by
  induction s using splitAtom.induct with
  | case1 => exact splitAtom_of_endsAtom hy
  | case2 c cs ih =>
    simp only [List.cons_append, splitAtom, Prod.mk.injEq, List.cons.injEq, true_and] at h ⊢
    exact Prod.ext_iff.1 (ih (Prod.ext h.1 h.2))
  | case3 c cs hesc hc =>
    exfalso
    by_cases hb : c = '\\'
    · subst hb
      revert hc
      decide
    · rw [List.cons_append, splitAtom_cons hb, if_pos hc] at h
      simp at h
  | case4 c cs hesc hc ih =>
    by_cases hb : c = '\\'
    · -- a backslash alone takes the first character behind it, so there is none
      subst hb
      obtain rfl : cs = [] := by
        cases cs with
        | nil => rfl
        | cons d ds => exact absurd rfl (hesc d ds rfl)
      cases x with
      | nil =>
        rw [hx rfl]
        rfl
      | cons d x => simp [splitAtom] at h
    · rw [List.cons_append, splitAtom_cons hb, if_neg hc] at h ⊢
      simp only [Prod.mk.injEq, List.cons.injEq, true_and] at h ⊢
      exact Prod.ext_iff.1 (ih (Prod.ext h.1 h.2))

theorem endsAtom_splitLiteral (t : Text) : EndsAtom (splitLiteral t).2 := by
  fun_cases splitLiteral t with
  | case1 => exact endsAtom_splitAtom _
  | case2 => exact endsAtom_splitAtom _
  | case3 => exact endsAtom_splitAtom _

theorem splitLiteral_of_ne {c : Char} (h : c ≠ '?') (cs : Text) :
    splitLiteral (c :: cs) = splitAtom (c :: cs) := by
  rw [splitLiteral] <;> simp_all

theorem splitLiteral_char {c : Char} (h : c ≠ '\\') (cs : Text) :
    splitLiteral ('?' :: c :: cs) = ('?' :: c :: (splitAtom cs).1, (splitAtom cs).2) := by
  rw [splitLiteral]
  simp_all

theorem splitLiteral_append_of_eq {s x y : Text} (h : splitLiteral (s ++ x) = (s, x)) (hs : s ≠ [])
    (hx : x = [] → y = []) (hy : EndsAtom y) : splitLiteral (s ++ y) = (s, y) := by
  obtain ⟨c, s, rfl⟩ := List.exists_cons_of_ne_nil hs
  by_cases hq : c = '?'
  · subst hq
    rcases s with _ | ⟨d, s⟩
    · -- a question mark alone takes what is behind it, so there is nothing
      rcases x with _ | ⟨d, x⟩
      · rw [hx rfl]
        decide
      · exfalso
        by_cases hd : d = '\\'
        · subst hd
          cases x <;> simp [splitLiteral] at h
        · simp [splitLiteral_char hd] at h
    · by_cases hd : d = '\\'
      · subst hd
        rcases s with _ | ⟨e, s⟩
        · -- so does `?` with a backslash
          rcases x with _ | ⟨e, x⟩
          · rw [hx rfl]
            rfl
          · simp [splitLiteral] at h
        · simp only [List.cons_append, splitLiteral, Prod.mk.injEq, List.cons.injEq,
            true_and] at h ⊢
          exact Prod.ext_iff.1 (splitAtom_append_of_eq (Prod.ext h.1 h.2) hx hy)
      · simp only [List.cons_append, splitLiteral_char hd, Prod.mk.injEq, List.cons.injEq,
          true_and] at h ⊢
        exact Prod.ext_iff.1 (splitAtom_append_of_eq (Prod.ext h.1 h.2) hx hy)
  · rw [List.cons_append, splitLiteral_of_ne hq, ← List.cons_append] at h ⊢
    exact splitAtom_append_of_eq h hx hy

/-! ### comments -/

theorem trimRight_eq_nil {w : Text} (h : ∀ c ∈ w, isBlank c = true) : Text.trimRight w = [] := by
  induction w with
  | nil => rfl
  | cons c w ih =>
    have hw := ih fun d hd => h d (by simp [hd])
    simp [Text.trimRight, hw, h c (by simp)]

theorem trimRight_append {w : Text} (h : ∀ c ∈ w, isBlank c = true) (t : Text) :
    Text.trimRight (t ++ w) = Text.trimRight t := by
  induction t with
  | nil => rw [List.nil_append, trimRight_eq_nil h, Text.trimRight]
  | cons c t ih => rw [List.cons_append, Text.trimRight, Text.trimRight, ih]

theorem takeWhile_line_append {t : Text} (h : '\n' ∉ t) (x : Text) :
    (t ++ x).takeWhile (· ≠ '\n') = t ++ x.takeWhile (· ≠ '\n') := by
  rw [List.takeWhile_append_of_pos]
  intro c hc
  have : c ≠ '\n' := fun e => h (e ▸ hc)
  simpa using this

/-- A comment, once cut off: no line end, no blank at its end, and the line ends behind it. -/
theorem splitComment_eq_iff {t x : Text} :
    splitComment (t ++ x) = (t, x) ↔ '\n' ∉ t ∧ Text.trimRight t = t ∧ EndsLine x := by
  constructor
  · intro h
    simp only [splitComment, Prod.mk.injEq] at h
    obtain ⟨w, hw, e⟩ := Text.exists_trimRight_append ((t ++ x).takeWhile (· ≠ '\n'))
    rw [h.1] at e
    have hn : '\n' ∉ t := by
      intro hn
      have hm : '\n' ∈ (t ++ x).takeWhile (· ≠ '\n') := e ▸ List.mem_append_left w hn
      simpa using List.mem_takeWhile_imp hm
    rw [takeWhile_line_append hn] at e
    obtain rfl := List.append_cancel_left e
    refine ⟨hn, ?_, hw⟩
    have h1 := h.1
    rwa [takeWhile_line_append hn, trimRight_append hw] at h1
  · rintro ⟨hn, ht, hx⟩
    have e : Text.trimRight ((t ++ x).takeWhile (· ≠ '\n')) = t := by
      rw [takeWhile_line_append hn, trimRight_append hx, ht]
    simp only [splitComment, e, List.drop_left]

/-! ### marks -/

/-- The marks: two of them have two characters, and `,` does not stand before `@`. -/
theorem splitMark?_cases {s t x : Text} (h : splitMark? s = some (t, x)) :
    t = [',', '@'] ∨ t = ['#', '\x27'] ∨
      ∃ c, t = [c] ∧ (c = '\x27' ∨ c = '\x60' ∨ c = ',') ∧ (c = ',' → x.head? ≠ some '@') := by
  fun_cases splitMark? s with
  | case1 cs =>
    simp only [splitMark?, Option.some.injEq, Prod.mk.injEq] at h
    exact .inl h.1.symm
  | case2 cs =>
    simp only [splitMark?, Option.some.injEq, Prod.mk.injEq] at h
    exact .inr (.inl h.1.symm)
  | case3 c cs hsplice hquote hc =>
    rw [splitMark?, if_pos hc] at h
    · simp only [Option.some.injEq, Prod.mk.injEq] at h
      obtain ⟨rfl, rfl⟩ := h
      refine .inr (.inr ⟨c, rfl, by simpa [or_assoc] using hc, ?_⟩)
      rintro rfl hx
      cases cs with
      | nil => simp at hx
      | cons d cs =>
        simp only [List.head?_cons, Option.some.injEq] at hx
        exact hsplice cs rfl (by rw [hx])
    all_goals assumption
  | case4 c cs hsplice hquote hc =>
    rw [splitMark?, if_neg hc] at h
    · cases h
    all_goals assumption
  | case5 => cases h

theorem splitMark?_singleton {c : Char} (hc : c = '\x27' ∨ c = '\x60' ∨ c = ',') {y : Text}
    (hy : c = ',' → y.head? ≠ some '@') : splitMark? (c :: y) = some ([c], y) := by
  have hm : (decide (c = '\x27') || decide (c = '\x60') || decide (c = ',')) = true := by
    simpa [or_assoc] using hc
  rw [splitMark?, if_pos hm]
  · rintro cs rfl rfl
    simp at hy
  · rintro cs rfl -
    simp at hc

theorem splitMark?_append_of_isMark {t y : Text} (h : IsMark t)
    (hy : t = [','] → y.head? ≠ some '@') :
    splitMark? (t ++ y) = some (t, y) := by
  obtain rfl | rfl | ⟨c, rfl, hc, -⟩ := splitMark?_cases h
  · rfl
  · rfl
  · exact splitMark?_singleton hc fun e => hy (by rw [e])

theorem isMark_of_splitMark? {s t x : Text} (h : splitMark? s = some (t, x)) :
    IsMark t ∧ (t = [','] → x.head? ≠ some '@') := by
  obtain rfl | rfl | ⟨c, rfl, hc, hx⟩ := splitMark?_cases h
  · exact ⟨rfl, by simp⟩
  · exact ⟨rfl, by simp⟩
  · exact ⟨splitMark?_singleton hc (by simp), by simpa using hx⟩

theorem splitMark?_ne_none {c : Char} (hc : c = '\x27' ∨ c = '\x60' ∨ c = ',') (y : Text) :
    splitMark? (c :: y) ≠ none := by
  by_cases hsplice : c = ',' ∧ y.head? = some '@'
  · obtain ⟨rfl, hy⟩ := hsplice
    obtain ⟨z, rfl⟩ := List.head?_eq_some_iff.1 hy
    simp [splitMark?]
  · rw [splitMark?_singleton hc fun e hy => hsplice ⟨e, hy⟩]
    simp

/-- No mark comes first: that is seen from the token, if the text behind it ends an atom. -/
theorem splitMark?_append_eq_none {t x y : Text} (h : splitMark? (t ++ x) = none) (ht : t ≠ [])
    (hy : EndsAtom y) : splitMark? (t ++ y) = none := by
  obtain ⟨c, t, rfl⟩ := List.exists_cons_of_ne_nil ht
  rw [Option.eq_none_iff_forall_ne_some]
  rintro ⟨m, z⟩ hm
  have happ : m ++ z = c :: (t ++ y) := splitMark?_append hm
  obtain rfl | rfl | ⟨d, rfl, hd, -⟩ := splitMark?_cases hm
  · obtain rfl : ',' = c := by simpa using congrArg List.head? happ
    exact splitMark?_ne_none (by simp) _ h
  · obtain ⟨rfl, e⟩ : '#' = c ∧ '\x27' :: z = t ++ y := by simpa using happ
    cases t with
    | nil =>
      have hq := hy '\x27' (by rw [← List.nil_append y, ← e]; rfl)
      revert hq
      decide
    | cons d t =>
      obtain ⟨rfl, -⟩ := List.cons.inj e
      simp [splitMark?] at h
  · obtain rfl : d = c := by simpa using congrArg List.head? happ
    exact splitMark?_ne_none hd _ h

/-! ### one token -/

/-- `Cut k t y` — the token `t` of the kind `k` is cut off in front of `y`, one rule for each way of
the lexer. -/
inductive Cut : Kind → Text → Text → Prop
  | opener {c : Char} {y : Text} (hc : isOpener c = true) : Cut .openParen [c] y
  | closer {c : Char} {y : Text} (hc : isCloser c = true) : Cut .closeParen [c] y
  | string {s y : Text} (h : splitString (s ++ y) = some (s, y)) : Cut .string ('"' :: s) y
  | comment {s y : Text} (h : splitComment (';' :: (s ++ y)) = (';' :: s, y)) :
      Cut .comment (';' :: s) y
  | mark {t y : Text} (h : splitMark? (t ++ y) = some (t, y)) : Cut .punctuation t y
  | atom {c : Char} {s y : Text} (hc : isDelimiter c = false)
      (hm : splitMark? (c :: (s ++ y)) = none)
      (h : splitLiteral (c :: (s ++ y)) = (c :: s, y)) : Cut (atomKind (c :: s) y) (c :: s) y

theorem cut_of_split? {k : Kind} {t y : Text} (h : split? (t ++ y) = some (k, t, y)) (ht : t ≠ []) :
    Cut k t y := by
  obtain ⟨c, s, rfl⟩ := List.exists_cons_of_ne_nil ht
  rw [List.cons_append, split?] at h
  by_cases ho : isOpener c = true
  · simp only [if_pos ho, Option.some.injEq, Prod.mk.injEq, List.cons.injEq, true_and] at h
    obtain ⟨rfl, rfl, -⟩ := h
    exact .opener ho
  rw [if_neg ho] at h
  by_cases hcl : isCloser c = true
  · simp only [if_pos hcl, Option.some.injEq, Prod.mk.injEq, List.cons.injEq, true_and] at h
    obtain ⟨rfl, rfl, -⟩ := h
    exact .closer hcl
  rw [if_neg hcl] at h
  by_cases hq : c = '"'
  · rw [if_pos hq] at h
    subst hq
    obtain ⟨⟨s', y'⟩, hs, e⟩ := Option.map_eq_some_iff.1 h
    simp only [Prod.mk.injEq, List.cons.injEq, true_and] at e
    obtain ⟨rfl, rfl, rfl⟩ := e
    exact .string hs
  rw [if_neg hq] at h
  by_cases hsemi : c = ';'
  · rw [if_pos hsemi] at h
    subst hsemi
    simp only [Option.some.injEq, Prod.mk.injEq] at h
    obtain ⟨rfl, e⟩ := h
    exact .comment e
  rw [if_neg hsemi] at h
  have hd : isDelimiter c = false := by simp [isDelimiter, ho, hcl, hq, hsemi]
  split at h
  · next p hp =>
    simp only [Option.some.injEq, Prod.mk.injEq] at h
    obtain ⟨rfl, rfl⟩ := h
    exact .mark hp
  · next hp =>
    simp only [Option.some.injEq, Prod.mk.injEq] at h
    obtain ⟨hk, e⟩ := h
    rw [e] at hk
    rw [← hk]
    exact .atom hd hp e

theorem split?_of_cut {k : Kind} {t y : Text} (h : Cut k t y) :
    split? (t ++ y) = some (k, t, y) := by
  cases h with
  | opener hc => simp [split?, hc]
  | @closer c y hc =>
    have ho : isOpener c = false := by
      simp only [isCloser, Bool.or_eq_true, decide_eq_true_eq] at hc
      obtain rfl | rfl := hc <;> rfl
    simp [split?, ho, hc]
  | string h => simp [split?, isOpener, isCloser, h]
  | comment h => simp [split?, isOpener, isCloser, h]
  | mark h =>
    obtain rfl | rfl | ⟨c, rfl, hc, -⟩ := splitMark?_cases h
    · rfl
    · rfl
    · rw [List.singleton_append] at h ⊢
      obtain rfl | rfl | rfl := hc <;> simp [split?, isOpener, isCloser, h]
  | atom hc hm h =>
    simp only [isDelimiter, Bool.or_eq_false_iff, decide_eq_false_iff_not] at hc
    obtain ⟨⟨⟨ho, hcl⟩, hq⟩, hs⟩ := hc
    rw [List.cons_append, split?]
    simp [ho, hcl, hq, hs, hm, h]

theorem OpensList.endsAtom {y : Text} (h : OpensList y) : EndsAtom y := by
  intro c hc
  rw [OpensList, Option.mem_def.1 hc, Option.any_some] at h
  exact .inr (by simp [isDelimiter, h])

theorem not_isMark_of_eq_none {t y : Text} (h : splitMark? (t ++ y) = none) : ¬ IsMark t := by
  intro hm
  obtain rfl | rfl | ⟨c, rfl, hc, -⟩ := splitMark?_cases hm
  · simp [splitMark?] at h
  · simp [splitMark?] at h
  · exact splitMark?_ne_none hc y h

theorem follows_of_cut {k : Kind} {t y : Text} (h : Cut k t y) : Follows k t y := by
  cases h with
  | opener => trivial
  | closer => trivial
  | string => trivial
  | comment h =>
    rw [← List.cons_append] at h
    exact (splitComment_eq_iff.1 h).2.2
  | mark h => exact .inl (isMark_of_splitMark? h)
  | @atom c s y hc hm h =>
    have hy : EndsAtom y := by simpa [h] using endsAtom_splitLiteral (c :: (s ++ y))
    unfold atomKind
    split
    · exact hy
    split
    · exact hy
    split
    · next hk =>
      simp only [Bool.and_eq_true] at hk
      exact .inr ⟨not_isMark_of_eq_none hm, hk.2⟩
    · next hk =>
      refine ⟨hy, fun ht ho => hk ?_⟩
      rw [OpensList] at ho
      simp [ho, ht]

theorem follows_atomKind {t x y : Text} (hm : ¬ IsMark t) (h : Follows (atomKind t x) t y) :
    EndsAtom y ∧ atomKind t x = atomKind t y := by
  unfold atomKind at h ⊢
  by_cases hq : t.head? = some '?'
  · rw [if_pos hq] at h
    exact ⟨h, by simp [hq]⟩
  rw [if_neg hq] at h
  by_cases hn : isNumeral t = true
  · rw [if_pos hn] at h
    exact ⟨h, by simp [hq, hn]⟩
  rw [if_neg hn] at h
  split at h
  · next hk =>
    obtain ⟨hmark, -⟩ | ⟨-, ho⟩ := h
    · exact absurd hmark hm
    · refine ⟨ho.endsAtom, ?_⟩
      simp only [Bool.and_eq_true] at hk
      rw [OpensList] at ho
      simp [hq, hn, hk, ho]
  · next hk =>
    refine ⟨h.1, ?_⟩
    have hk' : ¬ (decide (t.head? = some '#') && y.head?.any isOpener) = true := by
      simp only [Bool.and_eq_true, decide_eq_true_eq, not_and]
      exact h.2
    rw [if_neg hq, if_neg hn, if_neg hk, if_neg hq, if_neg hn, if_neg hk']

/-- **A token is cut off in front of every text that follows it**, if it is cut off somewhere.  At
the end of a text it may be incomplete, and then it has to stay there. -/
theorem cut_of_follows {k : Kind} {t x y : Text} (h : Cut k t x) (hx : x = [] → y = [])
    (hy : Follows k t y) :
    Cut k t y := by
  cases h with
  | opener hc => exact .opener hc
  | closer hc => exact .closer hc
  | string h => exact .string (splitString_append_of_eq y h)
  | comment h =>
    rw [← List.cons_append] at h
    have h := splitComment_eq_iff.1 h
    exact .comment (splitComment_eq_iff.2 ⟨h.1, h.2.1, hy⟩)
  | mark h =>
    obtain ⟨hm, hy⟩ | ⟨hm, -⟩ := hy
    · exact .mark (splitMark?_append_of_isMark hm hy)
    · exact absurd (isMark_of_splitMark? h).1 hm
  | @atom c s x hc hm h =>
    obtain ⟨hend, hk⟩ := follows_atomKind (not_isMark_of_eq_none hm) hy
    rw [hk]
    exact .atom hc (splitMark?_append_eq_none hm (List.cons_ne_nil c s) hend)
      (splitLiteral_append_of_eq h (List.cons_ne_nil c s) hx hend)

/-! ### gaps -/

theorem takeWhile_line_append_of_mem {u : Text} (h : '\n' ∈ u) (x : Text) :
    (u ++ x).takeWhile (· ≠ '\n') = u.takeWhile (· ≠ '\n') := by
  induction u with
  | nil => simp at h
  | cons c u ih =>
    by_cases hc : c = '\n'
    · simp [hc]
    · simpa [hc] using ih (List.mem_of_ne_of_mem (Ne.symm hc) h)

theorem endsLine_append {g : Text} (hg : ∀ c ∈ g, isBlank c = true) (hn : '\n' ∈ g) (z : Text) :
    EndsLine (g ++ z) := by
  intro c hc
  rw [takeWhile_line_append_of_mem hn] at hc
  exact hg c ((List.takeWhile_sublist _).subset hc)

theorem newline_mem_of_endsLine {u x : Text} (h : EndsLine (u ++ x))
    (hu : ∃ c ∈ u, isBlank c = false) :
    '\n' ∈ u := by
  obtain ⟨c, hcu, hc⟩ := hu
  by_contra hn
  have hblank := h c (by
    rw [takeWhile_line_append hn]
    exact List.mem_append_left _ hcu)
  rw [hc] at hblank
  cases hblank

theorem not_opensList {y : Text} (hy : ∀ c ∈ y.head?, isBlank c = true) : ¬ OpensList y := by
  intro h
  obtain ⟨c, hc, ho⟩ := (Option.any_eq_true ..).1 h
  have hblank := hy c hc
  rw [isBlank_of_isOpener ho] at hblank
  cases hblank

/-- Behind blanks anything may follow, except that the mark of a list needs its list, and a comment
the end of its line. -/
theorem follows_append_iff {k : Kind} {t g : Text} (hg : ∀ c ∈ g, isBlank c = true) (hne : g ≠ [])
    (z : Text) :
    Follows k t (g ++ z) ↔ (k = .comment → EndsLine (g ++ z)) ∧ (k = .punctuation → IsMark t) := by
  obtain ⟨c, g, rfl⟩ := List.exists_cons_of_ne_nil hne
  have hc := hg c (by simp)
  have hend : EndsAtom (c :: g ++ z) := by simp [EndsAtom, hc]
  have hopen : ¬ OpensList (c :: g ++ z) := not_opensList (by simpa using hc)
  have hat : (c :: g ++ z).head? ≠ some '@' := by
    intro h
    obtain rfl : c = '@' := by simpa using h
    revert hc
    decide
  generalize c :: g ++ z = y at hend hopen hat ⊢
  cases k <;> simp [Follows, hend, hopen, hat]

/-- What may follow a token is decided by what stands up to the first inked character. -/
theorem Follows.append_congr {k : Kind} {t u x : Text} (h : Follows k t (u ++ x))
    (hu : ∃ c ∈ u, isBlank c = false) (y : Text) : Follows k t (u ++ y) := by
  have hhead : (u ++ y).head? = (u ++ x).head? := by
    obtain ⟨c, hcu, -⟩ := hu
    cases u with
    | nil => simp at hcu
    | cons d u => rfl
  have hline : EndsLine (u ++ x) → EndsLine (u ++ y) := by
    intro hx
    have hn := newline_mem_of_endsLine hx hu
    rwa [EndsLine, takeWhile_line_append_of_mem hn] at hx ⊢
  unfold Follows EndsAtom OpensList at *
  rw [hhead]
  cases k with
  | comment => exact hline h
  | _ => exact h

end Lexer

end SexpLayout
