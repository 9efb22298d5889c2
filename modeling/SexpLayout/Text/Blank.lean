import SexpLayout.Text.Basic

/-!
# Blanks

`isBlank` is the whitespace property of characters.  A formatter may move blanks only, so what it
keeps of a text is `Text.nonBlank`; every argument that formatting ends rests on `Text.ink`, the
number of characters kept.
-/

namespace SexpLayout

def blankRanges : List (Nat × Nat) :=
  [(0x09, 0x0D), (0x1C, 0x20), (0x85, 0x85), (0xA0, 0xA0), (0x1680, 0x1680), (0x2000, 0x200A),
    (0x2028, 0x2029), (0x202F, 0x202F), (0x205F, 0x205F), (0x3000, 0x3000)]

/-- Spaces, tabs, line ends and the other white characters. -/
def isBlank (c : Char) : Bool := inRanges blankRanges c.toNat

@[simp] theorem isBlank_space : isBlank ' ' = true := by decide

@[simp] theorem isBlank_newline : isBlank '\n' = true := by decide

namespace Text

/-- The characters of a text that are not blank, in order. -/
def nonBlank (t : Text) : Text := t.filter fun c => !isBlank c

/-- How many characters of a text are not blank. -/
def ink (t : Text) : Nat := (nonBlank t).length

@[simp] theorem nonBlank_nil : nonBlank [] = [] := rfl

@[simp] theorem nonBlank_append (s t : Text) : nonBlank (s ++ t) = nonBlank s ++ nonBlank t :=
  List.filter_append ..

@[simp] theorem ink_nil : ink [] = 0 := rfl

@[simp] theorem ink_append (s t : Text) : ink (s ++ t) = ink s + ink t := by simp [ink]

theorem nonBlank_of_blank {t : Text} (h : ∀ c ∈ t, isBlank c = true) : nonBlank t = [] := by
  simpa [nonBlank, List.filter_eq_nil_iff] using h

theorem ink_cons_pos {c : Char} (h : isBlank c = false) (t : Text) : 0 < ink (c :: t) := by
  simp [ink, nonBlank, h]

/-- The text without the blanks at its end. -/
def trimRight : Text → Text
  | [] => []
  | c :: cs =>
    match trimRight cs with
    | [] => if isBlank c then [] else [c]
    | d :: ds => c :: d :: ds

theorem exists_trimRight_append (t : Text) :
    ∃ w : Text, (∀ c ∈ w, isBlank c = true) ∧ trimRight t ++ w = t := by
  induction t with
  | nil => exact ⟨[], by simp, rfl⟩
  | cons c cs ih =>
    obtain ⟨w, hw, e⟩ := ih
    cases h : trimRight cs with
    | nil =>
      rw [h] at e
      by_cases hc : isBlank c = true
      · refine ⟨c :: w, ?_, by simp_all [trimRight]⟩
        intro d hd
        rcases List.mem_cons.1 hd with rfl | hd
        · exact hc
        · exact hw d hd
      · exact ⟨w, hw, by simp_all [trimRight]⟩
    | cons d ds =>
      rw [h] at e
      exact ⟨w, hw, by simpa [trimRight, h] using e⟩

theorem exists_trimRight_cons {c : Char} (h : isBlank c = false) (cs : Text) :
    ∃ t, trimRight (c :: cs) = c :: t := by
  cases e : trimRight cs <;> simp [trimRight, e, h]

end Text

end SexpLayout
