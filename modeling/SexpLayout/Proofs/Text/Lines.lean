import Mathlib.Data.List.TakeWhile
import SexpLayout.Text.Basic

/-!
# The lines of a text

Every line of a text but the first starts behind a line end.  A line end cuts the text in two, and
the line behind it is the first line of the second part; its number is the number of line ends in
the first part.

* `splitOn_append_cons`, `getElem?_splitOn_cut` — pieces and cuts;
* `Text.lineStart` — where a line starts;
* `splitOn_eq_mapIdx` — **two texts are compared line by line**, by comparing what stands behind
  their line ends.
-/

namespace SexpLayout.Text

/-! ### pieces -/

theorem exists_splitOn_cons (sep : Char) (t : Text) :
    ∃ pieces, splitOn sep t = t.takeWhile (· ≠ sep) :: pieces := by
  induction t with
  | nil => exact ⟨[], rfl⟩
  | cons c t ih =>
    obtain ⟨pieces, h⟩ := ih
    by_cases hc : c = sep
    · exact ⟨splitOn sep t, by simp [splitOn, h, hc]⟩
    · exact ⟨pieces, by simp [splitOn, h, hc]⟩

theorem splitOn_sep_cons (sep : Char) (t : Text) :
    splitOn sep (sep :: t) = [] :: splitOn sep t := by
  obtain ⟨pieces, h⟩ := exists_splitOn_cons sep t
  simp [splitOn, h]

theorem splitOn_append_cons (sep : Char) (a b : Text) :
    splitOn sep (a ++ sep :: b) = splitOn sep a ++ splitOn sep b := by
  induction a with
  | nil => exact splitOn_sep_cons sep b
  | cons c a ih =>
    obtain ⟨pieces, h⟩ := exists_splitOn_cons sep a
    rw [List.cons_append, splitOn, ih, splitOn, h]
    by_cases hc : c = sep <;> simp [hc]

theorem length_splitOn (sep : Char) (t : Text) : (splitOn sep t).length = t.count sep + 1 := by
  induction t with
  | nil => rfl
  | cons c t ih =>
    obtain ⟨pieces, h⟩ := exists_splitOn_cons sep t
    rw [h, List.length_cons] at ih
    by_cases hc : c = sep
    · simp [splitOn, h, hc, ih]
    · simp [splitOn, h, hc, ih]

theorem flatMap_splitOn (sep : Char) (t : Text) :
    ((splitOn sep t).flatMap fun piece => piece ++ [sep]) = t ++ [sep] := by
  induction t with
  | nil => rfl
  | cons c t ih =>
    obtain ⟨pieces, h⟩ := exists_splitOn_cons sep t
    rw [h, List.flatMap_cons] at ih
    by_cases hc : c = sep
    · simp only [splitOn, h, hc, if_true, List.flatMap_cons, ih]
      rfl
    · simp only [splitOn, h, hc, if_false, List.flatMap_cons, List.cons_append, ih]

/-! ### cuts -/

/-- A cut of two texts in a row is a cut of the one or of the other. -/
theorem cut_append {x y a b : Text} {c : Char} (h : x ++ y = a ++ c :: b) :
    (∃ x', x = a ++ c :: x' ∧ b = x' ++ y) ∨ ∃ a', a = x ++ a' ∧ y = a' ++ c :: b := by
  rcases List.append_eq_append_iff.1 h with ⟨a', rfl, rfl⟩ | ⟨x', rfl, hx⟩
  · exact .inr ⟨a', rfl, rfl⟩
  · cases x' with
    | nil => exact .inr ⟨[], by simp, by simpa using hx.symm⟩
    | cons d x' =>
      obtain ⟨rfl, rfl⟩ := List.cons.inj hx
      exact .inl ⟨x', rfl, rfl⟩

theorem exists_cut {sep : Char} {t : Text} {i : Nat} (h : i < t.count sep) :
    ∃ a b, t = a ++ sep :: b ∧ a.count sep = i := by
  induction t generalizing i with
  | nil => simp at h
  | cons c t ih =>
    by_cases hc : c = sep
    · subst hc
      cases i with
      | zero => exact ⟨[], t, rfl, rfl⟩
      | succ i =>
        obtain ⟨a, b, rfl, ha⟩ := ih (i := i) (by simpa using h)
        exact ⟨c :: a, b, rfl, by simp [ha]⟩
    · obtain ⟨a, b, rfl, ha⟩ := ih (i := i) (by simpa [List.count_cons, hc] using h)
      exact ⟨c :: a, b, rfl, by simpa [List.count_cons, hc] using ha⟩

theorem getElem?_splitOn_cut (sep : Char) (a b : Text) :
    (splitOn sep (a ++ sep :: b))[a.count sep + 1]? = some (b.takeWhile (· ≠ sep)) := by
  obtain ⟨pieces, h⟩ := exists_splitOn_cons sep b
  rw [splitOn_append_cons, ← length_splitOn, List.getElem?_append_right (Nat.le_refl _),
    h, Nat.sub_self]
  rfl

/-- The offset at which a line of a text starts: behind the lines in front of it and their line
ends. -/
def lineStart (t : Text) (i : Nat) : Nat :=
  (((splitOn '\n' t).take i).flatMap fun line => line ++ ['\n']).length

theorem lineStart_cut (a b : Text) :
    lineStart (a ++ '\n' :: b) (a.count '\n' + 1) = a.length + 1 := by
  rw [lineStart, splitOn_append_cons, ← length_splitOn, List.take_left, flatMap_splitOn,
    List.length_append]
  rfl

/-- **Comparing line by line**: the first lines agree, and behind every line end of the first text
there is the line of the second one that belongs there. -/
theorem splitOn_eq_mapIdx {t u : Text} {f : Nat → Text → Text}
    (hcount : u.count '\n' = t.count '\n')
    (hfirst : u.takeWhile (· ≠ '\n') = t.takeWhile (· ≠ '\n'))
    (hcuts : ∀ a b, t = a ++ '\n' :: b → ∃ a' b', u = a' ++ '\n' :: b' ∧
      a'.count '\n' = a.count '\n' ∧ b'.takeWhile (· ≠ '\n') = f (a.length + 1)
      (b.takeWhile (· ≠ '\n'))) :
    splitOn '\n' u = (splitOn '\n' t).mapIdx fun i line =>
      if i = 0 then line else f (t.lineStart i) line := by
  refine List.ext_getElem? fun i => ?_
  rw [List.getElem?_mapIdx]
  cases i with
  | zero =>
    obtain ⟨pieces, ht⟩ := exists_splitOn_cons '\n' t
    obtain ⟨pieces', hu⟩ := exists_splitOn_cons '\n' u
    rw [ht, hu, hfirst]
    rfl
  | succ i =>
    by_cases hi : i < t.count '\n'
    · obtain ⟨a, b, rfl, rfl⟩ := exists_cut hi
      obtain ⟨a', b', rfl, ha', hline⟩ := hcuts a b rfl
      rw [getElem?_splitOn_cut, ← ha', getElem?_splitOn_cut, ha', lineStart_cut, hline]
      simp
    · rw [List.getElem?_eq_none (by rw [length_splitOn]; omega),
        List.getElem?_eq_none (by rw [length_splitOn]; omega)]
      rfl

end SexpLayout.Text
