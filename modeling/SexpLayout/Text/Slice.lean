import SexpLayout.Text.Blank

/-!
# Slices and columns

Offsets may lie outside a text.  As an end of a slice, an offset below zero counts from the end of
the text, and what still lies outside is moved to the nearer end.
-/

namespace SexpLayout.Text

/-- The position in the text that an offset stands for. -/
def position (t : Text) (offset : Int) : Nat :=
  if offset < 0 then (offset + t.length).toNat else min offset.toNat t.length

def before (t : Text) (offset : Int) : Text := t.take (t.position offset)

def since (t : Text) (offset : Int) : Text := t.drop (t.position offset)

/-- The text between two offsets; it is empty if they are not in order. -/
def slice (t : Text) (start stop : Int) : Text := (t.before stop).drop (t.position start)

/-- The column behind the first `count` characters of a text that starts at a column. -/
def columnAfter : (count column : Nat) → Text → Nat
  | 0, column, _ => column
  | _ + 1, column, [] => column
  | count + 1, column, c :: cs => columnAfter count (if c = '\n' then 0 else column + 1) cs

/-- How many characters stand behind the last line end. -/
def lastColumn (t : Text) : Nat := columnAfter t.length 0 t

/-- The column of an offset: its distance from the start of its line. -/
def columnAt (t : Text) (offset : Int) : Int :=
  let n := t.position offset
  offset - ((n : Int) - columnAfter n 0 t)

theorem position_natCast {t : Text} {n : Nat} (h : n ≤ t.length) : t.position n = n := by
  unfold position
  split <;> omega

theorem before_append (s r : Text) : before (s ++ r) s.length = s := by
  rw [before, position_natCast (by simp), List.take_left]

theorem since_append (s r : Text) : since (s ++ r) s.length = r := by
  rw [since, position_natCast (by simp), List.drop_left]

theorem since_region (pre mid post : Text) :
    since (pre ++ (mid ++ post)) (pre.length + mid.length : Nat) = post := by
  rw [← List.append_assoc, ← List.length_append]
  exact since_append ..

theorem slice_region (pre mid post : Text) :
    slice (pre ++ (mid ++ post)) pre.length (pre.length + mid.length : Nat) = mid := by
  have hupto : before (pre ++ (mid ++ post)) (pre.length + mid.length : Nat) = pre ++ mid := by
    rw [← List.append_assoc, ← List.length_append]
    exact before_append ..
  rw [slice, hupto, position_natCast (by simp), List.drop_left]

theorem columnAfter_append (a b : Text) (column : Nat) :
    columnAfter a.length column (a ++ b) = columnAfter a.length column a := by
  induction a generalizing column with
  | nil => cases b <;> rfl
  | cons c a ih => exact ih _

theorem columnAt_length (a b : Text) : (a ++ b : Text).columnAt a.length = a.lastColumn := by
  have hpos : Text.position (a ++ b) a.length = a.length := position_natCast (by simp)
  simp only [columnAt, hpos, columnAfter_append, lastColumn]
  omega

theorem before_append_since (t : Text) (offset : Int) : t.before offset ++ t.since offset = t :=
  List.take_append_drop ..

/-- A text is what stands before a region, the region and what stands behind it. -/
theorem before_slice_since (t : Text) {m n : Nat} (h : m ≤ n) :
    t.before m ++ t.slice m n ++ t.since n = t := by
  have hle : t.position m ≤ t.position n := by
    unfold position
    split <;> split <;> omega
  have hbefore : t.before m = (t.before n).take (t.position m) := by
    rw [before, before, List.take_take, Nat.min_eq_left hle]
  rw [hbefore, slice, List.take_append_drop, before_append_since]

end SexpLayout.Text
