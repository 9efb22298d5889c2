import SexpLayout.Proofs.Format.Document
import SexpLayout.Proofs.Format.IndentedGaps

/-!
# The columns of an indented text

Indentation keeps a cursor: the column of the next character and the columns of the open brackets.
These are the columns that the characters have in the indented text itself, if its first line starts
at the base column.

* `Text.columnFrom` — the column of an offset, where the first line starts at a column of its own;
* `Indent.openBrackets` — the brackets that are open behind some lexemes;
* `Indent.Tracks` — **the cursor stands where the indented text stands**; `tracks_advance` — one
  step, and `tracks_indentLexemes` — the run over the lexemes.
-/

namespace SexpLayout

open Lexeme (spell spell_cons spell_append placed)

/-! ### columns of a text -/

namespace Text

theorem columnAfter_append_of_le {n : Nat} {a : Text} (h : n ≤ a.length) (column : Nat) (b : Text) :
    columnAfter n column (a ++ b) = columnAfter n column a := by
  induction a generalizing n column with
  | nil =>
    obtain rfl : n = 0 := by simpa using h
    cases b <;> rfl
  | cons c a ih =>
    cases n with
    | zero => rfl
    | succ n => exact ih (by simpa using h) _

theorem columnAfter_of_not_mem {t : Text} (h : '\n' ∉ t) (column : Nat) :
    columnAfter t.length column t = column + t.length := by
  induction t generalizing column with
  | nil => rfl
  | cons c t ih =>
    obtain ⟨hc, ht⟩ : '\n' ≠ c ∧ '\n' ∉ t := by simpa using h
    rw [List.length_cons, columnAfter, if_neg (Ne.symm hc), ih ht]
    omega

theorem columnAfter_of_getLast? {t : Text} (h : t.getLast? = some '\n') (column : Nat) :
    columnAfter t.length column t = 0 := by
  obtain ⟨init, rfl⟩ := List.getLast?_eq_some_iff.1 h
  rw [columnAfter_length_append]
  rfl

/-- The column of an offset in a text whose first line starts at the column `base`. -/
def columnFrom (base : Nat) (t : Text) (offset : Nat) : Nat :=
  columnAfter offset 0 t + if '\n' ∈ t.take offset then 0 else base

theorem columnFrom_eq (base : Nat) (t : Text) (offset : Nat) :
    columnFrom base t offset = columnAfter offset base t := by
  -- from any column on
  have key : ∀ (n column : Nat) (t : Text),
      columnAfter n column t + (if '\n' ∈ t.take n then 0 else base) =
        columnAfter n (column + base) t := by
    intro n column t
    induction t generalizing n column with
    | nil => cases n <;> simp [columnAfter]
    | cons c t ih =>
      cases n with
      | zero => simp [columnAfter]
      | succ n =>
        by_cases hc : c = '\n'
        · simp [columnAfter, hc]
        · have hstep := ih n (column + 1)
          simp only [columnAfter, if_neg hc, List.take_succ_cons, List.mem_cons,
            Ne.symm hc, false_or]
          rw [hstep]
          congr 1
          omega
  simpa [columnFrom] using key offset 0 t

end Text

open Text (columnAfter)

namespace Indent

/-! ### open brackets -/

/-- The brackets that are open behind some lexemes, the innermost first.  Brackets of both kinds
close each other, and a closing bracket too many closes nothing. -/
def openBrackets (ls : List Lexeme) : List Lexeme :=
  ls.foldl (fun stack l =>
    match l.kind with
    | .openParen => l :: stack
    | .closeParen => stack.tail
    | _ => stack) []

theorem openBrackets_concat (ls : List Lexeme) (l : Lexeme) :
    openBrackets (ls ++ [l]) =
      match l.kind with
      | .openParen => l :: openBrackets ls
      | .closeParen => (openBrackets ls).tail
      | _ => openBrackets ls := by
  rw [openBrackets, List.foldl_append]
  rfl

theorem mem_of_mem_openBrackets {ls : List Lexeme} {o : Lexeme} (h : o ∈ openBrackets ls) :
    o ∈ ls := by
  induction ls using List.reverseRecOn with
  | nil => exact h
  | append_singleton ls l ih =>
    rw [openBrackets_concat] at h
    split at h
    · rcases List.mem_cons.1 h with rfl | h
      · simp
      · exact List.mem_append_left _ (ih h)
    · exact List.mem_append_left _ (ih (List.mem_of_mem_tail h))
    · exact List.mem_append_left _ (ih h)

theorem stop_le_of_mem_placed {ls : List Lexeme} {offset : Nat} {l : Lexeme}
    (h : l ∈ placed offset ls) :
    l.stop ≤ offset + (spell ls).length := by
  induction ls generalizing offset with
  | nil => simp [placed] at h
  | cons m ms ih =>
    rw [spell_cons, List.length_append]
    rcases List.mem_cons.1 h with rfl | h
    · simp only [Lexeme.moved, Lexeme.source, List.length_append]
      omega
    · have := ih h
      omega

/-- The column of a line behind some lexemes of an indented text: the one of the innermost open
bracket if the line starts with a closing bracket, `width` more if not, and the base column if no
bracket is open. -/
def startColumn (width base : Nat) (out : Text) (before : List Lexeme) (closing : Bool) : Nat :=
  match openBrackets before with
  | [] => base
  | o :: _ => out.columnFrom base o.start + if closing then 0 else width

/-! ### the cursor -/

/-- The cursor stands behind the lexemes of an indented text: it holds the column behind them, the
columns of the brackets that are open, and whether they end with a line end. -/
structure Tracks (base : Nat) (done : List Lexeme) (cursor : Cursor) : Prop where
  column : cursor.column = columnAfter (spell done).length base (spell done)
  brackets : cursor.brackets =
    (openBrackets (placed 0 done)).map fun o => (columnAfter o.start base (spell done) : Int)
  fresh : cursor.fresh = true ↔ (spell done).getLast? = some '\n'

theorem tracks_nil (base : Nat) : Tracks base [] ⟨[], base, false⟩ := ⟨rfl, rfl, by simp⟩

section Step

variable (width : Nat) {base : Nat} {done : List Lexeme} {cursor : Cursor}

theorem Tracks.target_eq (h : Tracks base done cursor) (kind : Kind) (rest : Text) :
    target width base cursor.brackets kind =
      (startColumn width base (spell done ++ rest) (placed 0 done) (kind = .closeParen) : Nat) := by
  rw [h.brackets, startColumn]
  cases hopen : openBrackets (placed 0 done) with
  | nil => rfl
  | cons o os =>
    have ho : o ∈ placed 0 done := mem_of_mem_openBrackets (by simp [hopen])
    have hle : o.start ≤ (spell done).length := by
      have h1 := stop_le_of_mem_placed ho
      have h2 := Lexeme.stop_of_mem_placed ho
      omega
    dsimp only
    rw [Text.columnFrom_eq, Text.columnAfter_append_of_le hle]
    by_cases hk : kind = .closeParen <;> simp [target, hk]

theorem Tracks.target_nonneg (h : Tracks base done cursor) (kind : Kind) :
    0 ≤ target width base cursor.brackets kind := by
  rw [h.target_eq width kind []]
  exact Int.natCast_nonneg _

theorem Tracks.getLast?_lineEnds (h : Tracks base done cursor) {gap : Text}
    (hline : startsLine cursor.fresh gap = true) :
    (spell done ++ lineEnds cursor.fresh gap).getLast? = some '\n' := by
  unfold lineEnds
  rw [← List.append_assoc]
  by_cases hcount : gap.count '\n' = 0
  · -- the gap has no line end, so the token in front of it has
    have hnot : '\n' ∉ gap := List.count_eq_zero.1 hcount
    have hfresh : cursor.fresh = true := by simpa [startsLine, hnot] using hline
    simpa [hfresh, hcount] using h.fresh.1 hfresh
  · simp [List.getLast?_replicate, hcount]

/-- **The column behind a gap** is the one that the indented text has there. -/
theorem Tracks.column_indentGap (h : Tracks base done cursor) (kind : Kind) (gap : Text) :
    (indentGap width base cursor kind gap).2 =
      columnAfter (spell done ++ (indentGap width base cursor kind gap).1).length base
        (spell done ++ (indentGap width base cursor kind gap).1) := by
  have hnonneg := h.target_nonneg width kind
  unfold indentGap
  split
  · next hline =>
    have hlast := Text.columnAfter_of_getLast? (h.getLast?_lineEnds hline) base
    have hspaces : '\n' ∉ List.replicate (target width base cursor.brackets kind).toNat ' ' := by
      simp
    dsimp only
    rw [← List.append_assoc, Text.columnAfter_length_append, hlast,
      Text.columnAfter_of_not_mem hspaces, List.length_replicate]
    omega
  · next hline =>
    have hnot : '\n' ∉ gap := by
      intro hmem
      simp [startsLine, hmem] at hline
    dsimp only
    rw [Text.columnAfter_length_append, Text.columnAfter_of_not_mem hnot, h.column]
    omega

/-- **One step**: the cursor goes on to stand where the indented text stands. -/
theorem tracks_advance (h : Tracks base done cursor) {l : Lexeme} (hne : l.text ≠ []) :
    Tracks base (done ++ [{ l with gap := (indentGap width base cursor l.kind l.gap).1 }])
      (advance cursor (indentGap width base cursor l.kind l.gap).2 l.toToken) := by
  have hcolumn := h.column_indentGap width l.kind l.gap
  generalize (indentGap width base cursor l.kind l.gap).1 = gap at hcolumn ⊢
  generalize (indentGap width base cursor l.kind l.gap).2 = column at hcolumn ⊢
  have hspell : spell (done ++ [{ l with gap := gap }]) = (spell done ++ gap) ++ l.text := by
    simp [Lexeme.source]
  have hplaced : placed 0 (done ++ [{ l with gap := gap }]) =
      placed 0 done ++ [Lexeme.moved (spell done ++ gap).length { l with gap := gap }] := by
    simp [Lexeme.placed_append, placed]
  -- the columns of the brackets that were open do not change
  have hold : cursor.brackets = (openBrackets (placed 0 done)).map fun o =>
      (columnAfter o.start base ((spell done ++ gap) ++ l.text) : Int) := by
    rw [h.brackets]
    refine List.map_congr_left fun o ho => ?_
    have h1 := stop_le_of_mem_placed (mem_of_mem_openBrackets ho)
    have h2 := Lexeme.stop_of_mem_placed (mem_of_mem_openBrackets ho)
    rw [List.append_assoc, Text.columnAfter_append_of_le (by omega)]
  refine ⟨?_, ?_, ?_⟩
  · rw [hspell, Text.columnAfter_length_append, advance]
    by_cases hn : '\n' ∈ l.text
    · simp only [List.contains_iff_mem, hn, if_true, Text.lastColumn]
      rw [Text.columnAfter_of_newline hn]
    · simp only [List.contains_iff_mem, hn, if_false]
      rw [Text.columnAfter_of_not_mem hn, hcolumn]
      omega
  · rw [hspell, hplaced, openBrackets_concat, advance]
    have hnew :
        column = columnAfter (spell done ++ gap).length base ((spell done ++ gap) ++ l.text) := by
      rw [Text.columnAfter_append, hcolumn]
    cases hk : l.kind with
    | openParen => simpa [hk, hold, Lexeme.moved] using hnew
    | closeParen => simp [hk, hold, List.map_tail]
    | _ => simp [hk, hold]
  · rw [hspell, List.getLast?_append_of_ne_nil _ hne]
    simp [advance]

/-- **The run over the lexemes.** -/
theorem tracks_indentLexemes (h : Tracks base done cursor) {ls : List Lexeme}
    (hne : ∀ l ∈ ls, l.text ≠ []) :
    Tracks base (done ++ (indentLexemes width base cursor ls).1)
      (indentLexemes width base cursor ls).2 := by
  induction ls generalizing done cursor with
  | nil => simpa [indentLexemes] using h
  | cons l ls ih =>
    have hstep := ih (tracks_advance width h (hne l (by simp))) fun m hm => hne m (by simp [hm])
    simpa [indentLexemes] using hstep

end Step

end Indent

end SexpLayout
