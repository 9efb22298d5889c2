import SexpLayout.Proofs.Format.IndentedColumns
import SexpLayout.Proofs.Text.Lines

/-!
# The lines of an indented text

Indentation takes a text line by line.  The first line and those that begin inside a token stay as
they are, blank lines become empty, and every other line starts at the column of the innermost open
bracket, or `width` behind it.

* `Indent.indentedLine` — what becomes of one line;
* `Indent.LineBehind` — where a line begins: inside a token, in front of one, or behind the last;
* `Indent.line_indentFrom` — the rest of a line that has begun stays;
* `splitOn_indentText` — **the lines of the indented text**.
-/

namespace SexpLayout

open Lexeme (spell spell_cons spell_append placed Legible)
open Lexer (isOpener isCloser takeWhile_line_append takeWhile_line_append_of_mem)

namespace Indent

/-! ### one line -/

/-- A line without the blanks in front of it, starting at a column that depends on whether its first
character is a closing bracket; a blank line becomes empty. -/
def relined (column : Bool → Nat) (line : Text) : Text :=
  match line.dropWhile isBlank with
  | [] => []
  | c :: s => List.replicate (column (isCloser c)) ' ' ++ c :: s

/-- What indentation makes of a line that begins at an offset of the passage `p`, where `q` is the
indented passage. -/
def indentedLine (width base : Nat) (p q : Passage) (start : Nat) (line : Text) : Text :=
  if p.lexemes.any fun l => l.start < start && start < l.stop then line
  else relined
    (startColumn width base q.text (q.lexemes.take (p.lexemes.countP fun l => l.start < start)))
    line

theorem relined_of_blank (column : Bool → Nat) {line : Text} (h : ∀ c ∈ line, isBlank c = true) :
    relined column line = [] := by
  simp [relined, List.dropWhile_eq_nil_iff.2 h]

theorem relined_of_inked (column : Bool → Nat) {w : Text} (hw : ∀ c ∈ w, isBlank c = true)
    {c : Char} (hc : isBlank c = false) (s : Text) :
    relined column (w ++ c :: s) = List.replicate (column (isCloser c)) ' ' ++ c :: s := by
  simp [relined, List.dropWhile_append_of_pos hw, hc]

/-! ### where a line begins -/

def EndsFresh (ls : List Lexeme) : Prop := ∃ init l, ls = init ++ [l] ∧ l.text.getLast? = some '\n'

/-- In the text of some lexemes and a tail, `a` stands in front of a line end and `b` behind it. -/
inductive LineBehind (tail : Text) : List Lexeme → Text → Text → Prop
  | inside (before after : List Lexeme) {l : Lexeme} {t t' : Text}
    (htext : l.text = t ++ '\n' :: t') (hne : t' ≠ []) :
    LineBehind tail (before ++ l :: after) (spell before ++ (l.gap ++ t))
      (t' ++ (spell after ++ tail))
  | leading (before after : List Lexeme) {l : Lexeme} {a v w : Text} (hgap : l.gap = v ++ w)
    (ha : a ++ ['\n'] = spell before ++ v) (hfresh : '\n' ∉ v → EndsFresh before) :
    LineBehind tail (before ++ l :: after) a (w ++ (l.text ++ (spell after ++ tail)))
  | trailing {before : List Lexeme} {a v w : Text} (htail : tail = v ++ w)
    (ha : a ++ ['\n'] = spell before ++ v) (hfresh : '\n' ∉ v → EndsFresh before) :
    LineBehind tail before a w

theorem EndsFresh.cons {ls : List Lexeme} (h : EndsFresh ls) (l : Lexeme) :
    EndsFresh (l :: ls) := by
  obtain ⟨init, m, rfl, hm⟩ := h
  exact ⟨l :: init, m, rfl, hm⟩

theorem LineBehind.cons {tail : Text} {ls : List Lexeme} {a b : Text} (h : LineBehind tail ls a b)
    (l : Lexeme) :
    LineBehind tail (l :: ls) (l.source ++ a) b := by
  cases h with
  | inside before after htext hne =>
    rw [← List.append_assoc]
    exact .inside (l :: before) after htext hne
  | leading before after hgap ha hfresh =>
    exact .leading (l :: before) after hgap (by simp [← ha]) fun hv => (hfresh hv).cons l
  | trailing htail ha hfresh => exact .trailing htail (by simp [← ha]) fun hv => (hfresh hv).cons l

/-- **Where a line begins.** -/
theorem lineBehind_of_cut {ls : List Lexeme} {tail a b : Text}
    (h : spell ls ++ tail = a ++ '\n' :: b) :
    LineBehind tail ls a b := by
  induction ls generalizing a with
  | nil => exact .trailing (v := a ++ ['\n']) (by simpa using h) rfl (by simp)
  | cons l ls ih =>
    rw [spell_cons, Lexeme.source, List.append_assoc, List.append_assoc] at h
    rcases Text.cut_append h with ⟨w, hgap, rfl⟩ | ⟨a', rfl, hrest⟩
    · exact .leading [] ls (v := a ++ ['\n']) (by simp [hgap]) rfl (by simp)
    rcases Text.cut_append hrest with ⟨t', htext, rfl⟩ | ⟨a'', rfl, hlast⟩
    · by_cases hne : t' = []
      · -- the token ends its line, so the next line begins in front of the next token or behind the
        -- last one
        subst hne
        have hfresh : EndsFresh [l] := ⟨[], l, rfl, by simp [htext]⟩
        have ha : (l.gap ++ a') ++ ['\n'] = spell [l] ++ [] := by simp [Lexeme.source, htext]
        cases ls with
        | nil => exact .trailing (v := []) rfl ha fun _ => hfresh
        | cons m ms =>
          rw [spell_cons, Lexeme.source, List.append_assoc, List.append_assoc]
          exact .leading [l] ms (v := []) rfl ha fun _ => hfresh
      · exact .inside [] ls htext hne
    · have h := (ih hlast).cons l
      rwa [Lexeme.source, List.append_assoc] at h

/-! ### the tokens in front of a line -/

/-- Behind some lexemes and not behind the start of the next one, an offset is inside no token. -/
theorem between_tokens {before after : List Lexeme} {offset : Nat} (hne : ∀ l ∈ before, l.text ≠ [])
    (hbefore : (spell before).length ≤ offset)
    (hafter : ∀ l ∈ placed (spell before).length after, offset ≤ l.start) :
    (placed 0 (before ++ after)).any (fun l => l.start < offset && offset < l.stop) = false ∧
      (placed 0 (before ++ after)).countP (fun l => l.start < offset) = before.length := by
  have hin : ∀ l ∈ placed 0 before, l.start < offset ∧ l.stop ≤ offset := by
    intro l hl
    obtain ⟨m, hm, e⟩ := Lexeme.exists_mem_of_map_word (Lexeme.map_word_placed 0 before) hl
    have htext : 0 < l.text.length := by
      rw [← e.2]
      exact List.length_pos_of_ne_nil (hne m hm)
    have h1 := stop_le_of_mem_placed hl
    have h2 := Lexeme.stop_of_mem_placed hl
    omega
  rw [Lexeme.placed_append, Nat.zero_add]
  constructor
  · rw [List.any_append, Bool.or_eq_false_iff, List.any_eq_false, List.any_eq_false]
    constructor
    · intro l hl
      have := hin l hl
      simp only [Bool.and_eq_true, decide_eq_true_eq]
      omega
    · intro l hl
      have := hafter l hl
      simp only [Bool.and_eq_true, decide_eq_true_eq]
      omega
  · have hzero : (placed (spell before).length after).countP (fun l => l.start < offset) = 0 := by
      rw [List.countP_eq_zero]
      intro l hl
      have := hafter l hl
      simp only [decide_eq_true_eq]
      omega
    have hall : (placed 0 before).countP (fun l => l.start < offset) =
        (placed 0 before).length := by
      rw [List.countP_eq_length]
      intro l hl
      simpa using (hin l hl).1
    rw [List.countP_append, hzero, hall, Nat.add_zero, Lexeme.length_placed]

/-! ### the run -/

/-- The indented text of some lexemes and a tail, from a cursor on. -/
def indentFrom (width base : Int) (cursor : Cursor) (ls : List Lexeme) (tail : Text) : Text :=
  spell (indentLexemes width base cursor ls).1 ++
    indentTail (indentLexemes width base cursor ls).2.fresh tail

section Run

variable {width base : Int} {cursor : Cursor}

theorem indentFrom_cons (l : Lexeme) (ls : List Lexeme) (tail : Text) :
    indentFrom width base cursor (l :: ls) tail =
      (indentGap width base cursor l.kind l.gap).1 ++ (l.text ++
        indentFrom width base
          (advance cursor (indentGap width base cursor l.kind l.gap).2 l.toToken) ls tail) := by
  simp [indentFrom, indentLexemes, Lexeme.source]

theorem indentLexemes_append (ls ms : List Lexeme) :
    indentLexemes width base cursor (ls ++ ms) =
      ((indentLexemes width base cursor ls).1 ++
        (indentLexemes width base (indentLexemes width base cursor ls).2 ms).1,
        (indentLexemes width base (indentLexemes width base cursor ls).2 ms).2) := by
  induction ls generalizing cursor with
  | nil => rfl
  | cons l ls ih => simp [indentLexemes, ih]

theorem indentFrom_append (ls ms : List Lexeme) (tail : Text) :
    indentFrom width base cursor (ls ++ ms) tail =
      spell (indentLexemes width base cursor ls).1 ++
        indentFrom width base (indentLexemes width base cursor ls).2 ms tail := by
  simp [indentFrom, indentLexemes_append]

theorem count_indentLexemes (ls : List Lexeme) :
    (spell (indentLexemes width base cursor ls).1).count '\n' = (spell ls).count '\n' := by
  induction ls generalizing cursor with
  | nil => rfl
  | cons l ls ih => simp [indentLexemes, Lexeme.source, ih, count_indentGap]

theorem length_indentLexemes (ls : List Lexeme) :
    (indentLexemes width base cursor ls).1.length = ls.length := by
  induction ls generalizing cursor with
  | nil => rfl
  | cons l ls ih => simp [indentLexemes, ih]

theorem startsLine_indentLexemes {before : List Lexeme} {v : Text}
    (h : '\n' ∉ v → EndsFresh before) :
    startsLine (indentLexemes width base cursor before).2.fresh v = true := by
  by_cases hv : '\n' ∈ v
  · simp [startsLine, hv]
  · obtain ⟨init, l, rfl, hl⟩ := h hv
    simp [startsLine, indentLexemes_append, indentLexemes, advance, hl]

theorem line_lineEnds {gap : Text} (h : '\n' ∈ gap) (x : Text) :
    (lineEnds false gap ++ x).takeWhile (· ≠ '\n') = gap.takeWhile (· ≠ '\n') := by
  have hlead : '\n' ∉ gap.takeWhile (· ≠ '\n') := fun hmem => by
    simpa using List.mem_takeWhile_imp hmem
  obtain ⟨n, hn⟩ := Nat.exists_eq_succ_of_ne_zero (List.count_pos_iff.2 h).ne'
  rw [lineEnds, if_neg (by simp), List.append_assoc, takeWhile_line_append hlead, hn]
  simp [List.replicate_succ]

theorem fresh_advance {t : Token} (h : '\n' ∉ t.text) (column : Int) :
    (advance cursor column t).fresh = false := by
  have hlast : t.text.getLast? ≠ some '\n' := fun e => h (List.mem_of_getLast? e)
  simp [advance, hlast]

/-- **The rest of a line that has begun** stays as it is. -/
theorem line_indentFrom {ls : List Lexeme} {t : Text} (tail : Text)
    (h : '\n' ∉ t → cursor.fresh = false) :
    (t ++ indentFrom width base cursor ls tail).takeWhile (· ≠ '\n') =
      (t ++ (spell ls ++ tail)).takeWhile (· ≠ '\n') := by
  induction ls generalizing cursor t with
  | nil =>
    by_cases ht : '\n' ∈ t
    · rw [takeWhile_line_append_of_mem ht, takeWhile_line_append_of_mem ht]
    rw [takeWhile_line_append ht, takeWhile_line_append ht]
    by_cases htail : '\n' ∈ tail
    · have hline := line_lineEnds htail []
      simpa [indentFrom, indentLexemes, indentTail, startsLine, h ht, htail] using hline
    · simp [indentFrom, indentLexemes, indentTail, startsLine, h ht, htail]
  | cons l ls ih =>
    by_cases ht : '\n' ∈ t
    · rw [takeWhile_line_append_of_mem ht, takeWhile_line_append_of_mem ht]
    rw [takeWhile_line_append ht, takeWhile_line_append ht, indentFrom_cons, spell_cons,
      Lexeme.source, List.append_assoc, List.append_assoc]
    congr 1
    by_cases hgap : '\n' ∈ l.gap
    · rw [indentGap, if_pos (by simp [startsLine, hgap]), h ht, List.append_assoc,
        line_lineEnds hgap, takeWhile_line_append_of_mem hgap]
    · rw [indentGap, if_neg (by simp [startsLine, hgap, h ht]), takeWhile_line_append hgap,
        takeWhile_line_append hgap]
      congr 1
      exact ih fun htext => fresh_advance htext _

end Run

/-! ### a line begins -/

theorem startsLine_append {fresh : Bool} {v : Text} (h : startsLine fresh v = true) (w : Text) :
    startsLine fresh (v ++ w) = true := by
  rcases Bool.or_eq_true_iff.1 h with hf | hv
  · simp [startsLine, hf]
  · simp [startsLine, List.contains_iff_mem.1 hv]

theorem isCloser_eq {l : Lexeme} {y : Text} (h : l.Stands y) {c : Char} {s : Text}
    (htext : l.text = c :: s) :
    isCloser c = decide (l.kind = .closeParen) := by
  obtain ⟨c', s', e, hhead⟩ := headFits_of_stands h
  obtain ⟨rfl, rfl⟩ : c' = c ∧ s' = s := by simpa [htext] using e.symm
  refine Bool.eq_iff_iff.2 ⟨fun hc => ?_, fun hk => hhead.closer (of_decide_eq_true hk)⟩
  have hopener : isOpener c' = false := by
    rcases Bool.or_eq_true_iff.1 hc with e | e
    all_goals
      rw [of_decide_eq_true e]
      decide
  have hsplit := Lexer.split?_of_cut h.cut
  rw [htext, List.cons_append, Lexer.split?, if_neg (by simp [hopener]), if_pos hc] at hsplit
  simp only [Option.some.injEq, Prod.mk.injEq] at hsplit
  exact decide_eq_true hsplit.1.symm

theorem lineEnds_append {fresh : Bool} {v : Text} (h : startsLine fresh v = true) (w : Text) :
    lineEnds fresh (v ++ w) = lineEnds fresh v ++ List.replicate (w.count '\n') '\n' := by
  have hlead : (if fresh then [] else (v ++ w).takeWhile (· ≠ '\n')) =
      if fresh then [] else v.takeWhile (· ≠ '\n') := by
    cases fresh with
    | true => rfl
    | false => exact takeWhile_line_append_of_mem (by simpa [startsLine] using h) w
  rw [lineEnds, hlead, lineEnds, List.count_append, List.replicate_add, List.append_assoc]

theorem Tracks.exists_break {base : Nat} {done : List Lexeme} {cursor : Cursor}
    (h : Tracks base done cursor) {v : Text} (hline : startsLine cursor.fresh v = true) (w : Text) :
    ∃ a, spell done ++ lineEnds cursor.fresh (v ++ w) =
      a ++ '\n' :: List.replicate (w.count '\n') '\n' ∧
      a.count '\n' + 1 = (spell done ++ v).count '\n' := by
  obtain ⟨a, ha⟩ := List.getLast?_eq_some_iff.1 (h.getLast?_lineEnds hline)
  refine ⟨a, ?_, ?_⟩
  · rw [lineEnds_append hline, ← List.append_assoc, ha, List.append_assoc]
    rfl
  · have hcount := congrArg (List.count '\n') ha
    simpa [count_lineEnds] using hcount.symm

/-- The line that takes the place of one with the blanks `w` in front of a token, if the two go on
alike. -/
theorem line_relined (column : Bool → Nat) {w : Text} (hw : ∀ c ∈ w, isBlank c = true) {c : Char}
    (hc : isBlank c = false) {x y : Text} (h : x.takeWhile (· ≠ '\n') = y.takeWhile (· ≠ '\n')) :
    (List.replicate (w.count '\n') '\n' ++
      (List.replicate (column (isCloser c)) ' ' ++ c :: x)).takeWhile (· ≠ '\n') =
      relined column ((w ++ c :: y).takeWhile (· ≠ '\n')) := by
  by_cases hn : '\n' ∈ w
  · obtain ⟨n, hcount⟩ := Nat.exists_eq_succ_of_ne_zero (List.count_pos_iff.2 hn).ne'
    rw [takeWhile_line_append_of_mem hn, hcount,
      relined_of_blank column fun d hd => hw d ((List.takeWhile_sublist _).subset hd)]
    simp [List.replicate_succ]
  · have hnl : c ≠ '\n' := by
      rintro rfl
      exact absurd hc (by decide)
    have hspaces : '\n' ∉ List.replicate (column (isCloser c)) ' ' := by simp
    rw [List.count_eq_zero.2 hn, takeWhile_line_append hn,
      List.takeWhile_cons_of_pos (by simpa using hnl), relined_of_inked column hw hc,
      List.replicate_zero, List.nil_append, takeWhile_line_append hspaces,
      List.takeWhile_cons_of_pos (by simpa using hnl), h]

/-- **A line in front of a token**: behind the line end it starts at its column. -/
theorem Tracks.exists_line (width : Nat) {base : Nat} {done : List Lexeme} {cursor : Cursor}
    (h : Tracks base done cursor) {v w y : Text} {l : Lexeme}
    (hline : startsLine cursor.fresh v = true) (hl : l.Stands y) (hgap : l.gap = v ++ w)
    (after : List Lexeme) (tail : Text) {out : Text}
    (hout : out = spell done ++ indentFrom width base cursor (l :: after) tail) :
    ∃ a b, out = a ++ '\n' :: b ∧ a.count '\n' + 1 = (spell done ++ v).count '\n' ∧
      b.takeWhile (· ≠ '\n') = relined (startColumn width base out (placed 0 done))
        ((w ++ (l.text ++ (spell after ++ tail))).takeWhile (· ≠ '\n')) := by
  obtain ⟨c, s, htext, hc⟩ := hl.inked
  obtain ⟨a, hbreak, hcount⟩ := h.exists_break hline w
  rw [indentFrom_cons, htext] at hout
  have hrest :
      (s ++ indentFrom width base
        (advance cursor (indentGap width base cursor l.kind l.gap).2 l.toToken) after
          tail).takeWhile (· ≠ '\n') = (s ++ (spell after ++ tail)).takeWhile (· ≠ '\n') := by
    refine line_indentFrom tail fun hs => fresh_advance ?_ _
    rw [htext, List.mem_cons, not_or]
    exact ⟨fun e => absurd (e ▸ hc) (by decide), hs⟩
  generalize indentFrom width base _ after tail = x at hout hrest
  have hstarts : startsLine cursor.fresh l.gap = true := by
    rw [hgap]
    exact startsLine_append hline w
  have htarget :=
    h.target_eq width l.kind ((indentGap width base cursor l.kind l.gap).1 ++ (c :: s ++ x))
  rw [← hout, ← isCloser_eq hl htext] at htarget
  have hgap' : (indentGap width base cursor l.kind l.gap).1 = lineEnds cursor.fresh (v ++ w) ++
      List.replicate (startColumn width base out (placed 0 done) (isCloser c)) ' ' := by
    rw [indentGap, if_pos hstarts, htarget, hgap]
    rfl
  refine ⟨a, List.replicate (w.count '\n') '\n' ++
    (List.replicate (startColumn width base out (placed 0 done) (isCloser c)) ' ' ++ c :: (s ++ x)),
    ?_, hcount, ?_⟩
  · calc
      out = (spell done ++ lineEnds cursor.fresh (v ++ w)) ++
          (List.replicate (startColumn width base out (placed 0 done) (isCloser c)) ' ' ++ c ::
            (s ++ x)) := by
        rw [hgap'] at hout
        simpa using hout
      _ = _ := by
        rw [hbreak]
        simp
  · rw [htext]
    exact line_relined (startColumn width base out (placed 0 done))
      (fun d hd => hl.gap_blank d (by simp [hgap, hd])) hc hrest

/-- **A line behind the last token**: it is empty. -/
theorem Tracks.exists_empty_line {base : Nat} {done : List Lexeme} {cursor : Cursor}
    (h : Tracks base done cursor) {v : Text} (hline : startsLine cursor.fresh v = true) (w : Text) :
    ∃ a b, spell done ++ indentTail cursor.fresh (v ++ w) = a ++ '\n' :: b ∧
      a.count '\n' + 1 = (spell done ++ v).count '\n' ∧ b.takeWhile (· ≠ '\n') = [] := by
  obtain ⟨a, hbreak, hcount⟩ := h.exists_break hline w
  refine ⟨a, List.replicate (w.count '\n') '\n', ?_, hcount, ?_⟩
  · rw [indentTail, if_pos (startsLine_append hline w)]
    exact hbreak
  · cases w.count '\n' <;> simp [List.replicate_succ]

/-! ### the indented passage -/

theorem forall₂_placed {ls ms : List Lexeme} (h : List.Forall₂ Reindented ls ms) (offset : Nat) :
    List.Forall₂ Reindented ls (placed offset ms) := by
  induction h generalizing offset with
  | nil => exact .nil
  | cons h _ ih => exact .cons ⟨h.word, h.gap_blank, h.count_newline⟩ (ih _)

/-- The indented passage, its lexemes with the offsets that they have in the indented text. -/
def indented (width base : Int) (p : Passage) : Passage :=
  ⟨placed 0 (indentPassage width base p).lexemes, (indentPassage width base p).tail⟩

theorem text_indented (width base : Int) (ls : List Lexeme) (tail : Text) :
    (indented width base ⟨ls, tail⟩).text = indentFrom width base ⟨[], base, false⟩ ls tail := by
  simp [indented, Passage.text, indentPassage, indentFrom]

/-- Behind the line end between `a` and `b`, the indented passage has the line that belongs
there. -/
def LineKept (width base : Nat) (p : Passage) (a b : Text) : Prop :=
  ∃ a' b', (indented width base p).text = a' ++ '\n' :: b' ∧ a'.count '\n' = a.count '\n' ∧
    b'.takeWhile (· ≠ '\n') =
      indentedLine width base p (indented width base p) (a.length + 1) (b.takeWhile (· ≠ '\n'))

section Lines

variable {width base : Nat} {before after : List Lexeme} {l : Lexeme} {tail a v w : Text}

theorem tracks_before (width base : Nat) (hne : ∀ m ∈ before, m.text ≠ []) :
    Tracks base (indentLexemes width base ⟨[], base, false⟩ before).1
      (indentLexemes width base ⟨[], base, false⟩ before).2 := by
  simpa using tracks_indentLexemes width (tracks_nil base) hne

theorem indentedLine_between (width base : Nat) (tail : Text)
    (hplaced : placed 0 (before ++ after) = before ++ after) (hne : ∀ m ∈ before, m.text ≠ [])
    {start : Nat} (hbefore : (spell before).length ≤ start)
    (hafter : ∀ m ∈ placed (spell before).length after, start ≤ m.start) (line : Text) :
    indentedLine width base ⟨before ++ after,
      tail⟩ (indented width base ⟨before ++ after, tail⟩) start line =
      relined (startColumn width base (indented width base ⟨before ++ after, tail⟩).text
        (placed 0 (indentLexemes width base ⟨[], base, false⟩ before).1)) line := by
  obtain ⟨hany, hcount⟩ := between_tokens hne hbefore hafter
  rw [hplaced] at hany hcount
  have htake : (indented width base ⟨before ++ after, tail⟩).lexemes.take before.length =
      placed 0 (indentLexemes width base ⟨[], base, false⟩ before).1 := by
    simp only [indented, indentPassage, indentLexemes_append, Lexeme.placed_append]
    exact List.take_left' (by rw [Lexeme.length_placed, length_indentLexemes])
  rw [indentedLine, hany, if_neg Bool.false_ne_true, hcount, htake]

theorem lineKept_inside (hplaced : placed 0 (before ++ l :: after) = before ++ l :: after)
    {t t' : Text} (htext : l.text = t ++ '\n' :: t') (hne : t' ≠ []) :
    LineKept width base ⟨before ++ l :: after,
      tail⟩ (spell before ++ (l.gap ++ t)) (t' ++ (spell after ++ tail)) := by
  unfold LineKept
  rw [text_indented, indentFrom_append, indentFrom_cons, htext]
  generalize (indentLexemes (width : Int) base ⟨[], base, false⟩ before).2 = cursor
  refine ⟨spell (indentLexemes width base ⟨[], base, false⟩ before).1 ++
    ((indentGap width base cursor l.kind l.gap).1 ++ t), _, by
      simp only [List.append_assoc, List.cons_append]; rfl,
    by simp [count_indentLexemes, count_indentGap], ?_⟩
  have hin :
      (before ++ l :: after).any (fun m => m.start < (spell before ++ (l.gap ++ t)).length + 1 &&
        (spell before ++ (l.gap ++ t)).length + 1 < m.stop) = true := by
    have hlength := List.length_pos_of_ne_nil hne
    rw [← hplaced, List.any_eq_true]
    refine ⟨l.moved ((spell before).length + l.gap.length), by
      simp [Lexeme.placed_append, placed], ?_⟩
    simp only [Lexeme.moved, htext, List.length_append, List.length_cons, Bool.and_eq_true,
      decide_eq_true_eq]
    omega
  rw [indentedLine, hin, if_pos rfl]
  refine line_indentFrom tail fun hnot => ?_
  have hlast : l.text.getLast? ≠ some '\n' := by
    rw [htext, List.getLast?_append_of_ne_nil _ (by simp), List.getLast?_cons_of_ne_nil hne]
    exact fun e => hnot (List.mem_of_getLast? e)
  simp [advance, hlast]

theorem lineKept_leading (hplaced : placed 0 (before ++ l :: after) = before ++ l :: after)
    (hne : ∀ m ∈ before, m.text ≠ []) {y : Text} (hl : l.Stands y) (hgap : l.gap = v ++ w)
    (ha : a ++ ['\n'] = spell before ++ v) (hfresh : '\n' ∉ v → EndsFresh before) :
    LineKept width base ⟨before ++ l :: after,
      tail⟩ a (w ++ (l.text ++ (spell after ++ tail))) := by
  have hstart : a.length + 1 = (spell before).length + v.length := by
    simpa using congrArg List.length ha
  have hcount : a.count '\n' + 1 = (spell before ++ v).count '\n' := by simp [← ha]
  have hafter : ∀ m ∈ placed (spell before).length (l :: after), a.length + 1 ≤ m.start := by
    intro m hm
    rcases List.mem_cons.1 hm with rfl | hm
    · simp only [Lexeme.moved, hgap, List.length_append]
      omega
    · have := Lexeme.le_start_of_mem_placed hm
      simp only [Lexeme.source, hgap, List.length_append] at this
      omega
  obtain ⟨a', b', htext, hcount', hline⟩ := (tracks_before width base hne).exists_line width
    (startsLine_indentLexemes hfresh) hl hgap after tail rfl
  rw [← indentFrom_append, ← text_indented] at htext hline
  refine ⟨a', b', htext, ?_, ?_⟩
  · rw [List.count_append, count_indentLexemes, ← List.count_append] at hcount'
    omega
  · rw [indentedLine_between width base tail hplaced hne (by omega) hafter]
    exact hline

theorem lineKept_trailing (hplaced : placed 0 before = before) (hne : ∀ m ∈ before, m.text ≠ [])
    (htail : ∀ c ∈ v ++ w, isBlank c = true) (ha : a ++ ['\n'] = spell before ++ v)
    (hfresh : '\n' ∉ v → EndsFresh before) : LineKept width base ⟨before, v ++ w⟩ a w := by
  have hstart : a.length + 1 = (spell before).length + v.length := by
    simpa using congrArg List.length ha
  have hcount : a.count '\n' + 1 = (spell before ++ v).count '\n' := by simp [← ha]
  obtain ⟨a', b', htext, hcount', hline⟩ := (tracks_before width base hne).exists_empty_line
    (startsLine_indentLexemes hfresh) w
  have hle : (spell before).length ≤ a.length + 1 := by omega
  have hplaced' : placed 0 (before ++ []) = before ++ [] := by simpa using hplaced
  have hbetween := indentedLine_between width base (v ++ w) hplaced' hne hle (by simp [placed])
  rw [List.append_nil] at hbetween
  refine ⟨a', b', by rw [text_indented]; exact htext, ?_, ?_⟩
  · rw [List.count_append, count_indentLexemes, ← List.count_append] at hcount'
    omega
  · rw [hbetween, hline, relined_of_blank]
    exact fun c hc => htail c (by simp [(List.takeWhile_sublist _).subset hc])

end Lines

/-- **Every line of a passage** has its counterpart. -/
theorem lineKept_of_cut (width base : Nat) {p : Passage} (hlegible : Legible p.lexemes p.tail)
    (htail : ∀ c ∈ p.tail, isBlank c = true) (hplaced : placed 0 p.lexemes = p.lexemes) {a b : Text}
    (h : p.text = a ++ '\n' :: b) : LineKept width base p a b := by
  obtain ⟨ls, tail⟩ := p
  have hwords : ∀ l ∈ ls, l.text ≠ [] := fun l hl => hlegible.text_ne_nil hl
  cases lineBehind_of_cut h with
  | inside before after htext hne => exact lineKept_inside hplaced htext hne
  | leading before after hgap ha hfresh =>
    have hl := (Lexeme.legible_append.1 hlegible).2.1
    exact lineKept_leading hplaced
      (fun m hm => hwords m (List.mem_append_left _ hm)) hl hgap ha hfresh
  | trailing hcut ha hfresh =>
    subst hcut
    exact lineKept_trailing hplaced hwords htail ha hfresh

end Indent

/-- **The lines of the indented text.**  `q` cuts the indented text into the tokens of the text, and
the columns of brackets in it decide where lines begin. -/
theorem splitOn_indentText (width base : Nat) {text : Text} {p : Passage}
    (hp : Passage.scan text = .ok p) :
    ∃ q : Passage, indentText width base text = .ok q.text ∧ placed 0 q.lexemes = q.lexemes ∧
      List.Forall₂ Reindented p.lexemes q.lexemes ∧ (∀ c ∈ q.tail, isBlank c = true) ∧
      q.text.splitOn '\n' = (text.splitOn '\n').mapIdx fun i line =>
        if i = 0 then line else Indent.indentedLine width base p q (text.lineStart i) line := by
  obtain ⟨rfl, hlegible, htail, hplaced⟩ := Passage.scan_eq_ok_iff.1 hp
  have hgaps : ∀ l ∈ p.lexemes, ∀ c ∈ l.gap, isBlank c = true :=
    fun l hl => ((Passage.scan_proper hp).1 l hl).gap_blank
  have htext := Indent.text_indented width base p.lexemes p.tail
  have hcount : (Indent.indented width base p).text.count '\n' = p.text.count '\n' := by
    rw [htext, Indent.indentFrom, List.count_append, Indent.count_indentLexemes,
      Indent.count_indentTail, ← List.count_append, Passage.text]
  have hfirst : (Indent.indented width base p).text.takeWhile (· ≠ '\n') =
      p.text.takeWhile (· ≠ '\n') := by
    rw [htext]
    exact Indent.line_indentFrom (t := []) p.tail fun _ => rfl
  refine ⟨Indent.indented width base p, ?_, Lexeme.placed_placed .., ?_, ?_, ?_⟩
  · rw [indentText_of_scan width base hp, htext]
    rfl
  · exact Indent.forall₂_placed (Indent.reindented_indentLexemes width base hgaps) 0
  · exact fun c hc => Indent.isBlank_of_mem_indentTail htail hc
  · exact Text.splitOn_eq_mapIdx hcount hfirst fun a b h =>
      Indent.lineKept_of_cut width base hlegible htail hplaced h

/-- A string over two lines, a blank line, brackets that close one of the other kind or none, and a
literal line end. -/
theorem splitOn_indentText_brackets :
    ∃ p q : Passage, Passage.scan "(a [\"b\n c\" (d\n \n  ] e\n) ))\n )f ?\n (g\n h".toList =
      .ok p ∧ q.text = "(a [\"b\n c\" (d\n\n    ] e\n      ) ))\n   )f ?\n   (g\n     h".toList ∧
      Text.splitOn '\n' "(a [\"b\n c\" (d\n\n    ] e\n      ) ))\n   )f ?\n   (g\n     h".toList =
        (Text.splitOn '\n' "(a [\"b\n c\" (d\n \n  ] e\n) ))\n )f ?\n (g\n h".toList).mapIdx
          fun i line =>
          if i = 0 then line
          else Indent.indentedLine 2 3 p q
            (Text.lineStart "(a [\"b\n c\" (d\n \n  ] e\n) ))\n )f ?\n (g\n h".toList i) line := by
  obtain ⟨p, hp⟩ :=
    exists_of_isOk (x := Passage.scan "(a [\"b\n c\" (d\n \n  ] e\n) ))\n )f ?\n (g\n h".toList)
      (by decide +kernel)
  obtain ⟨q, hq, -, -, -, hlines⟩ := splitOn_indentText 2 3 hp
  have hout : indentText 2 3 "(a [\"b\n c\" (d\n \n  ] e\n) ))\n )f ?\n (g\n h".toList =
      .ok "(a [\"b\n c\" (d\n\n    ] e\n      ) ))\n   )f ?\n   (g\n     h".toList :=
        eq_ok_of_toOption (by decide +kernel)
  have htext : q.text = "(a [\"b\n c\" (d\n\n    ] e\n      ) ))\n   )f ?\n   (g\n     h".toList :=
    Except.ok.inj (hq.symm.trans hout)
  rw [htext] at hlines
  exact ⟨p, q, hp, htext, hlines⟩

end SexpLayout
