import SexpLayout.Proofs.Format.Indentation
import SexpLayout.Proofs.Format.Ink

/-!
# Indentation changes blanks only

An indented text has the tokens of the text in their order, and every gap between them is made anew
from blanks with as many line ends as before.  The columns may be anything here, also negative.

* `Reindented` — a lexeme and what indentation makes of it; `reindented_indentLexemes` — **all
  lexemes**;
* `Legible.retail` — other blanks at the end of a text do not change what is read;
* `indentText_moves_blanks` — **the indented text**, and how it is read.
-/

namespace SexpLayout

open Lexeme (spell spell_append Legible word)

/-! ### gaps -/

/-- The second lexeme has the word of the first one, and its gap is blank and has as many line
ends. -/
structure Reindented (l m : Lexeme) : Prop where
  word : m.word = l.word
  gap_blank : ∀ c ∈ m.gap, isBlank c = true
  count_newline : m.gap.count '\n' = l.gap.count '\n'

namespace Indent

theorem count_lineEnds (fresh : Bool) (gap : Text) :
    (lineEnds fresh gap).count '\n' = gap.count '\n' := by
  have hlead : (gap.takeWhile (· ≠ '\n')).count '\n' = 0 := by
    refine List.count_eq_zero.2 fun h => ?_
    simpa using List.mem_takeWhile_imp h
  cases fresh with
  | false =>
    rw [lineEnds, if_neg (by simp), List.count_append, hlead,
      List.count_replicate_self, Nat.zero_add]
  | true => simp [lineEnds]

theorem count_indentGap (width base : Int) (cursor : Cursor) (kind : Kind) (gap : Text) :
    (indentGap width base cursor kind gap).1.count '\n' = gap.count '\n' := by
  unfold indentGap
  split
  · simp [count_lineEnds, List.count_replicate]
  · rfl

theorem count_indentTail (fresh : Bool) (tail : Text) :
    (indentTail fresh tail).count '\n' = tail.count '\n' := by
  unfold indentTail
  split
  · exact count_lineEnds fresh tail
  · rfl

/-- **Indentation changes gaps only**, and keeps their line ends. -/
theorem reindented_indentLexemes (width base : Int) {cursor : Cursor} {ls : List Lexeme}
    (h : ∀ l ∈ ls, ∀ c ∈ l.gap, isBlank c = true) :
    List.Forall₂ Reindented ls (indentLexemes width base cursor ls).1 := by
  induction ls generalizing cursor with
  | nil => exact .nil
  | cons l ls ih =>
    refine .cons ⟨rfl, fun c hc => ?_, count_indentGap ..⟩ (ih fun m hm => h m (by simp [hm]))
    exact isBlank_of_mem_indentGap (h l (by simp)) hc

end Indent

/-! ### the blanks at the end -/

theorem follows_blank {k : Kind} {t r r' : Text} (h : Lexer.Follows k t r)
    (hr : ∀ c ∈ r, isBlank c = true) (hr' : ∀ c ∈ r', isBlank c = true) (hnil : r = [] → r' = []) :
    Lexer.Follows k t r' := by
  by_cases hr0 : r' = []
  · rw [hr0]
    exact follows_nil h hr
  · have hne : r ≠ [] := fun e => hr0 (hnil e)
    have hmark := ((Lexer.follows_append_iff hr hne []).1 (by simpa using h)).2
    rw [← List.append_nil r']
    refine (Lexer.follows_append_iff hr' hr0 []).2 ⟨fun _ c hc => ?_, hmark⟩
    exact hr' c (by simpa using (List.takeWhile_sublist _).subset hc)

/-- **Other blanks at the end** of a text do not change what is read. -/
theorem Legible.retail {ls : List Lexeme} {r r' : Text} (h : Legible ls r)
    (hr : ∀ c ∈ r, isBlank c = true) (hr' : ∀ c ∈ r', isBlank c = true) (hnil : r = [] → r' = []) :
    Legible ls r' := by
  rcases List.eq_nil_or_concat ls with rfl | ⟨init, last, rfl⟩
  · trivial
  · rw [List.concat_eq_append] at h ⊢
    obtain ⟨hinit, hlast, -⟩ := Lexeme.legible_append.1 h
    refine Lexeme.legible_append.2 ⟨?_, ?_, trivial⟩
    · -- the last token hides the blanks from those in front of it
      refine hinit.append_congr ?_ r'
      simpa using hlast.exists_inked
    · exact hlast.of_follows hnil (follows_blank (Lexer.follows_of_cut hlast.cut) hr hr' hnil)

/-! ### the indented text -/

theorem indentText_of_scan (width base : Int) {text : Text} {p : Passage}
    (hp : Passage.scan text = .ok p) :
    indentText width base text = .ok (Indent.indentPassage width base p).text := by
  simp only [indentText, hp, bind, Except.bind, pure, Except.pure]

/-- **Indentation moves blanks only.**  The indented text has the tokens of the text, with blank
gaps that have as many line ends as before; and if no token ends with a line end, it is read as the
same tokens. -/
theorem indentText_moves_blanks (width base : Int) {text : Text} {p : Passage}
    (hp : Passage.scan text = .ok p) :
    ∃ q : Passage, indentText width base text = .ok q.text ∧
      List.Forall₂ Reindented p.lexemes q.lexemes ∧
      (∀ c ∈ q.tail, isBlank c = true) ∧ q.tail.count '\n' = p.tail.count '\n' ∧
      ((∀ l ∈ p.lexemes, l.text.getLast? ≠ some '\n') →
        wordsOf q.text = .ok (p.lexemes.map word)) := by
  obtain ⟨-, hlegible, htail, -⟩ := Passage.scan_eq_ok_iff.1 hp
  have hgaps : ∀ l ∈ p.lexemes, ∀ c ∈ l.gap, isBlank c = true :=
    fun l hl => ((Passage.scan_proper hp).1 l hl).gap_blank
  have htail' : ∀ fresh, ∀ c ∈ Indent.indentTail fresh p.tail, isBlank c = true :=
    fun fresh c hc => Indent.isBlank_of_mem_indentTail htail hc
  refine ⟨Indent.indentPassage width base p, indentText_of_scan width base hp,
    Indent.reindented_indentLexemes width base hgaps, htail' _,
    Indent.count_indentTail _ _, fun hn => ?_⟩
  have hfresh : (⟨[], base, false⟩ : Indent.Cursor).fresh = false := rfl
  have hreg := Indent.regaps_indentLexemes width base hfresh hn
  have hread :
      Legible (Indent.indentPassage width base p).lexemes
        (Indent.indentPassage width base p).tail := by
    refine Legible.retail (Legible.regapped hlegible hreg) htail (htail' _) fun e => ?_
    rw [Indent.indentPassage, e]
    exact Indent.indentTail_nil _
  have hscan := Passage.scanAt_of_legible hread (htail' _) 0
  rw [wordsOf, Passage.text, Passage.scan, hscan, ← map_word_of_regaps hreg]
  exact congrArg Except.ok (Lexeme.map_word_placed ..)

/-- Strings over two lines, an escaped line end, a blank line and a comment, with negative
columns. -/
theorem indentText_moves_blanks_strings :
    ∃ p q, Passage.scan "(\"a\n b\" \"c\n\" x\\\ny ;z \n \n )\n".toList = .ok p ∧
      (∀ l ∈ p.lexemes, l.text.getLast? ≠ some '\n') ∧
      indentText (-1) (-2) "(\"a\n b\" \"c\n\" x\\\ny ;z \n \n )\n".toList = .ok q ∧
      wordsOf q = .ok (p.lexemes.map word) := by
  obtain ⟨p, hp⟩ :=
    exists_of_isOk (x := Passage.scan "(\"a\n b\" \"c\n\" x\\\ny ;z \n \n )\n".toList)
      (by decide +kernel)
  have hn : ∀ l ∈ p.lexemes, l.text.getLast? ≠ some '\n' := by
    have h : (Passage.scan "(\"a\n b\" \"c\n\" x\\\ny ;z \n \n )\n".toList).map
        (fun p => decide (∀ l ∈ p.lexemes, l.text.getLast? ≠ some '\n')) = .ok true := by
      decide +kernel
    rw [hp] at h
    exact of_decide_eq_true (Except.ok.inj h)
  obtain ⟨q, hq, -, -, -, hwords⟩ := indentText_moves_blanks (-1) (-2) hp
  exact ⟨p, q.text, hp, hn, hq, hwords hn⟩

end SexpLayout
