import SexpLayout.Proofs.Format.Relaid
import SexpLayout.Proofs.Forms.Spliced

/-!
# Laying out one level

An expression is laid out with the lists inside it as they are.  The laid-out text is read as the
same tokens unless there is a splice among them: a `,` and a token behind it that starts with an `@`
are put together then, and no reading takes them apart again.

* `topWordsOf` — the tokens of an expression by kind and characters, the lists inside it taken as
  one;
* `spliceFree_of_spell_eq` — a text that reads back as the tokens it was spaced from has no splice;
* `topWordsOf_joined_iff` — **one level of layout keeps the tokens exactly if there is no splice**.
-/

namespace SexpLayout

open Lexeme (spell spell_cons word)
open Gap (Spaced)

/-- The tokens of an expression by kind and characters; a list inside the expression is one of
them. -/
def topWordsOf (src : Text) : Except ReadError (List Word) :=
  (Passage.ofExpression src).map fun p => p.lexemes.map word

theorem topWordsOf_eq {src : Text} {p : Passage} (hp : Passage.ofExpression src = .ok p) :
    topWordsOf src = .ok (p.lexemes.map word) := by
  rw [topWordsOf, hp]
  rfl

/-! ### what is read back -/

theorem blanks_eq_of_append_eq {g h s x y : Text} {c : Char} (hg : ∀ d ∈ g, isBlank d = true)
    (hh : ∀ d ∈ h, isBlank d = true) (hc : isBlank c = false)
    (e : g ++ c :: (s ++ x) = h ++ c :: (s ++ y)) :
    g = h ∧ x = y := by
  obtain ⟨hg1, hg2⟩ := Passage.takeWhile_gap_append hg hc (s ++ x)
  obtain ⟨hh1, hh2⟩ := Passage.takeWhile_gap_append hh hc (s ++ y)
  rw [e, hh1] at hg1
  rw [e, hh2] at hg2
  refine ⟨hg1.symm, ?_⟩
  simpa using hg2.symm

theorem not_stands_comma {l : Lexeme} {y : Text} (hl : l.text = [',']) (hy : y.head? = some '@') :
    ¬ l.Stands y := by
  intro h
  have hkind := h.kind_of_comma hl
  have hfollow := Lexer.follows_of_cut h.cut
  rw [hkind, hl] at hfollow
  rcases hfollow with ⟨-, hne⟩ | ⟨hmark, -⟩
  · exact hne rfl hy
  · exact hmark rfl

/-- **A spaced text that reads back as its tokens has no splice.**  The text is cut into the same
tokens in both readings, so the gaps are those of the layout, and there is none between a `,` and an
`@`. -/
theorem spliceFree_of_spell_eq {us vs : List Lexeme} {r r' lead : Text} {ws ws' : List Word}
    {gs : List Gap} (hus : Reading us r ws) (hvs : Reading vs r' ws')
    (hw : vs.map word = us.map word) (hg : Spaced (us.map fun u => u.kind) gs)
    (hl : ∀ c ∈ lead, isBlank c = true) (e : spell vs ++ r' = spell (Lexeme.spaced lead us gs)) :
    SpliceFree (us.map word) := by
  induction us generalizing vs lead ws ws' gs with
  | nil => exact .nil
  | cons l ls ih =>
    obtain ⟨l', ls', rfl, hword, hw⟩ := List.map_eq_cons_iff.1 hw
    obtain ⟨hkind, htext⟩ : l'.kind = l.kind ∧ l'.text = l.text := by simpa [word] using hword
    obtain ⟨vs, hls⟩ := hus.exists_tail
    obtain ⟨vs', hls'⟩ := hvs.exists_tail
    cases ls with
    | nil => exact .singleton _
    | cons m ms =>
      obtain ⟨g, gs, rfl, hfit, hg⟩ := hg
      -- both texts start with the blanks in front of the first token, and go on behind it
      have hrest : spell ls' ++ r' = spell (Lexeme.spaced g.text (m :: ms) gs) := by
        obtain ⟨c, s, hc, hhead, hgap, -⟩ := hvs.exists_head
        have hsplit : l'.gap ++ c :: (s ++ (spell ls' ++ r')) =
            lead ++ c :: (s ++ spell (Lexeme.spaced g.text (m :: ms) gs)) := by
          have htext' : l.text = c :: s := htext ▸ hc
          simpa [Lexeme.spaced, Lexeme.source, hc, htext'] using e
        exact (blanks_eq_of_append_eq hgap hl hhead.inked hsplit).2
      refine .cons_cons ?_ (ih hls hls' hw hg (fun c hc => isBlank_of_mem_gap_text hc) hrest)
      intro hcomma hat
      have hcomma : l.text = [','] := hcomma
      obtain ⟨s, ht⟩ := List.head?_eq_some_iff.1 (show m.text.head? = some '@' from hat)
      rcases hvs.cons_cases with ⟨_, hst, -, -⟩ | ⟨_, _, -, -, hlist, -, -⟩
      · -- nothing separates the two tokens in a layout
        obtain ⟨hclose, hcomment, -⟩ := hls.atom_of_at ht
        obtain rfl : g = .nothing :=
          hfit.mark (hkind.symm.trans (hst.kind_of_comma (htext.trans hcomma))) hclose hcomment
        rw [hrest] at hst
        exact not_stands_comma (htext.trans hcomma)
          (by simp [Lexeme.spaced, Lexeme.source, Gap.text, ht]) hst
      · have hopen := hlist.opensList
        rw [htext, hcomma] at hopen
        simp [Lexer.OpensList, Lexer.isOpener] at hopen

/-! ### one level of layout -/

/-- **One level of layout keeps the tokens exactly if there is no splice**: the laid-out text is
read as the same tokens if no `,` is directly in front of a token that starts with an `@`, and only
then. -/
theorem topWordsOf_joined_iff (mode : Mode) (context : Option Bool) (table : SkipTable)
    (arity : Arity) {src : Text} {p : Passage} (hp : Passage.ofExpression src = .ok p) :
    ∃ out, (Layout.ofTokens mode context table p.tokens).laidText.joined table arity = .ok out ∧
      (topWordsOf out = .ok (p.lexemes.map word) ↔ SpliceFree (p.lexemes.map word)) := by
  let config : Config := { Config.standard with skipTable := table, arity := arity }
  obtain ⟨ws, hw, hread, -, -, -⟩ := Passage.reading_of_ofExpression hp
  refine ⟨relaid config mode context p, Layout.laidText_joined .., ?_, ?_⟩
  · intro h
    cases hq : Passage.ofExpression (relaid config mode context p) with
    | error err =>
      rw [topWordsOf, hq] at h
      cases h
    | ok q =>
      rw [topWordsOf_eq hq, Except.ok.injEq] at h
      obtain ⟨ws', -, hread', -, -, -⟩ := Passage.reading_of_ofExpression hq
      have hspell := (Passage.ofExpression_text hq).trans (relaid_eq_spell config mode context hp)
      exact spliceFree_of_spell_eq hread hread' h (spaced_gapsOf config mode context hp)
        (by simp) hspell
  · intro hs
    rw [topWordsOf_eq (ofExpression_relaid config mode context hp hw hs).1, Lexeme.map_word_placed,
      Lexeme.map_word_spaced]

/-- A list with marks, a comment and a splice inside a list of its own is read back; one with a
splice at its top is not. -/
theorem topWordsOf_joined_iff_splices :
    (∃ p out, Passage.ofExpression "(f '#s(1 ?\\)) ;x\n . ,(b , @c))".toList = .ok p ∧
      SpliceFree (p.lexemes.map word) ∧
      (Layout.ofTokens .multiLine none .standard p.tokens).laidText.joined .standard .standard =
        .ok out ∧
      topWordsOf out = .ok (p.lexemes.map word)) ∧
    ∃ p out, Passage.ofExpression "(f , @c)".toList = .ok p ∧
      (Layout.ofTokens .oneLine (some true) .standard p.tokens).laidText.joined .standard .unknown =
        .ok out ∧
      topWordsOf out ≠ .ok (p.lexemes.map word) := by
  have hfree : ∀ {t : Text} {p : Passage} {b : Bool}, Passage.ofExpression t = .ok p →
      (topWordsOf t).map (fun ws => decide (SpliceFree ws)) = .ok b →
        decide (SpliceFree (p.lexemes.map word)) = b := by
    intro t p b hp h
    rw [topWordsOf_eq hp] at h
    exact Except.ok.inj h
  obtain ⟨p, hp⟩ :=
    exists_of_isOk (x := Passage.ofExpression "(f '#s(1 ?\\)) ;x\n . ,(b , @c))".toList)
      (by decide +kernel)
  obtain ⟨q, hq⟩ := exists_of_isOk (x := Passage.ofExpression "(f , @c)".toList) (by decide +kernel)
  have hs := of_decide_eq_true (hfree hp (b := true) (by decide +kernel))
  have hn := of_decide_eq_false (hfree hq (b := false) (by decide +kernel))
  obtain ⟨out, hout, hiff⟩ := topWordsOf_joined_iff .multiLine none .standard .standard hp
  obtain ⟨out', hout', hiff'⟩ := topWordsOf_joined_iff .oneLine (some true) .standard .unknown hq
  exact ⟨⟨p, out, hp, hs, hout, hiff.2 hs⟩, q, out', hq, hout', fun h => hn (hiff'.1 h)⟩

end SexpLayout
