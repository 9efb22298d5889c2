import SexpLayout.Format.Indent
import SexpLayout.Proofs.Format.Canonical

/-!
# Indentation keeps the words

Indentation changes gaps only: an empty gap stays empty, any other stays one, and a gap with a line
end keeps it.  So lexemes stay legible, and a list is read as the same list.  The exception is a
token that ends with a line end itself, such as a character literal: the gap behind it is made anew,
and can get lost.

* `Regapped` — what indentation does to a gap; `Legible.regapped` — it keeps lexemes legible;
* `exists_indentText` — a list can be indented and keeps its words;
* `exists_formatIndented` — all forms with the words of a list are formatted and indented to one
  list;
* `formatIndented_formatIndented` — **formatting and indenting again undoes all of the first time**,
  whatever its mode and column were.
-/

namespace SexpLayout

open Lexer (Follows)
open Lexeme (spell spell_cons spell_append Legible word)

/-! ### gaps -/

theorem Text.DrawnFrom.blank {s t : Text} (h : s.DrawnFrom t) (ht : ∀ c ∈ t, isBlank c = true) :
    ∀ c ∈ s, isBlank c = true := by
  intro c hc
  rcases h c hc with hc | rfl | rfl
  · exact ht c hc
  · exact isBlank_space
  · exact isBlank_newline

/-- The second gap has blanks and a line end where the first one has. -/
structure Regapped (g h : Text) : Prop where
  blank : (∀ c ∈ g, isBlank c = true) → ∀ c ∈ h, isBlank c = true
  eq_nil : h = [] ↔ g = []
  newline : '\n' ∈ g → '\n' ∈ h
  drawn : h.DrawnFrom g

theorem Regapped.refl (g : Text) : Regapped g g := ⟨id, Iff.rfl, id, fun _ hc => .inl hc⟩

/-- The lexemes have the same words, and the gaps of the second are made from those of the first. -/
def Lexeme.Regaps (l m : Lexeme) : Prop := m.word = l.word ∧ Regapped l.gap m.gap

theorem spell_ne_nil {l : Lexeme} {ls : List Lexeme} {r : Text} (h : Legible (l :: ls) r)
    (y : Text) :
    spell (l :: ls) ++ y ≠ [] := by
  have hne := h.1.ne_nil
  simp [Lexeme.source, hne]

theorem Regapped.follows {k : Kind} {t g h : Text} (hg : Regapped g h)
    (hblank : ∀ c ∈ g, isBlank c = true) {c : Char} {s x : Text} (hc : isBlank c = false)
    (hf : Follows k t (g ++ c :: (s ++ x))) (y : Text) :
    Follows k t (h ++ c :: (s ++ y)) := by
  by_cases hnil : g = []
  · rw [hg.eq_nil.2 hnil]
    rw [hnil] at hf
    have hu : ∃ d ∈ c :: s, isBlank d = false := ⟨c, by simp, hc⟩
    exact Lexer.Follows.append_congr (u := c :: s) hf hu y
  · have hne : h ≠ [] := fun e => hnil (hg.eq_nil.1 e)
    obtain ⟨hcomment, hmark⟩ := (Lexer.follows_append_iff hblank hnil _).1 hf
    refine (Lexer.follows_append_iff (hg.blank hblank) hne _).2 ⟨fun hk => ?_, hmark⟩
    -- the line end behind a comment is in the gap
    have hend : Lexer.EndsLine ((g ++ [c]) ++ (s ++ x)) := by simpa using hcomment hk
    have hmem := Lexer.newline_mem_of_endsLine hend ⟨c, by simp, hc⟩
    have hgap : '\n' ∈ g := by
      rcases List.mem_append.1 hmem with hmem | hmem
      · exact hmem
      · rw [← List.mem_singleton.1 hmem] at hc
        cases hc
    exact Lexer.endsLine_append (hg.blank hblank) (hg.newline hgap) _

/-- **Lexemes with changed gaps are legible.** -/
theorem Legible.regapped {ls ms : List Lexeme} {r : Text} (h : Legible ls r)
    (hm : List.Forall₂ Lexeme.Regaps ls ms) :
    Legible ms r := by
  induction hm with
  | nil => exact h
  | @cons l m ls ms hlm hm ih =>
    obtain ⟨hst, hls⟩ := h
    obtain ⟨hword, hgap⟩ := hlm
    obtain ⟨hkind, htext⟩ : m.kind = l.kind ∧ m.text = l.text := by simpa [word] using hword
    have hst' : l.Stands (spell ms ++ r) := by
      cases hm with
      | nil => exact hst
      | @cons l' m' ls ms hlm' hm =>
        refine hst.of_follows (fun e => absurd e (spell_ne_nil hls r)) ?_
        obtain ⟨hword', hgap'⟩ := hlm'
        obtain ⟨c, s, hc, hb⟩ := hls.1.inked
        have htext' : m'.text = c :: s := by
          rw [← hc]
          exact congrArg Prod.snd hword'
        have hf := Lexer.follows_of_cut hst.cut
        have :=
          hgap'.follows hls.1.gap_blank hb (x := spell ls ++ r)
            (by simpa [Lexeme.source, hc] using hf)
          (spell ms ++ r)
        simpa [Lexeme.source, htext'] using this
    refine ⟨⟨hgap.blank hst'.gap_blank, ?_, ?_⟩, ih hls⟩
    · rw [htext]
      exact hst'.inked
    · rw [htext, hkind]
      exact hst'.cut

/-! ### what indentation changes -/

namespace Indent

theorem regapped_indentGap {width base : Int} {cursor : Cursor} (hf : cursor.fresh = false)
    (kind : Kind) (gap : Text) :
    Regapped gap (indentGap width base cursor kind gap).1 := by
  unfold indentGap
  split
  · next hline =>
    have hmem : '\n' ∈ gap := by simpa [startsLine, hf] using hline
    have hpos : 0 < gap.count '\n' := List.count_pos_iff.2 hmem
    simp only [lineEnds, hf, Bool.false_eq_true, if_false]
    have hdrawn :
        Text.DrawnFrom (gap.takeWhile (· ≠ '\n') ++ List.replicate (gap.count '\n') '\n' ++
          List.replicate (target width base cursor.brackets kind).toNat ' ') gap := by
      intro c hc
      simp only [List.mem_append, List.mem_replicate] at hc
      rcases hc with (hc | ⟨-, rfl⟩) | ⟨-, rfl⟩
      · exact .inl ((List.takeWhile_sublist _).subset hc)
      · exact .inr (.inr rfl)
      · exact .inr (.inl rfl)
    refine ⟨hdrawn.blank, ?_, ?_, hdrawn⟩
    · constructor
      · intro e
        have hzero : gap.count '\n' = 0 := by simp_all
        omega
      · rintro rfl
        simp at hmem
    · intro _
      simp [List.mem_replicate]
      omega
  · exact .refl gap

/-- **Indentation keeps the words and changes gaps only**, as long as no token ends its line. -/
theorem regaps_indentLexemes (width base : Int) {cursor : Cursor} {ls : List Lexeme}
    (hf : cursor.fresh = false) (hn : ∀ l ∈ ls, l.text.getLast? ≠ some '\n') :
    List.Forall₂ Lexeme.Regaps ls (indentLexemes width base cursor ls).1 := by
  induction ls generalizing cursor with
  | nil => exact .nil
  | cons l ls ih =>
    have hnext :
        (advance cursor (indentGap width base cursor l.kind l.gap).2 l.toToken).fresh = false := by
      simpa [advance] using hn l (by simp)
    exact .cons ⟨rfl, regapped_indentGap hf l.kind l.gap⟩ (ih hnext fun m hm => hn m (by simp [hm]))

theorem indentTail_nil (fresh : Bool) : indentTail fresh [] = [] := by
  cases fresh <;> rfl

end Indent

theorem map_word_of_regaps {ls ms : List Lexeme} (h : List.Forall₂ Lexeme.Regaps ls ms) :
    ms.map word = ls.map word := by
  induction h with
  | nil => rfl
  | cons h _ ih => rw [List.map_cons, List.map_cons, h.1, ih]

theorem drawnFrom_of_regaps {ls ms : List Lexeme} (h : List.Forall₂ Lexeme.Regaps ls ms) :
    Text.DrawnFrom (spell ms) (spell ls) := by
  induction h with
  | nil => simp [Text.DrawnFrom]
  | @cons l m ls ms h _ ih =>
    obtain ⟨hword, hgap⟩ := h
    have htext : m.text = l.text := congrArg Prod.snd hword
    intro c hc
    simp only [spell_cons, Lexeme.source, List.mem_append, htext] at hc ⊢
    rcases hc with (hc | hc) | hc
    · exact (hgap.drawn c hc).imp_left fun hc => .inl (.inl hc)
    · exact .inl (.inl (.inr hc))
    · exact (ih c hc).imp_left .inr

/-! ### indented lists -/

theorem ListReading.exists_forms {t : Text} {vs : List Word} (h : ListReading t vs) :
    ∃ o inner c, o.gap = [] ∧ (Forms.list o inner c .nil).Balanced ∧
      Legible (Forms.list o inner c .nil).lexemes [] ∧
      (Forms.list o inner c .nil).lexemes.map word = vs ∧
        spell (Forms.list o inner c .nil).lexemes = t := by
  let l : Lexeme := ⟨⟨.compound, t, 0, 0⟩, []⟩
  have hread : Reading [l] [] vs := by
    simpa using Reading.of_list (l := l) rfl (by simp [l]) h .nil
  obtain ⟨f, hb, hl, hw, hp⟩ := hread.exists_forms (by simp [BracketFree, l])
  have hp0 := hp 0
  cases f with
  | nil => simp [Forms.grouped, Lexeme.placed] at hp0
  | atom x rest =>
    -- a list is no token
    simp only [Forms.grouped, Lexeme.placed, List.cons.injEq] at hp0
    exact absurd (congrArg (fun m => m.kind) hp0.1) hl.1.kind_ne_compound
  | list o inner c rest =>
    simp only [Forms.grouped, Lexeme.placed, List.cons.injEq] at hp0
    have hnil : rest = .nil := by
      cases rest with
      | nil => rfl
      | _ => cases hp0.2
    subst hnil
    have hgap : o.gap = [] := congrArg (fun m => m.gap) hp0.1
    have htext : (Forms.compound o inner c).text = t := congrArg (fun m => m.text) hp0.1
    refine ⟨o, inner, c, hgap, hb, hl, hw, ?_⟩
    rw [← htext]
    simp [Forms.compound, Forms.lexemes, Lexeme.source, hgap]

theorem ListReading.of_words {t : Text} {vs : List Word} (h : ListReading t vs) {m : Lexeme}
    {ms : List Lexeme} (hm : Legible (m :: ms) []) (hw : (m :: ms).map word = vs)
    (hgap : m.gap = []) :
    ListReading (spell (m :: ms)) vs := by
  obtain ⟨o, inner, c, -, hb, -, hws, -⟩ := h.exists_forms
  obtain ⟨g, hg, hbare⟩ := Forms.exists_refilled (f := .list o inner c .nil) (hw.trans hws.symm)
  have hbg : g.Balanced := Forms.balanced_map_bare.1 (hbare ▸ Forms.balanced_map_bare.2 hb)
  cases g with
  | list o' inner' c' rest =>
    simp only [Forms.map, Forms.list.injEq] at hbare
    have hnil : rest = .nil := by
      cases rest with
      | nil => rfl
      | _ => cases hbare.2.2.2
    subst hnil
    rw [← hg] at hm hw ⊢
    have hgap' : o'.gap = [] := by
      rw [← hgap, (List.cons.inj hg).1]
    have hlist := listReading_compound hbg.1 (bracketFree_grouped hbg.2.1) hm fun _ =>
      reading_grouped hbg.2.1
    have hwords : o'.word :: (inner'.lexemes.map word ++ [c'.word]) = vs := by
      rw [← hw]
      simp [Forms.lexemes]
    have htext : (Forms.compound o' inner' c').text =
        spell (Forms.list o' inner' c' .nil).lexemes := by
      simp [Forms.compound, Forms.lexemes, Lexeme.source, hgap']
    rwa [hwords, htext] at hlist
  | _ => simp [Forms.map] at hbare

/-- **A list can be indented and keeps its words**, as long as none of them ends its line. -/
theorem exists_indentText {t : Text} {vs : List Word} (h : ListReading t vs)
    (hn : ∀ w ∈ vs, w.2.getLast? ≠ some '\n') (width base : Int) :
    ∃ out, indentText width base t = .ok out ∧ ListReading out vs ∧ out.DrawnFrom t := by
  obtain ⟨o, inner, c, hgap, hb, hl, hw, rfl⟩ := h.exists_forms
  obtain ⟨ls, hls⟩ : ∃ ls, (Forms.list o inner c .nil).lexemes = o :: ls := ⟨_, rfl⟩
  rw [hls] at h hl hw ⊢
  have hscan := Passage.scanAt_of_legible hl (by simp) 0
  rw [List.append_nil] at hscan
  have hn' : ∀ l ∈ Lexeme.placed 0 (o :: ls), l.text.getLast? ≠ some '\n' := by
    intro l hl
    refine hn l.word ?_
    rw [← hw, ← Lexeme.map_word_placed 0]
    exact List.mem_map_of_mem hl
  have hreg : List.Forall₂ Lexeme.Regaps _
      (Indent.indentLexemes width base ⟨[], base, false⟩ (Lexeme.placed 0 (o :: ls))).1 :=
    Indent.regaps_indentLexemes width base rfl hn'
  have hout : indentText width base (spell (o :: ls)) =
      .ok (spell (Indent.indentLexemes width base ⟨[], base,
        false⟩ (Lexeme.placed 0 (o :: ls))).1) := by
    simp only [indentText, Passage.scan, hscan, bind, Except.bind, pure, Except.pure,
      Indent.indentPassage, Passage.text, Indent.indentTail_nil, List.append_nil]
  generalize (Indent.indentLexemes width base ⟨[], base, false⟩ (Lexeme.placed 0 (o :: ls))).1 =
    ms at hreg hout
  have hlegible := Legible.regapped (Lexeme.legible_placed.2 hl) hreg
  have hwords := (map_word_of_regaps hreg).trans ((Lexeme.map_word_placed 0 (o :: ls)).trans hw)
  have hdrawn := drawnFrom_of_regaps hreg
  rw [Lexeme.spell_placed] at hdrawn
  cases hreg with
  | @cons _ m _ ms hm _ =>
    have hgap' : m.gap = [] := hm.2.eq_nil.2 hgap
    exact ⟨_, hout, h.of_words hlegible hwords hgap', hdrawn⟩

/-! ### formatted and indented lists -/

/-- A form that stands at a column, formatted and then indented. -/
def formatIndented (config : Config) (mode : Mode) (column : Int) (form : Text) :
    Except ReadError Text := do
  let new ← (formatForm config mode true none form).outcome
  indentText config.indentWidth column new

/-- An expression that starts with a bracket is a list, as any other list is one token, and it holds
the words of the list alone. -/
theorem exists_listReading {f : Text} {p : Passage} {ws : List Word}
    (hp : Passage.ofExpression f = .ok p) (hopen : p.tokens.head?.map Token.kind = some .openParen)
    (hw : wordsOf f = .ok ws) : ∃ t, ListReading t ws := by
  obtain ⟨g, hg, hlex⟩ := Passage.exists_of_ofExpression hp
  obtain ⟨-, hb, hl, -, -⟩ := Forms.ofText_eq_ok_iff.1 hg
  obtain rfl := Except.ok.inj ((wordsOf_of_ofText hg).symm.trans hw)
  rw [Passage.tokens, hlex, List.head?_map, Option.map_map, Option.map_eq_some_iff] at hopen
  obtain ⟨l, hhead, hk⟩ := hopen
  revert hhead
  fun_cases Forms.opened g with
  | case1 o inner c =>
    intro _
    have hlist := listReading_compound hb.1 (bracketFree_grouped hb.2.1) hl fun _ =>
      reading_grouped hb.2.1
    exact ⟨_, by simpa [Forms.lexemes] using hlist⟩
  | case2 =>
    intro hhead
    exact absurd hk (bracketFree_grouped hb l (List.mem_of_head? hhead)).1

/-- **All forms with the words of a list are formatted and indented to one list** with these
words. -/
theorem exists_formatIndented (config : Config) (mode : Mode) (column : Int) {t : Text}
    {ws : List Word} (ht : ListReading t ws) (hs : SpliceFree ws)
    (hn : ∀ w ∈ ws, w.2.getLast? ≠ some '\n') :
    ∃ out, ListReading out ws ∧ ∀ g q, Passage.ofExpression g = .ok q → wordsOf g = .ok ws →
      formatIndented config mode column g = .ok out := by
  obtain ⟨new, hnew, hread, -⟩ := exists_outcome_of_listReading config mode none ht hs
  obtain ⟨out, hout, hread', -⟩ := exists_indentText hread hn config.indentWidth column
  refine ⟨out, hread', fun g q hg hw => ?_⟩
  obtain ⟨_, _, _, -, -, -, -, -, hp, hwt⟩ := ht.ofExpression
  obtain ⟨b, s, us, -, -, rfl⟩ := ht.exists_cons
  have hsame := outcome_formatForm_congr config mode none hg hp hw hwt (by simp) hs
  rw [formatIndented, hsame, hnew]
  exact hout

/-- **What formatting and indenting makes of a list depends on its words, the mode and the column
only.**  So a list that was formatted and indented before, in any mode and at any column, comes out
as it would have without that. -/
theorem formatIndented_formatIndented (config : Config) {f : Text} {p : Passage}
    (hp : Passage.ofExpression f = .ok p) (hopen : p.tokens.head?.map Token.kind = some .openParen)
    {ws : List Word} (hw : wordsOf f = .ok ws) (hs : SpliceFree ws)
    (hn : ∀ w ∈ ws, w.2.getLast? ≠ some '\n') (mode₁ mode₂ : Mode) (column₁ column₂ : Int) :
    ∃ r₁ r₂, formatIndented config mode₁ column₁ f = .ok r₁ ∧
      formatIndented config mode₂ column₂ f = .ok r₂ ∧
      formatIndented config mode₂ column₂ r₁ = .ok r₂ ∧
      ∀ g q, Passage.ofExpression g = .ok q → wordsOf g = .ok ws →
        formatIndented config mode₂ column₂ g = .ok r₂ := by
  obtain ⟨t, ht⟩ := exists_listReading hp hopen hw
  obtain ⟨r₁, hr₁, hall₁⟩ := exists_formatIndented config mode₁ column₁ ht hs hn
  obtain ⟨r₂, -, hall₂⟩ := exists_formatIndented config mode₂ column₂ ht hs hn
  -- the result of the first time is a list with the same words
  obtain ⟨_, _, _, -, -, -, -, -, hq, hwr⟩ := hr₁.ofExpression
  exact ⟨r₁, r₂, hall₁ f p hp hw, hall₂ f p hp hw, hall₂ r₁ _ hq hwr, hall₂⟩

/-- Blank lines, a comment and a string over two lines: on one line at column 3, and then over
several lines at column 0. -/
theorem formatIndented_formatIndented_strings :
    (∃ ws, wordsOf " (f\n\n ( a (d) ;x\n  b)\"y\n z\" [c])\n".toList = .ok ws ∧ SpliceFree ws ∧
      ∀ w ∈ ws, w.2.getLast? ≠ some '\n') ∧
    ∃ r₁ r₂, r₁ = "(f (a (d) ;x\n        b) \"y\n z\" [c])".toList ∧
      r₂ = "(f (a (d)\n     ;x\n     b)\n  \"y\n z\"\n  [c])".toList ∧
      formatIndented .standard .oneLine 3 " (f\n\n ( a (d) ;x\n  b)\"y\n z\" [c])\n".toList =
        .ok r₁ ∧
      formatIndented .standard .multiLine 0 " (f\n\n ( a (d) ;x\n  b)\"y\n z\" [c])\n".toList =
        .ok r₂ ∧
      formatIndented .standard .multiLine 0 r₁ = .ok r₂ := by
  obtain ⟨ws, hw⟩ :=
    exists_of_isOk (x := wordsOf " (f\n\n ( a (d) ;x\n  b)\"y\n z\" [c])\n".toList)
      (by decide +kernel)
  have hwords : (wordsOf " (f\n\n ( a (d) ;x\n  b)\"y\n z\" [c])\n".toList).toOption.all (fun ws =>
      decide (SpliceFree ws ∧ ∀ w ∈ ws, w.2.getLast? ≠ some '\n')) = true := by
    decide +kernel
  rw [hw] at hwords
  obtain ⟨hs, hn⟩ := of_decide_eq_true hwords
  obtain ⟨p, hp⟩ :=
    exists_of_isOk (x := Passage.ofExpression " (f\n\n ( a (d) ;x\n  b)\"y\n z\" [c])\n".toList)
      (by decide +kernel)
  have hopen :
      (Passage.ofExpression " (f\n\n ( a (d) ;x\n  b)\"y\n z\" [c])\n".toList).toOption.map
        (fun p =>
          p.tokens.head?.map Token.kind) = some (some .openParen) := by
    decide +kernel
  rw [hp] at hopen
  obtain ⟨r₁, r₂, h₁, h₂, hagain, -⟩ :=
    formatIndented_formatIndented .standard hp
      (Option.some.inj hopen) hw hs hn .oneLine .multiLine 3 0
  have hr₁ : formatIndented .standard .oneLine 3 " (f\n\n ( a (d) ;x\n  b)\"y\n z\" [c])\n".toList =
      .ok "(f (a (d) ;x\n        b) \"y\n z\" [c])".toList := eq_ok_of_toOption (by decide +kernel)
  have hr₂ :
      formatIndented .standard .multiLine 0 " (f\n\n ( a (d) ;x\n  b)\"y\n z\" [c])\n".toList =
      .ok "(f (a (d)\n     ;x\n     b)\n  \"y\n z\"\n  [c])".toList :=
        eq_ok_of_toOption (by decide +kernel)
  exact ⟨⟨ws, hw, hs, hn⟩, r₁, r₂, Except.ok.inj (h₁.symm.trans hr₁),
    Except.ok.inj (h₂.symm.trans hr₂), h₁, h₂, hagain⟩

end SexpLayout
