import Mathlib.Data.List.Forall2
import SexpLayout.Proofs.Forms.Balanced

/-!
# Readings

`Reading us r ws` says that the lexemes `us`, some of which are whole lists, are read in front of
the text `r`, and that `ws` are the words in them, those inside the lists included.  It is a grammar
of the texts that can be read: a token is cut off, or a list is taken that has a reading inside its
brackets.

* `reading_grouped`, `Reading.exists_forms` — readings are what balanced and legible forms show when
  their lists are grouped;
* `Passage.reading_of_ofDocument`, `Passage.ofDocument_of_reading` — the documents are the texts
  with a reading that leaves only blanks behind it;
* `Passage.reading_of_ofExpression`, `Passage.ofExpression_of_reading` — so are the expressions, if
  a list that stands alone is opened (`IsExpression`).
-/

namespace SexpLayout

open Lexer (isOpener isCloser Follows)
open Lexeme (spell spell_cons spell_append Legible word)
open Forms (closes)

def BracketFree (us : List Lexeme) : Prop := ∀ u ∈ us, u.kind ≠ .openParen ∧ u.kind ≠ .closeParen

/-- The lexemes are read in front of the text, and hold the words. -/
inductive Reading : List Lexeme → Text → List Word → Prop
  | nil {r : Text} : Reading [] r []
  | token {l : Lexeme} {ls : List Lexeme} {r : Text} {ws : List Word} (h : l.Stands (spell ls ++ r))
      (hs : Reading ls r ws) : Reading (l :: ls) r (l.word :: ws)
  | list {l : Lexeme} {ls inner : List Lexeme} {r g : Text} {b e : Char} {vs ws : List Word}
      (hk : l.kind = .compound) (hgap : ∀ c ∈ l.gap, isBlank c = true)
      (ht : l.text = b :: (spell inner ++ (g ++ [e]))) (hc : closes [b] [e] = true)
      (hg : ∀ c ∈ g, isBlank c = true) (hf : BracketFree inner) (hi : Reading inner (g ++ [e]) vs)
      (hs : Reading ls r ws) :
      Reading (l :: ls) r ((.openParen, [b]) :: (vs ++ (.closeParen, [e]) :: ws))

/-- The text is a list with nothing around it, and holds the words. -/
inductive ListReading : Text → List Word → Prop
  | intro {inner : List Lexeme} {g : Text} {b e : Char} {vs : List Word}
    (hc : closes [b] [e] = true)
      (hg : ∀ c ∈ g, isBlank c = true) (hf : BracketFree inner) (hi : Reading inner (g ++ [e]) vs) :
      ListReading (b :: (spell inner ++ (g ++ [e])))
        ((.openParen, [b]) :: (vs ++ [(.closeParen, [e])]))

theorem closes_cases {t u : Text} (h : closes t u = true) :
    ∃ b e, t = [b] ∧ u = [e] ∧ isOpener b = true ∧ isCloser e = true := by
  simp only [closes, Bool.or_eq_true, Bool.and_eq_true, beq_iff_eq] at h
  obtain ⟨rfl, rfl⟩ | ⟨rfl, rfl⟩ := h
  · exact ⟨'(', ')', rfl, rfl, rfl, rfl⟩
  · exact ⟨'[', ']', rfl, rfl, rfl, rfl⟩

/-! ### taking readings apart -/

namespace Reading

theorem of_list {l : Lexeme} {ls : List Lexeme} {r : Text} {vs ws : List Word}
    (hk : l.kind = .compound) (hgap : ∀ c ∈ l.gap, isBlank c = true) (h : ListReading l.text vs)
    (hs : Reading ls r ws) :
    Reading (l :: ls) r (vs ++ ws) := by
  generalize ht : l.text = t at h
  obtain ⟨hc, hg, hf, hi⟩ := h
  have := Reading.list hk hgap ht hc hg hf hi hs
  simpa using this

theorem cons_cases {l : Lexeme} {ls : List Lexeme} {r : Text} {ws : List Word}
    (h : Reading (l :: ls) r ws) :
    (∃ us, l.Stands (spell ls ++ r) ∧ Reading ls r us ∧ ws = l.word :: us) ∨
    (∃ vs us, l.kind = .compound ∧ (∀ c ∈ l.gap, isBlank c = true) ∧ ListReading l.text vs ∧
      Reading ls r us ∧ ws = vs ++ us) := by
  cases h with
  | @token _ _ _ us h hs => exact .inl ⟨us, h, hs, rfl⟩
  | @list _ _ inner _ g b e vs us hk hgap ht hc hg hf hi hs =>
    refine .inr ⟨(.openParen, [b]) :: (vs ++ [(.closeParen, [e])]), us, hk, hgap, ?_, hs, by simp⟩
    rw [ht]
    exact .intro hc hg hf hi

theorem exists_tail {l : Lexeme} {ls : List Lexeme} {r : Text} {ws : List Word}
    (h : Reading (l :: ls) r ws) :
    ∃ us, Reading ls r us := by
  rcases cons_cases h with ⟨us, -, hs, -⟩ | ⟨-, us, -, -, -, hs, -⟩ <;> exact ⟨us, hs⟩

theorem append_iff {us vs : List Lexeme} {r : Text} {ws : List Word} :
    Reading (us ++ vs) r ws ↔
      ∃ ws₁ ws₂, Reading us (spell vs ++ r) ws₁ ∧ Reading vs r ws₂ ∧ ws = ws₁ ++ ws₂ := by
  induction us generalizing ws with
  | nil =>
    constructor
    · intro h
      exact ⟨[], ws, .nil, h, rfl⟩
    · rintro ⟨ws₁, ws₂, h1, h2, rfl⟩
      cases h1
      exact h2
  | cons u us ih =>
    constructor
    · intro h
      rcases cons_cases h with ⟨ts, hu, hs, rfl⟩ | ⟨ts, ts', hk, hgap, hl, hs, rfl⟩
      · obtain ⟨ws₁, ws₂, h1, h2, rfl⟩ := ih.1 hs
        refine ⟨u.word :: ws₁, ws₂, .token ?_ h1, h2, rfl⟩
        simpa using hu
      · obtain ⟨ws₁, ws₂, h1, h2, rfl⟩ := ih.1 hs
        exact ⟨ts ++ ws₁, ws₂, of_list hk hgap hl h1, h2, by simp⟩
    · rintro ⟨ws₁, ws₂, h1, h2, rfl⟩
      rcases cons_cases h1 with ⟨ts, hu, hs, rfl⟩ | ⟨ts, ts', hk, hgap, hl, hs, rfl⟩
      · refine .token ?_ (ih.2 ⟨ts, ws₂, hs, h2, rfl⟩)
        simpa using hu
      · rw [List.append_assoc]
        exact of_list hk hgap hl (ih.2 ⟨ts', ws₂, hs, h2, rfl⟩)

end Reading

/-! ### readings and forms -/

theorem Forms.spell_lexemes_eq {f : Forms} {us : List Lexeme}
    (h : ∀ n, Lexeme.placed n f.grouped = Lexeme.placed n us) : spell f.lexemes = spell us := by
  rw [← Forms.source_grouped, ← Lexeme.spell_placed 0, h, Lexeme.spell_placed]

theorem bracketFree_grouped {f : Forms} (hf : f.Balanced) : BracketFree f.grouped := by
  induction f with
  | nil => simp [BracketFree, Forms.grouped]
  | atom x rest ih =>
    intro u hu
    rcases List.mem_cons.1 hu with rfl | hu
    · exact hf.1
    · exact ih hf.2 u hu
  | list o inner c rest _ ih =>
    intro u hu
    rcases List.mem_cons.1 hu with rfl | hu
    · simp [Forms.compound]
    · exact ih hf.2.2 u hu

theorem listReading_compound {o c : Lexeme} {inner rest : Forms} {r : Text}
    (hm : o.kind = .openParen ∧ c.kind = .closeParen ∧ closes o.text c.text = true)
    (hf : BracketFree inner.grouped) (hl : Legible (Forms.list o inner c rest).lexemes r)
    (hi : ∀ x, Legible inner.lexemes x → Reading inner.grouped x (inner.lexemes.map word)) :
    ListReading (Forms.compound o inner c).text
      (o.word :: (inner.lexemes.map word ++ [c.word])) := by
  obtain ⟨ho, hc, hcl⟩ := hm
  obtain ⟨-, hl⟩ := hl
  obtain ⟨hli, hsc, -⟩ := Lexeme.legible_append.1 hl
  obtain ⟨b, e, hob, hce, -, hbe⟩ := closes_cases hcl
  have hsrc : c.source = c.gap ++ [e] := by rw [Lexeme.source, hce]
  -- inside the list nothing behind its closer matters
  have hli' : Legible inner.lexemes (c.gap ++ [e]) := by
    rw [spell_cons, List.append_assoc, hsrc] at hli
    simpa using hli.append_congr ⟨e, by simp, isBlank_of_isCloser hbe⟩ []
  have := ListReading.intro (hob ▸ hce ▸ hcl) hsc.gap_blank hf (hi _ hli')
  simpa [Forms.compound, hob, hsrc, Forms.source_grouped, word, ho, hc, hce] using this

theorem reading_grouped {f : Forms} {r : Text} (hf : f.Balanced) (hl : Legible f.lexemes r) :
    Reading f.grouped r (f.lexemes.map word) := by
  induction f generalizing r with
  | nil => exact .nil
  | atom x rest ih =>
    refine .token ?_ (ih hf.2 hl.2)
    rw [Forms.source_grouped]
    exact hl.1
  | list o inner c rest ihi ihr =>
    have hlist := listReading_compound hf.1 (bracketFree_grouped hf.2.1) hl fun _ => ihi hf.2.1
    obtain ⟨hso, hl⟩ := hl
    have hrest := ihr hf.2.2 (Lexeme.legible_append.1 hl).2.2
    have hwords : (Forms.list o inner c rest).lexemes.map word =
        (o.word :: (inner.lexemes.map word ++ [c.word])) ++ rest.lexemes.map word := by
      simp [Forms.lexemes]
    rw [hwords]
    exact .of_list rfl hso.gap_blank hlist hrest

/-- Every reading without brackets at its top is what some forms show. -/
theorem Reading.exists_forms {us : List Lexeme} {r : Text} {ws : List Word} (h : Reading us r ws)
    (hf : BracketFree us) :
    ∃ f : Forms, f.Balanced ∧ Legible f.lexemes r ∧ f.lexemes.map word = ws ∧
      ∀ n, Lexeme.placed n f.grouped = Lexeme.placed n us := by
  induction h with
  | nil => exact ⟨.nil, trivial, trivial, rfl, fun n => rfl⟩
  | @token l ls r ws h hs ih =>
    obtain ⟨f, hb, hl, hw, hp⟩ := ih fun u hu => hf u (by simp [hu])
    refine ⟨.atom l f, ⟨hf l (by simp), hb⟩,
      ⟨by rwa [Forms.spell_lexemes_eq hp], hl⟩, by simp [Forms.lexemes, hw], fun n => ?_⟩
    simp [Forms.grouped, Lexeme.placed, hp]
  | @list l ls inner r g b e vs ws hk hgap ht hc hg hfi hi hs ihi ihs =>
    obtain ⟨fi, hbi, hli, hwi, hpi⟩ := ihi hfi
    obtain ⟨f, hb, hl, hw, hp⟩ := ihs fun u hu => hf u (by simp [hu])
    obtain ⟨b', e', hb', he', hbo, hbe⟩ := closes_cases hc
    cases hb'
    cases he'
    have hspell := Forms.spell_lexemes_eq hpi
    let o : Lexeme := ⟨⟨.openParen, [b], 0, 0⟩, l.gap⟩
    let c : Lexeme := ⟨⟨.closeParen, [e], 0, 0⟩, g⟩
    have htext : (Forms.compound o fi c).text = l.text := by
      simp [Forms.compound, Lexeme.source, o, c, hspell, ht]
    refine ⟨.list o fi c f, ⟨⟨rfl, rfl, hc⟩, hbi, hb⟩, ?_, ?_, ?_⟩
    · refine ⟨⟨hgap, ⟨b, [], rfl, isBlank_of_isOpener hbo⟩, .opener hbo⟩,
        Lexeme.legible_append.2 ⟨?_, ?_, hl⟩⟩
      · have := hli.append ⟨e, by simp, isBlank_of_isCloser hbe⟩ (spell f.lexemes ++ r)
        simpa [Lexeme.source, c] using this
      · exact ⟨hg, ⟨e, [], rfl, isBlank_of_isCloser hbe⟩, .closer hbe⟩
    · simp [Forms.lexemes, hwi, hw, word, o, c]
    · intro n
      have hsource : (Forms.compound o fi c).source = l.source := by
        rw [Lexeme.source, Lexeme.source, htext]; rfl
      have hmoved : ∀ m, (Forms.compound o fi c).moved m = l.moved m := by
        intro m
        rw [Lexeme.moved, Lexeme.moved, htext]
        simp [Forms.compound, hk, o]
      simp only [Forms.grouped, Lexeme.placed, hp, hsource, hmoved]
      rfl

/-! ### documents and expressions -/

/-- What an expression shows at its top: a list opened by one level, or a sequence without brackets
that is not a list alone. -/
inductive IsExpression : List Lexeme → Prop
  | list {o c : Lexeme} {inner : List Lexeme} (ho : o.kind = .openParen) (hc : c.kind = .closeParen)
      (hcl : closes o.text c.text = true) (hf : BracketFree inner) :
        IsExpression (o :: (inner ++ [c]))
  | sequence {us : List Lexeme} (hf : BracketFree us) (hs : ∀ u, us = [u] → u.kind ≠ .compound) :
      IsExpression us

theorem isExpression_opened {f : Forms} (hf : f.Balanced)
    (ha : ∀ l ∈ f.lexemes, l.kind ≠ .compound) :
    IsExpression f.opened := by
  cases f with
  | nil =>
    exact .sequence (by simp [BracketFree, Forms.opened, Forms.grouped])
      (by simp [Forms.opened, Forms.grouped])
  | atom x rest =>
    refine .sequence (bracketFree_grouped hf) ?_
    intro u hu
    obtain ⟨rfl, -⟩ := List.cons.inj hu
    exact ha x (by simp [Forms.lexemes])
  | list o inner c rest =>
    cases rest with
    | nil => exact .list hf.1.1 hf.1.2.1 hf.1.2.2 (bracketFree_grouped hf.2.1)
    | atom x rest =>
      exact .sequence (bracketFree_grouped hf) (by simp [Forms.opened, Forms.grouped])
    | list o' inner' c' rest =>
      exact .sequence (bracketFree_grouped hf) (by simp [Forms.opened, Forms.grouped])

theorem reading_opened {f : Forms} {r : Text} (hf : f.Balanced) (hl : Legible f.lexemes r) :
    Reading f.opened r (f.lexemes.map word) := by
  fun_cases Forms.opened f with
  | case1 o inner c =>
    obtain ⟨hso, hl⟩ := hl
    obtain ⟨hli, hlc⟩ := Lexeme.legible_append.1 hl
    have hinner := reading_grouped hf.2.1 hli
    have hc : Reading [c] r [c.word] := .token hlc.1 .nil
    have := Reading.append_iff.2 ⟨_, _, hinner, hc, rfl⟩
    have hspell : spell (inner.grouped ++ [c]) = spell (inner.lexemes ++ [c]) := by
      rw [spell_append, spell_append, Forms.source_grouped]
    simpa [Forms.lexemes] using Reading.token (hspell ▸ hso) this
  | case2 => exact reading_grouped hf hl

theorem lexemes_ne_compound {ls : List Lexeme} {r : Text} (h : Legible ls r) :
    ∀ l ∈ ls, l.kind ≠ .compound := by
  induction ls with
  | nil => simp
  | cons l ls ih =>
    intro m hm
    rcases List.mem_cons.1 hm with rfl | hm
    · exact h.1.kind_ne_compound
    · exact ih h.2 m hm

theorem Forms.opened_eq_grouped {f : Forms} (h : ∀ u, f.grouped = [u] → u.kind ≠ .compound) :
    f.opened = f.grouped := by
  fun_cases Forms.opened f with
  | case1 o inner c => exact absurd rfl (h (Forms.compound o inner c) rfl)
  | case2 => rfl

theorem Lexeme.exists_of_placed_eq_singleton {n : Nat} {us : List Lexeme} {v : Lexeme}
    (h : Lexeme.placed n us = Lexeme.placed n [v]) : ∃ u, us = [u] ∧ u.kind = v.kind := by
  have hkinds := congrArg (List.map word) h
  rw [Lexeme.map_word_placed, Lexeme.map_word_placed] at hkinds
  obtain ⟨u, us, rfl, hu, hnil⟩ := List.map_eq_cons_iff.1 hkinds
  exact ⟨u, by rw [List.map_eq_nil_iff.1 hnil], congrArg Prod.fst hu⟩

theorem Reading.exists_opened {us : List Lexeme} {r : Text} {ws : List Word} (h : Reading us r ws)
    (he : IsExpression us) :
    ∃ f : Forms, f.Balanced ∧ Legible f.lexemes r ∧ f.lexemes.map word = ws ∧
      ∀ n, Lexeme.placed n f.opened = Lexeme.placed n us := by
  cases he with
  | @list o c inner ho hc hcl hf =>
    rcases cons_cases h with ⟨ts, hso, hs, rfl⟩ | ⟨_, _, hk, _⟩
    · obtain ⟨ws₁, ws₂, h1, h2, rfl⟩ := append_iff.1 hs
      obtain ⟨f, hb, hl, rfl, hp⟩ := h1.exists_forms hf
      rcases cons_cases h2 with ⟨ts, hsc, hnil, rfl⟩ | ⟨_, _, hk, _⟩
      · cases hnil
        have hspell := Forms.spell_lexemes_eq hp
        refine ⟨.list o f c .nil, ⟨⟨ho, hc, hcl⟩, hb, trivial⟩,
          ⟨?_, Lexeme.legible_append.2 ⟨hl, hsc, trivial⟩⟩, ?_, ?_⟩
        · simpa [Forms.lexemes, hspell] using hso
        · simp [Forms.lexemes]
        · intro n
          simp [Forms.opened, hp, Lexeme.placed, Lexeme.placed_append, Forms.source_grouped, hspell]
      · simp [hc] at hk
    · simp [ho] at hk
  | sequence hf hs =>
    obtain ⟨f, hb, hl, hw, hp⟩ := h.exists_forms hf
    refine ⟨f, hb, hl, hw, fun n => ?_⟩
    rw [← hp n, Forms.opened_eq_grouped]
    intro v hv hk
    have h0 := hp 0
    rw [hv] at h0
    obtain ⟨u, rfl, hu⟩ := Lexeme.exists_of_placed_eq_singleton h0.symm
    exact hs u rfl (hu.trans hk)

theorem wordsOf_of_ofText {src tail : Text} {f : Forms} (h : Forms.ofText src = .ok (f, tail)) :
    wordsOf src = .ok (f.lexemes.map word) := by
  rw [wordsOf, Forms.ofText_eq_ok h]
  rfl

theorem ofText_of_legible {f : Forms} {r : Text} (hf : f.Balanced) (hl : Legible f.lexemes r)
    (hr : ∀ c ∈ r, isBlank c = true) :
    Forms.ofText (spell f.lexemes ++ r) = .ok (f.placed 0, r) := by
  refine Forms.ofText_eq_ok_iff.2 ⟨?_, Forms.balanced_placed.2 hf, ?_, hr, ?_⟩
  · rw [Forms.lexemes_placed, Lexeme.spell_placed]
  · rw [Forms.lexemes_placed]
    exact Lexeme.legible_placed.2 hl
  · rw [Forms.lexemes_placed, Lexeme.placed_placed]

namespace Passage

/-- **A document has a reading** without brackets at its top, which holds its words. -/
theorem reading_of_ofDocument {src : Text} {p : Passage} (h : ofDocument src = .ok p) :
    ∃ ws, wordsOf src = .ok ws ∧ Reading p.lexemes p.tail ws ∧ BracketFree p.lexemes ∧
      (∀ c ∈ p.tail, isBlank c = true) ∧ Lexeme.placed 0 p.lexemes = p.lexemes := by
  obtain ⟨f, hf, e⟩ := exists_of_ofDocument h
  obtain ⟨-, hb, hl, ht, hp⟩ := Forms.ofText_eq_ok_iff.1 hf
  refine ⟨_, wordsOf_of_ofText hf, e ▸ reading_grouped hb hl, e ▸ bracketFree_grouped hb, ht, ?_⟩
  rw [e, ← Forms.grouped_placed, Forms.placed_eq_self hb hp]

theorem ofDocument_of_reading {us : List Lexeme} {r : Text} {ws : List Word} (h : Reading us r ws)
    (hf : BracketFree us) (hr : ∀ c ∈ r, isBlank c = true) :
    ofDocument (spell us ++ r) = .ok ⟨Lexeme.placed 0 us, r⟩ ∧
      wordsOf (spell us ++ r) = .ok ws := by
  obtain ⟨f, hb, hl, rfl, hp⟩ := h.exists_forms hf
  have htext := ofText_of_legible hb hl hr
  rw [← Forms.spell_lexemes_eq hp]
  constructor
  · simp only [ofDocument, htext, bind, Except.bind, pure, Except.pure, Forms.grouped_placed, hp]
  · rw [wordsOf_of_ofText htext, Forms.lexemes_placed, Lexeme.map_word_placed]

/-- **An expression has a reading** of its shape, which holds its words. -/
theorem reading_of_ofExpression {src : Text} {p : Passage} (h : ofExpression src = .ok p) :
    ∃ ws, wordsOf src = .ok ws ∧ Reading p.lexemes p.tail ws ∧ IsExpression p.lexemes ∧
      (∀ c ∈ p.tail, isBlank c = true) ∧ Lexeme.placed 0 p.lexemes = p.lexemes := by
  obtain ⟨f, hf, e⟩ := exists_of_ofExpression h
  obtain ⟨-, hb, hl, ht, hp⟩ := Forms.ofText_eq_ok_iff.1 hf
  have hshape := isExpression_opened hb (lexemes_ne_compound hl)
  refine ⟨_, wordsOf_of_ofText hf, e ▸ reading_opened hb hl, e ▸ hshape, ht, ?_⟩
  rw [e, ← Forms.opened_placed, Forms.placed_eq_self hb hp]

theorem ofExpression_of_reading {us : List Lexeme} {r : Text} {ws : List Word} (h : Reading us r ws)
    (he : IsExpression us) (hr : ∀ c ∈ r, isBlank c = true) :
    ofExpression (spell us ++ r) = .ok ⟨Lexeme.placed 0 us, r⟩ ∧
      wordsOf (spell us ++ r) = .ok ws := by
  obtain ⟨f, hb, hl, rfl, hp⟩ := h.exists_opened he
  have hspell : spell us = spell f.lexemes := by
    rw [← Forms.source_opened, ← Lexeme.spell_placed 0, ← hp, Lexeme.spell_placed]
  have htext := ofText_of_legible hb hl hr
  rw [hspell]
  constructor
  · simp only [ofExpression, htext, bind, Except.bind, pure, Except.pure, Forms.opened_placed, hp]
  · rw [wordsOf_of_ofText htext, Forms.lexemes_placed, Lexeme.map_word_placed]

end Passage

/-! ### lists -/

theorem ListReading.exists_reading {t : Text} {ws : List Word} (h : ListReading t ws) :
    ∃ o inner c, o.gap = [] ∧ o.kind = .openParen ∧ c.kind = .closeParen ∧
      closes o.text c.text = true ∧ BracketFree inner ∧ Reading (o :: (inner ++ [c])) [] ws ∧
        spell (o :: (inner ++ [c])) = t := by
  obtain @⟨inner, g, b, e, vs, hc, hg, hf, hi⟩ := h
  obtain ⟨b', e', hb', he', hbo, hbe⟩ := closes_cases hc
  cases hb'
  cases he'
  let o : Lexeme := ⟨⟨.openParen, [b], 0, 0⟩, []⟩
  let c : Lexeme := ⟨⟨.closeParen, [e], 0, 0⟩, g⟩
  have hcr : Reading [c] [] [c.word] :=
    .token ⟨hg, ⟨e, [], rfl, isBlank_of_isCloser hbe⟩, .closer hbe⟩ .nil
  have hrest : Reading (inner ++ [c]) [] (vs ++ [c.word]) :=
    Reading.append_iff.2 ⟨vs, [c.word], by simpa [Lexeme.source, c] using hi, hcr, rfl⟩
  refine ⟨o, inner, c, rfl, rfl, rfl, hc, hf, ?_, by simp [Lexeme.source, o, c]⟩
  exact .token ⟨by simp [o], ⟨b, [], rfl, isBlank_of_isOpener hbo⟩, .opener hbo⟩ hrest

theorem Reading.listReading {o c : Lexeme} {inner : List Lexeme} {ws : List Word}
    (hgap : o.gap = []) (ho : o.kind = .openParen) (hc : c.kind = .closeParen)
    (hcl : closes o.text c.text = true) (hf : BracketFree inner)
    (h : Reading (o :: (inner ++ [c])) [] ws) :
    ListReading (spell (o :: (inner ++ [c]))) ws := by
  rcases cons_cases h with ⟨ts, hso, hs, rfl⟩ | ⟨_, _, hk, _⟩
  · obtain ⟨ws₁, ws₂, h1, h2, rfl⟩ := append_iff.1 hs
    rcases cons_cases h2 with ⟨ts, hsc, hnil, rfl⟩ | ⟨_, _, hk, _⟩
    · cases hnil
      obtain ⟨b, e, hb, he, -, -⟩ := closes_cases hcl
      have hi : Reading inner (c.gap ++ [e]) ws₁ := by simpa [Lexeme.source, he] using h1
      have := ListReading.intro (hb ▸ he ▸ hcl) hsc.gap_blank hf hi
      simpa [Lexeme.source, hgap, hb, he, word, ho, hc] using this
    · simp [hc] at hk
  · simp [ho] at hk

end SexpLayout
