import SexpLayout.Proofs.Forms.Respaced

/-!
# Splices

A `,` and an atom behind it that starts with an `@` are read as the mark `,@` and the rest of the
atom, once they are put together.  The rest is read as marks and an atom.  It ends where the atom
ended, unless it is a character literal without its character, which then takes the next one.

* `Lexer.opensLiteral` — the text ends in the middle of a character literal; `SpliceSafe` — no such
  text is behind a `,` and an `@`;
* `exists_legible_of_splitAtom` — how the rest of an atom is read;
* `Splicing` — lexemes that are read but for such pairs; `Splicing.exists_reading` — how they are
  read;
* `Reading.splicing`, `Reading.exists_respaced` — a list with other gaps is read so, if it is safe.
-/

namespace SexpLayout

open Lexer (isOpener isCloser isDelimiter splitAtom splitLiteral splitMark? EndsAtom Cut)
open Lexeme (spell spell_cons spell_append Legible word)
open Gap (Spaced)

/-- The text is some marks and a `?`: a character literal without its character. -/
def Lexer.opensLiteral : Text → Bool
  | ['?'] => true
  | ',' :: '@' :: cs => opensLiteral cs
  | '#' :: '\x27' :: cs => opensLiteral cs
  | c :: cs => (c = '\x27' || c = '\x60' || c = ',') && opensLiteral cs
  | [] => false

open Lexer (opensLiteral)

/-- No `,` is directly followed by an `@` with an open character literal behind it. -/
def SpliceSafe (ws : List Word) : Prop :=
  ws.IsChain fun v w => v.2 = [','] → w.2.head? = some '@' → opensLiteral w.2.tail = false

instance (ws : List Word) : Decidable (SpliceSafe ws) :=
  inferInstanceAs (Decidable (ws.IsChain fun v w => v.2 = [','] → w.2.head? = some '@' →
    opensLiteral w.2.tail = false))

theorem SpliceSafe.of_isInfix {vs ws : List Word} (h : SpliceSafe ws) (hin : vs <:+: ws) :
    SpliceSafe vs :=
  List.IsChain.infix h hin

theorem SpliceFree.spliceSafe {ws : List Word} (h : SpliceFree ws) : SpliceSafe ws :=
  h.imp fun _ _ hfree hcomma hat => absurd hat (hfree hcomma)

/-! ### the rest of an atom -/

def Lexeme.IsPlain (l : Lexeme) : Prop :=
  l.kind ≠ .openParen ∧ l.kind ≠ .closeParen ∧ l.kind ≠ .compound

theorem isPlain_atomKind (t y : Text) (l : Lexeme) (h : l.kind = Lexer.atomKind t y) :
    l.IsPlain := by
  unfold Lexeme.IsPlain
  rw [h]
  unfold Lexer.atomKind
  split_ifs <;> simp

theorem stands_mark {t y gap : Text} (h : splitMark? (t ++ y) = some (t, y))
    (hg : ∀ c ∈ gap, isBlank c = true) :
    Lexeme.Stands ⟨⟨.punctuation, t, 0, 0⟩, gap⟩ y := by
  refine ⟨hg, ?_, .mark h⟩
  obtain rfl | rfl | ⟨c, rfl, hc, -⟩ := Lexer.splitMark?_cases h
  · exact ⟨_, _, rfl, by decide⟩
  · exact ⟨_, _, rfl, by decide⟩
  · refine ⟨c, [], rfl, ?_⟩
    rcases hc with rfl | rfl | rfl <;> decide

theorem splitAtom_tail {c : Char} {s y : Text} (h : splitAtom (c :: (s ++ y)) = (c :: s, y))
    (hc : c ≠ '\\') :
    splitAtom (s ++ y) = (s, y) := by
  rw [Lexer.splitAtom_cons hc] at h
  split at h
  · simp at h
  · simp only [Prod.mk.injEq, List.cons.injEq, true_and] at h
    exact Prod.ext h.1 h.2

theorem isBlank_of_splitAtom {c : Char} {s y : Text} (h : splitAtom (c :: (s ++ y)) = (c :: s, y)) :
    isBlank c = false ∧ isDelimiter c = false := by
  by_cases hc : c = '\\'
  · subst hc
    decide
  · rw [Lexer.splitAtom_cons hc] at h
    split at h
    · simp at h
    · next hd =>
      simpa using hd

/-- An atom is one from its first character on, unless it is an open character literal. -/
theorem splitLiteral_of_splitAtom {c : Char} {s y : Text}
    (h : splitAtom (c :: (s ++ y)) = (c :: s, y)) (hopen : c :: s ≠ ['?']) :
    splitLiteral (c :: (s ++ y)) = (c :: s, y) := by
  by_cases hc : c = '?'
  · subst hc
    have h := splitAtom_tail h (by decide)
    cases s with
    | nil => exact absurd rfl hopen
    | cons d s =>
      by_cases hd : d = '\\'
      · subst hd
        cases s with
        | nil =>
          cases y with
          | nil => rfl
          | cons e y => simp [splitAtom] at h
        | cons e s =>
          simp only [List.cons_append, splitAtom, splitLiteral, Prod.mk.injEq, List.cons.injEq,
            true_and] at h ⊢
          exact h
      · have h := splitAtom_tail h hd
        simp only [List.cons_append, Lexer.splitLiteral_char hd, h]
  · rwa [Lexer.splitLiteral_of_ne hc]

/-- **The rest of an atom** is read as marks and an atom in front of the same text. -/
theorem exists_legible_of_splitAtom {s y : Text} (h : splitAtom (s ++ y) = (s, y))
    (hs : opensLiteral s = false) :
    ∃ xs : List Lexeme, spell xs = s ∧ Legible xs y ∧ ∀ x ∈ xs, x.IsPlain := by
  have hy : EndsAtom y := by
    have := Lexer.endsAtom_splitAtom (s ++ y)
    rwa [h] at this
  have hat : y.head? ≠ some '@' := by
    intro e
    have := hy '@' e
    revert this
    decide
  -- a mark, and then the rest of the rest
  have mark : ∀ {t s' : Text}, splitMark? (t ++ (s' ++ y)) = some (t, s' ++ y) →
      (∃ xs : List Lexeme, spell xs = s' ∧ Legible xs y ∧ ∀ x ∈ xs, x.IsPlain) →
      ∃ xs : List Lexeme, spell xs = t ++ s' ∧ Legible xs y ∧ ∀ x ∈ xs, x.IsPlain := by
    rintro t s' hm ⟨xs, rfl, hxs, hplain⟩
    refine ⟨⟨⟨.punctuation, t, 0, 0⟩, []⟩ :: xs, rfl, ⟨stands_mark hm (by simp), hxs⟩, ?_⟩
    intro x hx
    rcases List.mem_cons.1 hx with rfl | hx
    · simp [Lexeme.IsPlain]
    · exact hplain x hx
  fun_induction opensLiteral s with
  | case1 => simp at hs
  | case2 cs ih =>
    exact mark (t := [',', '@']) rfl
      (ih (splitAtom_tail (splitAtom_tail h (by decide)) (by decide)) hs)
  | case3 cs ih =>
    exact mark (t := ['#', '\x27']) rfl
      (ih (splitAtom_tail (splitAtom_tail h (by decide)) (by decide)) hs)
  | case4 c cs hopen hsplice hquote ih =>
    by_cases hc : c = '\x27' ∨ c = '\x60' ∨ c = ','
    · refine mark (t := [c]) (Lexer.splitMark?_singleton hc ?_) (ih (splitAtom_tail h ?_) ?_)
      · intro hcomma
        cases cs with
        | nil => exact hat
        | cons d cs =>
          intro hd
          exact hsplice cs hcomma (by simpa using hd)
      · rcases hc with rfl | rfl | rfl <;> decide
      · rcases hc with rfl | rfl | rfl <;> simpa using hs
    · have hm : splitMark? ((c :: cs) ++ []) = none := by
        rw [List.append_nil, splitMark?, if_neg (by simpa [or_assoc] using hc)]
        · exact hsplice
        · exact hquote
      have hlit :=
        splitLiteral_of_splitAtom h fun e => hopen (List.cons.inj e).1 (List.cons.inj e).2
      obtain ⟨hb, hd⟩ := isBlank_of_splitAtom h
      have hst : Lexeme.Stands ⟨⟨Lexer.atomKind (c :: cs) y, c :: cs, 0, 0⟩, []⟩ y :=
        ⟨by simp, ⟨c, cs, rfl, hb⟩, .atom hd (Lexer.splitMark?_append_eq_none hm (by simp) hy) hlit⟩
      refine ⟨[_], ?_, ⟨hst, trivial⟩, ?_⟩
      · simp [Lexeme.source]
      · intro x hx
        obtain rfl := List.mem_singleton.1 hx
        exact isPlain_atomKind _ _ _ rfl
  | case5 => exact ⟨[], rfl, trivial, by simp⟩

/-! ### readings with splices -/

/-- The lexemes are read in front of the text, except that a `,` may touch an atom that starts with
an `@` and is safe. -/
inductive Splicing : List Lexeme → Text → Prop
  | nil {y : Text} : Splicing [] y
  | token {l : Lexeme} {ls : List Lexeme} {y : Text} (h : l.Stands (spell ls ++ y))
      (hs : Splicing ls y) :
      Splicing (l :: ls) y
  | list {l : Lexeme} {ls : List Lexeme} {y : Text} {vs : List Word} (hk : l.kind = .compound)
      (hgap : ∀ c ∈ l.gap, isBlank c = true) (h : ListReading l.text vs) (hs : Splicing ls y) :
        Splicing (l :: ls) y
  | splice {l m : Lexeme} {ls : List Lexeme} {s y : Text} (hl : l.text = [','])
      (hgap : ∀ c ∈ l.gap, isBlank c = true)
      (hm : m.gap = []) (ht : m.text = '@' :: s) (hsafe : opensLiteral s = false)
        (h : m.Stands (spell ls ++ y))
      (hs : Splicing ls y) : Splicing (l :: m :: ls) y

theorem Lexeme.Stands.atom_of_at {m : Lexeme} {s y : Text} (h : m.Stands y)
    (ht : m.text = '@' :: s) :
    m.kind = Lexer.atomKind m.text y ∧ splitAtom (s ++ y) = (s, y) := by
  have hcut := h.cut
  rw [ht] at hcut ⊢
  generalize m.kind = k at hcut ⊢
  cases hcut with
  | opener hc => exact absurd hc (by decide)
  | closer hc => exact absurd hc (by decide)
  | mark h => simp [splitMark?] at h
  | atom hd hm h =>
    rw [Lexer.splitLiteral_of_ne (by decide)] at h
    exact ⟨rfl, splitAtom_tail h (by decide)⟩

theorem Reading.of_legible {ls : List Lexeme} {y : Text} (h : Legible ls y) :
    Reading ls y (ls.map word) := by
  induction ls with
  | nil => exact .nil
  | cons l ls ih => exact .token h.1 (ih h.2)

/-- **How splices are read**: the brackets and the lists stay. -/
theorem Splicing.exists_reading {ls : List Lexeme} {y : Text} (h : Splicing ls y) :
    ∃ vs ws, spell vs = spell ls ∧ Reading vs y ws ∧
      ∀ v ∈ vs, v.IsPlain ∨ ∃ l ∈ ls, l.kind = v.kind ∧ l.text = v.text := by
  -- a lexeme that stays
  have keep : ∀ {l : Lexeme} {ls vs : List Lexeme},
      (∀ v ∈ vs, v.IsPlain ∨ ∃ m ∈ ls, m.kind = v.kind ∧ m.text = v.text) →
      ∀ v ∈ l :: vs, v.IsPlain ∨ ∃ m ∈ l :: ls, m.kind = v.kind ∧ m.text = v.text := by
    intro l ls vs h v hv
    rcases List.mem_cons.1 hv with rfl | hv
    · exact .inr ⟨v, by simp, rfl, rfl⟩
    · rcases h v hv with hp | ⟨m, hm, he⟩
      · exact .inl hp
      · exact .inr ⟨m, by simp [hm], he⟩
  induction h with
  | nil => exact ⟨[], [], rfl, .nil, by simp⟩
  | @token l ls y h hs ih =>
    obtain ⟨vs, ws, hspell, hread, hmem⟩ := ih
    exact ⟨l :: vs, _, by simp [hspell], .token (hspell ▸ h) hread, keep hmem⟩
  | @list l ls y us hk hgap h hs ih =>
    obtain ⟨vs, ws, hspell, hread, hmem⟩ := ih
    exact ⟨l :: vs, _, by simp [hspell], .of_list hk hgap h hread, keep hmem⟩
  | @splice l m ls s y hl hgap hm ht hsafe h hs ih =>
    obtain ⟨vs, ws, hspell, hread, hmem⟩ := ih
    obtain ⟨xs, rfl, hxs, hplain⟩ := exists_legible_of_splitAtom (h.atom_of_at ht).2 hsafe
    rw [← hspell] at hxs
    have hmark : Lexeme.Stands ⟨⟨.punctuation, [',', '@'], 0, 0⟩, l.gap⟩ (spell (xs ++ vs) ++ y) :=
      stands_mark rfl hgap
    refine ⟨_ :: (xs ++ vs), _, ?_,
      .token hmark (Reading.append_iff.2 ⟨_, _, .of_legible hxs, hread, rfl⟩), ?_⟩
    · simp [Lexeme.source, hl, hm, ht, hspell]
    · intro v hv
      rcases List.mem_cons.1 hv with rfl | hv
      · exact .inl (by simp [Lexeme.IsPlain])
      rcases List.mem_append.1 hv with hv | hv
      · exact .inl (hplain v hv)
      · rcases hmem v hv with hp | ⟨n, hn, he⟩
        · exact .inl hp
        · exact .inr ⟨n, by simp [hn], he⟩

/-! ### other gaps -/

theorem Reading.atom_of_at {m : Lexeme} {ms : List Lexeme} {r s : Text} {ws : List Word}
    (h : Reading (m :: ms) r ws) (ht : m.text = '@' :: s) :
    m.kind ≠ .closeParen ∧ m.kind ≠ .comment ∧ ∃ us, ws = m.word :: us := by
  rcases h.cons_cases with ⟨us, hst, -, rfl⟩ | ⟨vs, us, -, -, hlist, -, -⟩
  · rw [(hst.atom_of_at ht).1]
    unfold Lexer.atomKind
    refine ⟨?_, ?_, us, rfl⟩ <;> split_ifs <;> simp
  · have hopen := hlist.opensList
    simp [Lexer.OpensList, ht, isOpener] at hopen

theorem Lexeme.Stands.kind_of_comma {l : Lexeme} {y : Text} (h : l.Stands y) (ht : l.text = [',']) :
    l.kind = .punctuation := by
  have hcut := h.cut
  rw [ht] at hcut
  generalize l.kind = k at hcut ⊢
  cases hcut with
  | opener hc => exact absurd hc (by decide)
  | closer hc => exact absurd hc (by decide)
  | mark h => rfl
  | atom hd hm h => exact absurd hm (Lexer.splitMark?_ne_none (by simp) _)

theorem Splicing.cons_splice {l m : Lexeme} {ls : List Lexeme} {s y lead : Text}
    (hl : l.text = [',']) (hlead : ∀ c ∈ lead, isBlank c = true) (ht : m.text = '@' :: s)
    (hsafe : opensLiteral s = false) (h : Splicing ({ m with gap := [] } :: ls) y) :
    Splicing ({ l with gap := lead } :: { m with gap := [] } :: ls) y := by
  cases h with
  | token h hs => exact .splice hl hlead rfl ht hsafe h hs
  | list hk hgap h hs =>
    have hopen := h.opensList
    simp [Lexer.OpensList, ht, isOpener] at hopen
  | splice hm => simp [ht] at hm

/-- **A safe list with other gaps** that fit is read in front of its closing bracket, but for its
splices. -/
theorem Reading.splicing {us : List Lexeme} {c : Lexeme} {r : Text} {ws : List Word}
    (h : Reading (us ++ [c]) r ws) (hc : c.kind = .closeParen) (hs : SpliceSafe ws) {gs : List Gap}
    (hg : Spaced ((us ++ [c]).map fun u => u.kind) gs) {lead : Text}
    (hl : ∀ d ∈ lead, isBlank d = true) :
    ∃ g, (∀ d ∈ g, isBlank d = true) ∧
      spell (Lexeme.spaced lead (us ++ [c]) gs) =
        spell (Lexeme.spaced lead us gs) ++ (g ++ c.text) ∧
      Splicing (Lexeme.spaced lead us gs) (g ++ c.text) := by
  induction us generalizing ws gs lead with
  | nil => exact ⟨lead, hl, by simp [Lexeme.spaced, Lexeme.source], .nil⟩
  | cons l us ih =>
    obtain ⟨m, ms, hm⟩ : ∃ m ms, us ++ [c] = m :: ms := List.exists_cons_of_ne_nil (by simp)
    rw [List.cons_append, List.map_cons, hm] at hg
    obtain ⟨g₀, gs, rfl, hfit, hg⟩ := hg
    have hg : Spaced ((us ++ [c]).map fun u => u.kind) gs := by rwa [hm]
    have hblank : ∀ d ∈ g₀.text, isBlank d = true := fun d hd => isBlank_of_mem_gap_text hd
    rcases h.cons_cases with ⟨ts, hst, hls, rfl⟩ | ⟨vs, ts, hk, -, hlist, hls, rfl⟩
    · obtain ⟨g, hgb, hspell, hsplicing⟩ := ih hls hs.tail hg hblank
      refine ⟨g, hgb, by simp [Lexeme.spaced, hspell], ?_⟩
      rw [List.append_eq, hm] at hst hls
      by_cases hsplice : l.text = [','] → m.text.head? ≠ some '@'
      · refine .token (Lexeme.Stands.with_gap ?_ hl) hsplicing
        change l.Stands (spell (Lexeme.spaced g₀.text us gs) ++ (g ++ c.text))
        rw [← hspell, hm]
        simpa [Lexeme.spaced, Lexeme.source] using hst.spaced hls hsplice hfit _
      · obtain ⟨hcomma, hat⟩ := Classical.not_imp.1 hsplice
        obtain ⟨s, ht⟩ := List.head?_eq_some_iff.1 (Classical.not_not.1 hat)
        obtain ⟨hclose, hcomment, ts, rfl⟩ := hls.atom_of_at ht
        have hsafe := (List.isChain_cons_cons.1 hs).1 hcomma (by simp [word, ht])
        rw [show m.word.2 = '@' :: s from ht, List.tail_cons] at hsafe
        -- the atom is not the closing bracket, and the `,` touches it
        obtain rfl : g₀ = .nothing := hfit.mark (hst.kind_of_comma hcomma) hclose hcomment
        cases us with
        | nil =>
          obtain ⟨rfl, -⟩ := List.cons.inj hm
          exact absurd hc hclose
        | cons u us =>
          obtain ⟨rfl, -⟩ := List.cons.inj hm
          exact hsplicing.cons_splice hcomma hl ht hsafe
    · obtain ⟨g, hgb, hspell, hsplicing⟩ := ih hls hs.right_of_append hg hblank
      exact ⟨g, hgb, by simp [Lexeme.spaced, hspell], .list hk hl hlist hsplicing⟩

/-- **A safe list with other gaps** that fit is a list, around the same lists. -/
theorem Reading.exists_respaced {o c : Lexeme} {inner : List Lexeme} {ws : List Word}
    (h : Reading (o :: (inner ++ [c])) [] ws) (ho : o.kind = .openParen) (hc : c.kind = .closeParen)
    (hf : BracketFree inner) (hs : SpliceSafe ws) {gs : List Gap}
    (hg : Spaced ((o :: (inner ++ [c])).map fun u => u.kind) gs) :
    ∃ inner' g vs, spell (Lexeme.spaced [] (o :: (inner ++ [c])) gs) =
        spell ({ o with gap := [] } :: (inner' ++ [{ c with gap := g }])) ∧
      Reading ({ o with gap := [] } :: (inner' ++ [{ c with gap := g }])) [] vs ∧
      BracketFree inner' ∧
      ∀ x ∈ inner', x.kind = .compound → ∃ l ∈ inner, l.kind = .compound ∧ l.text = x.text := by
  obtain ⟨m, ms, hm⟩ : ∃ m ms, inner ++ [c] = m :: ms := List.exists_cons_of_ne_nil (by simp)
  rw [List.map_cons, hm] at hg
  obtain ⟨g₀, gs, rfl, -, hg⟩ := hg
  have hg : Spaced ((inner ++ [c]).map fun u => u.kind) gs := by rwa [hm]
  rcases h.cons_cases with ⟨ts, hso, hrest, rfl⟩ | ⟨_, _, hk, _⟩
  · obtain ⟨g, hgb, hspell, hsplicing⟩ :=
      hrest.splicing hc hs.tail hg fun d hd => isBlank_of_mem_gap_text (g := g₀) hd
    obtain ⟨xs, us, hxs, hread, hmem⟩ := hsplicing.exists_reading
    obtain ⟨_, _, -, hlast, -⟩ := Reading.append_iff.1 hrest
    rcases hlast.cons_cases with ⟨_, hsc, -, -⟩ | ⟨_, _, hk, _⟩
    · have hlast : Reading [{ c with gap := g }] [] [c.word] := .token (hsc.with_gap hgb) .nil
      have hinner : Reading (xs ++ [{ c with gap := g }]) [] (us ++ [c.word]) :=
        Reading.append_iff.2 ⟨us, _, by simpa [Lexeme.source] using hread, hlast, rfl⟩
      have hstays : ∀ x ∈ xs, x.IsPlain ∨ ∃ l ∈ inner, l.kind = x.kind ∧ l.text = x.text := by
        intro x hx
        rcases hmem x hx with hp | ⟨l, hl, hkind, htext⟩
        · exact .inl hp
        · obtain ⟨m, hm, hkind', htext'⟩ :=
            Lexeme.exists_mem_of_map_word (Lexeme.map_word_spaced ..) hl
          exact .inr ⟨m, hm, hkind'.trans hkind, htext'.trans htext⟩
      refine ⟨xs, g, _, ?_, .token (Lexeme.Stands.with_gap ?_ (by simp)) hinner, ?_, ?_⟩
      · simp [Lexeme.spaced, Lexeme.source, hspell, hxs]
      · refine hso.of_follows ?_ (by rw [ho]; trivial)
        intro e
        obtain ⟨d, s, hd, -⟩ := hsc.inked
        simp [Lexeme.source, hd] at e
      · intro x hx
        rcases hstays x hx with hp | ⟨l, hl, hkind, -⟩
        · exact ⟨hp.1, hp.2.1⟩
        · exact hkind ▸ hf l hl
      · intro x hx hk
        rcases hstays x hx with hp | ⟨l, hl, hkind, htext⟩
        · exact absurd hk hp.2.2
        · exact ⟨l, hl, hkind.trans hk, htext⟩
    · simp [hc] at hk
  · simp [ho] at hk

end SexpLayout
