import SexpLayout.Proofs.Forms.Reading
import SexpLayout.Proofs.Layout.Gaps

/-!
# Readings with other blanks

What a reading holds does not change if its gaps are replaced by gaps that fit, nor if its lists are
replaced by lists with the same words.  The one exception is a `,` in front of a token that starts
with an `@`: put together, they are read as one mark.

* `SpliceFree` — no `,` is in front of such a token;
* `Reading.spaced`, `Reading.retext` — other gaps, and other blanks inside the lists;
* `Similar` — lexemes that agree up to blanks; `similar_of_ofExpression` — expressions with the same
  words have similar lexemes;
* `unsplit_of_reading` — the lexer leaves no `1-` or `1+` in two touching tokens.
-/

namespace SexpLayout

open Lexer (isOpener isCloser Follows OpensList EndsAtom)
open Lexeme (spell spell_cons spell_append Legible word)
open Forms (closes)
open Gap (Spaced Fits)

/-- No `,` is directly followed by a word that starts with an `@`. -/
def SpliceFree (ws : List Word) : Prop := ws.IsChain fun v w => v.2 = [','] → w.2.head? ≠ some '@'

instance (ws : List Word) : Decidable (SpliceFree ws) :=
  inferInstanceAs (Decidable (ws.IsChain fun v w => v.2 = [','] → w.2.head? ≠ some '@'))

theorem SpliceFree.of_isInfix {vs ws : List Word} (h : SpliceFree ws) (hin : vs <:+: ws) :
    SpliceFree vs :=
  List.IsChain.infix h hin

/-! ### lists and first characters -/

theorem ListReading.exists_cons {t : Text} {ws : List Word} (h : ListReading t ws) :
    ∃ b s vs, t = b :: s ∧ isOpener b = true ∧ ws = (.openParen, [b]) :: vs := by
  obtain ⟨hc, -, -, -⟩ := h
  obtain ⟨b, e, hb, -, ho, -⟩ := closes_cases hc
  cases hb
  exact ⟨_, _, _, rfl, ho, rfl⟩

theorem ListReading.opensList {t : Text} {ws : List Word} (h : ListReading t ws) : OpensList t := by
  obtain ⟨b, s, vs, rfl, hb, -⟩ := h.exists_cons
  simpa [OpensList] using hb

theorem ListReading.head?_eq {t t' : Text} {ws ws' : List Word} (h : ListReading t ws)
    (h' : ListReading t' ws') (hw : ws.head? = ws'.head?) : t.head? = t'.head? := by
  obtain ⟨b, s, vs, rfl, -, rfl⟩ := h.exists_cons
  obtain ⟨b', s', vs', rfl, -, rfl⟩ := h'.exists_cons
  simpa using hw

theorem Reading.exists_infix_of_mem {us : List Lexeme} {r : Text} {ws : List Word}
    (h : Reading us r ws) {u : Lexeme} (hu : u ∈ us) (hk : u.kind = .compound) :
    ∃ vs, ListReading u.text vs ∧ vs <:+: ws := by
  induction us generalizing ws with
  | nil => simp at hu
  | cons l ls ih =>
    rcases h.cons_cases with ⟨ts, hst, hls, rfl⟩ | ⟨vs, ts, -, -, hlist, hls, rfl⟩
    · rcases List.mem_cons.1 hu with rfl | hu
      · exact absurd hk hst.kind_ne_compound
      · obtain ⟨vs, hvs, hin⟩ := ih hls hu
        exact ⟨vs, hvs, List.infix_cons hin⟩
    · rcases List.mem_cons.1 hu with rfl | hu
      · exact ⟨vs, hlist, (List.prefix_append vs ts).isInfix⟩
      · obtain ⟨vs', hvs, hin⟩ := ih hls hu
        exact ⟨vs', hvs, hin.trans (List.suffix_append vs ts).isInfix⟩

/-- What the first character of a lexeme says about its kind. -/
structure HeadFits (l : Lexeme) (c : Char) : Prop where
  inked : isBlank c = false
  opener : isOpener c = true → l.kind ≠ .closeParen ∧ l.kind ≠ .comment
  closer : l.kind = .closeParen → isCloser c = true

theorem headFits_of_stands {l : Lexeme} {y : Text} (h : l.Stands y) :
    ∃ c s, l.text = c :: s ∧ HeadFits l c := by
  obtain ⟨c, s, e, hc⟩ := h.inked
  refine ⟨c, s, e, hc, ?_, ?_⟩
  · intro ho
    have hsplit := Lexer.split?_of_cut h.cut
    have hkind : l.kind = .openParen := by
      rw [e, List.cons_append, Lexer.split?, if_pos ho] at hsplit
      simp only [Option.some.injEq, Prod.mk.injEq] at hsplit
      exact hsplit.1.symm
    simp [hkind]
  · intro hk
    have hcut := h.cut
    rw [e] at hcut
    generalize l.kind = k at hk hcut
    cases hcut with
    | closer hc => exact hc
    | atom hd hm hs =>
      simp only [Lexer.atomKind] at hk
      split_ifs at hk
    | _ => cases hk

theorem Reading.exists_head {l : Lexeme} {ls : List Lexeme} {r : Text} {ws : List Word}
    (h : Reading (l :: ls) r ws) :
    ∃ c s, l.text = c :: s ∧ HeadFits l c ∧ (∀ d ∈ l.gap, isBlank d = true) ∧
      (c = '@' → ∃ us, ws = l.word :: us) := by
  rcases h.cons_cases with ⟨us, hl, -, rfl⟩ | ⟨vs, us, hk, hgap, hl, -, rfl⟩
  · obtain ⟨c, s, e, hc⟩ := headFits_of_stands hl
    exact ⟨c, s, e, hc, hl.gap_blank, fun _ => ⟨us, rfl⟩⟩
  · obtain ⟨b, s, -, e, hb, -⟩ := hl.exists_cons
    refine ⟨b, s, e, ⟨isBlank_of_isOpener hb, by simp [hk], by simp [hk]⟩, hgap, ?_⟩
    rintro rfl
    exact absurd hb (by decide)

/-! ### other gaps -/

/-- A gap that fits may stand behind a token in place of the one before. -/
theorem follows_gap {k : Kind} {t : Text} {m : Lexeme} {c : Char} {s z : Text} {g : Gap}
    (h : Follows k t (m.gap ++ (m.text ++ z))) (hm : ∀ d ∈ m.gap, isBlank d = true)
    (e : m.text = c :: s) (hc : HeadFits m c) (hsplice : t = [','] → c ≠ '@') (hg : Fits k m.kind g)
    (y : Text) :
    Follows k t (g.text ++ (m.text ++ y)) := by
  -- the mark of a list touches the list
  have hmark : k = .punctuation → ¬ Lexer.IsMark t → OpensList m.text ∧ g = .nothing := by
    intro hk hn
    subst hk
    obtain ⟨hmark, -⟩ | ⟨-, ho⟩ := h
    · exact absurd hmark hn
    · have hnil : m.gap = [] := by
        cases hgap : m.gap with
        | nil => rfl
        | cons d ds =>
          have hd := hm d (by simp [hgap])
          have hd' : isOpener d = true := by simpa [OpensList, hgap] using ho
          rw [isBlank_of_isOpener hd'] at hd
          cases hd
      have hopen : isOpener c = true := by simpa [OpensList, hnil, e] using ho
      obtain ⟨h1, h2⟩ := hc.opener hopen
      exact ⟨by simpa [OpensList, e] using hopen, hg.mark rfl h1 h2⟩
  by_cases hnothing : g = .nothing
  · subst hnothing
    -- an atom touches a closing bracket only
    have hend : Gap.clings k = false → EndsAtom (m.text ++ y) ∧ ¬ OpensList (m.text ++ y) := by
      intro hk
      obtain hk' | hclose := hg.of_nothing rfl
      · simp [hk] at hk'
      · have hcl := hc.closer hclose
        have ho : isOpener c = false := by
          simp only [isCloser, Bool.or_eq_true, decide_eq_true_eq] at hcl
          obtain rfl | rfl := hcl <;> rfl
        simp [EndsAtom, OpensList, e, Lexer.isDelimiter, hcl, ho]
    have hat : t = [','] → (m.text ++ y).head? ≠ some '@' := by
      intro ht
      simpa [e] using hsplice ht
    have hopens : OpensList m.text → OpensList (m.text ++ y) := by simp [OpensList, e]
    cases k with
    | openParen => trivial
    | closeParen => trivial
    | string => trivial
    | compound => trivial
    | comment => cases hg.ends_line rfl
    | symbol => exact ⟨(hend rfl).1, fun _ => (hend rfl).2⟩
    | number => exact (hend rfl).1
    | other => exact (hend rfl).1
    | punctuation =>
      by_cases hn : Lexer.IsMark t
      · exact .inl ⟨hn, hat⟩
      · exact .inr ⟨hn, hopens (hmark rfl hn).1⟩
  · have hblank : (∀ d ∈ g.text, isBlank d = true) ∧ g.text ≠ [] := by
      cases g <;> simp [Gap.text] at hnothing ⊢
    refine (Lexer.follows_append_iff hblank.1 hblank.2 _).2 ⟨?_, ?_⟩
    · intro hk
      rw [hg.ends_line hk]
      exact Lexer.endsLine_append (by simp [Gap.text]) (by simp [Gap.text]) _
    · intro hk
      by_contra hn
      exact hnothing (hmark hk hn).2

theorem follows_nil {k : Kind} {t r : Text} (h : Follows k t r) (hr : ∀ c ∈ r, isBlank c = true) :
    Follows k t [] := by
  cases k with
  | openParen | closeParen | string | compound => trivial
  | comment => simp [Follows, Lexer.EndsLine]
  | symbol => simp [Follows, EndsAtom, OpensList]
  | number | other => simp [Follows, EndsAtom]
  | punctuation =>
    obtain ⟨hm, -⟩ | ⟨-, ho⟩ := h
    · exact .inl ⟨hm, by simp⟩
    · cases r with
      | nil => simp [OpensList] at ho
      | cons c r =>
        have hc := hr c (by simp)
        rw [isBlank_of_isOpener (by simpa [OpensList] using ho)] at hc
        cases hc

namespace Lexeme

/-- The lexemes with other gaps: `lead` in front of the first one, and then the gap behind each
one. -/
def spaced (lead : Text) : List Lexeme → List Gap → List Lexeme
  | [], _ => []
  | l :: ls, gs => { l with gap := lead } :: spaced (gs.headD .nothing).text ls gs.tail

theorem Stands.with_gap {l : Lexeme} {y lead : Text} (h : l.Stands y)
    (hl : ∀ c ∈ lead, isBlank c = true) :
    Stands { l with gap := lead } y := ⟨hl, h.inked, h.cut⟩

theorem map_word_spaced (lead : Text) (ls : List Lexeme) (gs : List Gap) :
    (spaced lead ls gs).map word = ls.map word := by
  induction ls generalizing lead gs with
  | nil => rfl
  | cons l ls ih =>
    rw [spaced, List.map_cons, ih]
    rfl

end Lexeme

theorem isBlank_of_mem_gap_text {g : Gap} {c : Char} (h : c ∈ g.text) : isBlank c = true := by
  cases g <;> simp [Gap.text] at h <;> simp [h]

/-- A token stays one if the gap behind it is replaced by one that fits, unless it is a `,` in front
of an `@`. -/
theorem Lexeme.Stands.spaced {l m : Lexeme} {ms : List Lexeme} {r : Text} {us : List Word} {g : Gap}
    (h : l.Stands (spell (m :: ms) ++ r)) (hms : Reading (m :: ms) r us)
    (hsplice : l.text = [','] → m.text.head? ≠ some '@') (hg : Fits l.kind m.kind g) (y : Text) :
    l.Stands (g.text ++ (m.text ++ y)) := by
  obtain ⟨c, s, hc, hhead, hgap, -⟩ := hms.exists_head
  have hfollow : Follows l.kind l.text (m.gap ++ (m.text ++ (spell ms ++ r))) := by
    simpa [Lexeme.source] using Lexer.follows_of_cut h.cut
  refine h.of_follows (fun e => ?_)
    (follows_gap hfollow hgap hc hhead (by simpa [hc] using hsplice) hg y)
  simp [Lexeme.source, hc] at e

theorem SpliceFree.of_reading {us : List Lexeme} {r : Text} {ws : List Word} (hs : SpliceFree ws)
    (h : Reading us r ws) : SpliceFree (us.map word) := by
  induction us generalizing ws with
  | nil => exact .nil
  | cons l ls ih =>
    rcases h.cons_cases with ⟨us, hst, hls, rfl⟩ | ⟨vs, us, -, -, hlist, hls, rfl⟩
    · have hrest := ih hs.tail hls
      cases ls with
      | nil => exact .singleton _
      | cons m ms =>
        refine .cons_cons ?_ hrest
        intro hcomma hat
        obtain ⟨c, s, hc, -, -, hword⟩ := hls.exists_head
        have hmat : m.text.head? = some '@' := hat
        obtain ⟨vs, rfl⟩ := hword (by simpa [hc] using hmat)
        exact (List.isChain_cons_cons.1 hs).1 hcomma hat
    · have hrest := ih hs.right_of_append hls
      cases ls with
      | nil => exact .singleton _
      | cons m ms =>
        refine .cons_cons ?_ hrest
        intro hcomma
        -- a list starts with a bracket
        have hopen := hlist.opensList
        rw [show l.text = [','] from hcomma] at hopen
        simp [OpensList, isOpener] at hopen

/-- **Other gaps that fit do not change what is read**, unless there is a splice at the top. -/
theorem Reading.spaced {us : List Lexeme} {r : Text} {ws : List Word} (h : Reading us r ws)
    (hr : ∀ c ∈ r, isBlank c = true) (hs : SpliceFree (us.map word)) {gs : List Gap}
    (hg : Spaced (us.map fun u => u.kind) gs) {lead : Text} (hl : ∀ c ∈ lead, isBlank c = true) :
    Reading (Lexeme.spaced lead us gs) [] ws := by
  induction us generalizing ws gs lead with
  | nil =>
    cases h
    exact .nil
  | cons l ls ih =>
    -- the gaps behind the first lexeme fit as well
    have hrest : Spaced (ls.map fun u => u.kind) gs.tail := by
      cases ls with
      | nil => simp [show gs = [.nothing] from hg, Spaced]
      | cons m ms =>
        obtain ⟨g, gs, rfl, -, hg⟩ := hg
        exact hg
    have hblank : ∀ c ∈ (gs.headD .nothing).text, isBlank c = true :=
      fun c hc => isBlank_of_mem_gap_text hc
    rcases h.cons_cases with ⟨us, hst, hls, rfl⟩ | ⟨vs, us, hk, -, hlist, hls, rfl⟩
    · refine .token (Lexeme.Stands.with_gap ?_ hl) (ih hls hs.tail hrest hblank)
      cases ls with
      | nil => exact hst.of_follows (fun _ => rfl) (follows_nil (Lexer.follows_of_cut hst.cut) hr)
      | cons m ms =>
        obtain ⟨g, gs, rfl, hfit, -⟩ := hg
        have hsplice : l.text = [','] → m.text.head? ≠ some '@' := (List.isChain_cons_cons.1 hs).1
        simpa [Lexeme.spaced, Lexeme.source] using hst.spaced hls hsplice hfit _
    · exact .of_list hk hl hlist (ih hls hs.tail hrest hblank)

/-! ### other blanks inside the lists -/

/-- The lexeme with another text if it is a list. -/
def Lexeme.retext (f : Lexeme → Text) (l : Lexeme) : Lexeme :=
  if l.kind = .compound then { l with text := f l } else l

namespace Lexeme

variable (f : Lexeme → Text)

@[simp] theorem retext_kind (l : Lexeme) : (l.retext f).kind = l.kind := by
  unfold retext
  split <;> rfl

@[simp] theorem retext_gap (l : Lexeme) : (l.retext f).gap = l.gap := by
  unfold retext
  split <;> rfl

theorem retext_text (l : Lexeme) :
    (l.retext f).text = if l.kind = .compound then f l else l.text := by
  unfold retext
  split <;> rfl

theorem retext_of_ne {l : Lexeme} (h : l.kind ≠ .compound) : l.retext f = l := if_neg h

end Lexeme

/-- A token stays one if lists behind it are replaced by lists that open in the same way: only what
stands up to the first inked character of the next lexeme matters. -/
theorem Lexeme.Stands.retext {l : Lexeme} {ls : List Lexeme} {r : Text} {us : List Word}
    (h : l.Stands (spell ls ++ r)) (hls : Reading ls r us) {f : Lexeme → Text}
    (hf : ∀ u ∈ ls, u.kind = .compound → (f u).head? = u.text.head?) :
    l.Stands (spell (ls.map (Lexeme.retext f)) ++ r) := by
  cases ls with
  | nil => exact h
  | cons m ms =>
    obtain ⟨c, s, hc, hhead, -, -⟩ := hls.exists_head
    obtain ⟨s', hc'⟩ : ∃ s', (m.retext f).text = c :: s' := by
      rw [Lexeme.retext_text]
      split
      · next hk =>
        exact List.head?_eq_some_iff.1 ((hf m (by simp) hk).trans (by simp [hc]))
      · exact ⟨s, hc⟩
    have h' : l.Stands ((m.gap ++ [c]) ++ (s ++ (spell ms ++ r))) := by
      simpa [Lexeme.source, hc] using h
    have :=
      h'.append_congr ⟨c, by simp, hhead.inked⟩ (s' ++ (spell (ms.map (Lexeme.retext f)) ++ r))
    simpa [Lexeme.source, hc'] using this

/-- **Lists with the same words may be put in place of lists.** -/
theorem Reading.retext {us : List Lexeme} {r : Text} {ws : List Word} (h : Reading us r ws)
    {f : Lexeme → Text}
    (hf : ∀ u ∈ us, u.kind = .compound → ∀ vs, ListReading u.text vs → ListReading (f u) vs) :
    Reading (us.map (Lexeme.retext f)) r ws := by
  induction us generalizing ws with
  | nil => exact h
  | cons l ls ih =>
    have hrest : ∀ u ∈ ls, u.kind = .compound → ∀ vs, ListReading u.text vs →
        ListReading (f u) vs :=
      fun u hu => hf u (by simp [hu])
    rw [List.map_cons]
    rcases h.cons_cases with ⟨us, hst, hls, rfl⟩ | ⟨vs, us, hk, hgap, hlist, hls, rfl⟩
    · rw [Lexeme.retext_of_ne f hst.kind_ne_compound]
      refine .token (hst.retext hls fun u hu hk => ?_) (ih hls hrest)
      obtain ⟨vs, hvs, -⟩ := hls.exists_infix_of_mem hu hk
      exact (hrest u hu hk vs hvs).head?_eq hvs rfl
    · refine .of_list (by simpa using hk) (by simpa using hgap) ?_ (ih hls hrest)
      rw [Lexeme.retext_text, if_pos hk]
      exact hf l (by simp) hk vs hlist

/-- Lists that open in the same way may be put in place of lists, but the words are others then. -/
theorem Reading.exists_retext {us : List Lexeme} {r : Text} {ws : List Word} (h : Reading us r ws)
    {f : Lexeme → Text}
    (hf : ∀ u ∈ us, u.kind = .compound → (∃ vs, ListReading (f u) vs) ∧
      (f u).head? = u.text.head?) :
    ∃ vs, Reading (us.map (Lexeme.retext f)) r vs := by
  induction us generalizing ws with
  | nil => exact ⟨ws, h⟩
  | cons l ls ih =>
    have hrest : ∀ u ∈ ls, u.kind = .compound → (∃ vs, ListReading (f u) vs) ∧
        (f u).head? = u.text.head? :=
      fun u hu => hf u (by simp [hu])
    rw [List.map_cons]
    rcases h.cons_cases with ⟨us, hst, hls, rfl⟩ | ⟨vs, us, hk, hgap, hlist, hls, rfl⟩
    · obtain ⟨vs, hvs⟩ := ih hls hrest
      rw [Lexeme.retext_of_ne f hst.kind_ne_compound]
      exact ⟨_, .token (hst.retext hls fun u hu hk => (hrest u hu hk).2) hvs⟩
    · obtain ⟨vs, hvs⟩ := ih hls hrest
      obtain ⟨us, hus⟩ := (hf l (by simp) hk).1
      have hlist' : ListReading (l.retext f).text us := by rwa [Lexeme.retext_text, if_pos hk]
      exact ⟨_, .of_list (by simpa using hk) (by simpa using hgap) hlist' hvs⟩

/-! ### shapes -/

/-- The lexemes have one kind, and one text unless they are lists. -/
structure SameShape (u v : Lexeme) : Prop where
  kind : u.kind = v.kind
  text : u.kind ≠ .compound → u.text = v.text

theorem forall₂_sameShape_placed (offset : Nat) (us : List Lexeme) :
    List.Forall₂ SameShape us (Lexeme.placed offset us) := by
  induction us generalizing offset with
  | nil => exact .nil
  | cons u us ih => exact .cons ⟨rfl, fun _ => rfl⟩ (ih _)

theorem forall₂_sameShape_spaced (lead : Text) (us : List Lexeme) (gs : List Gap) :
    List.Forall₂ SameShape us (Lexeme.spaced lead us gs) := by
  induction us generalizing lead gs with
  | nil => exact .nil
  | cons u us ih => exact .cons ⟨rfl, fun _ => rfl⟩ (ih _ _)

theorem forall₂_sameShape_retext (f : Lexeme → Text) (us : List Lexeme) :
    List.Forall₂ SameShape us (us.map (Lexeme.retext f)) := by
  refine List.forall₂_map_right_iff.2 (List.forall₂_same.2 fun u _ => ⟨by simp, fun hk => ?_⟩)
  rw [Lexeme.retext_of_ne f hk]

theorem BracketFree.of_sameShape {us vs : List Lexeme} (h : List.Forall₂ SameShape us vs)
    (hf : BracketFree us) :
    BracketFree vs := by
  induction h with
  | nil => simp [BracketFree]
  | cons h _ ih =>
    intro v hv
    rcases List.mem_cons.1 hv with rfl | hv
    · rw [← h.kind]
      exact hf _ (by simp)
    · exact ih (fun u hu => hf u (by simp [hu])) v hv

theorem exists_of_sameShape {o c : Lexeme} {inner vs : List Lexeme}
    (h : List.Forall₂ SameShape (o :: (inner ++ [c])) vs) (ho : o.kind = .openParen)
    (hc : c.kind = .closeParen) (hcl : closes o.text c.text = true) (hf : BracketFree inner) :
    ∃ o' inner' c', vs = o' :: (inner' ++ [c']) ∧ o'.kind = .openParen ∧ c'.kind = .closeParen ∧
      closes o'.text c'.text = true ∧ BracketFree inner' := by
  obtain ⟨o', vs, hoo, hvs, rfl⟩ := List.forall₂_cons_left_iff.1 h
  have htake := List.forall₂_take inner.length hvs
  have hdrop := List.forall₂_drop inner.length hvs
  rw [List.take_left] at htake
  rw [List.drop_left] at hdrop
  obtain ⟨c', ds, hcc, hnil, hd⟩ := List.forall₂_cons_left_iff.1 hdrop
  cases hnil
  refine ⟨o', vs.take inner.length, c', ?_, hoo.kind ▸ ho, hcc.kind ▸ hc, ?_, hf.of_sameShape htake⟩
  · rw [← hd, List.take_append_drop]
  · rwa [← hoo.text (by simp [ho]), ← hcc.text (by simp [hc])]

theorem IsExpression.of_sameShape {us vs : List Lexeme} (h : List.Forall₂ SameShape us vs)
    (he : IsExpression us) :
    IsExpression vs := by
  cases he with
  | list ho hc hcl hf =>
    obtain ⟨o', inner', c', rfl, ho', hc', hcl', hf'⟩ := exists_of_sameShape h ho hc hcl hf
    exact .list ho' hc' hcl' hf'
  | sequence hf hs =>
    refine .sequence (hf.of_sameShape h) ?_
    rintro v rfl
    obtain ⟨u, us, huv, hnil, rfl⟩ := List.forall₂_cons_right_iff.1 h
    cases hnil
    rw [← huv.kind]
    exact hs u rfl

/-! ### similar lexemes -/

/-- The lexemes agree up to blanks: they have one shape, and as lists they have the same words. -/
structure Similar (u v : Lexeme) : Prop extends SameShape u v where
  words : u.kind = .compound → ∃ vs, ListReading u.text vs ∧ ListReading v.text vs

theorem similar_grouped {f g : Forms} {r s : Text} (h : f.map Forms.bare = g.map Forms.bare)
    (hf : f.Balanced) (hg : g.Balanced) (hr : Legible f.lexemes r) (hs : Legible g.lexemes s) :
    List.Forall₂ Similar f.grouped g.grouped := by
  induction f generalizing g with
  | nil =>
    cases g with
    | nil => exact .nil
    | _ => simp [Forms.map] at h
  | atom x f ih =>
    cases g with
    | atom y g =>
      simp only [Forms.map, Forms.atom.injEq, Forms.bare_eq_bare_iff, word, Prod.mk.injEq] at h
      refine .cons ⟨⟨h.1.1, fun _ => h.1.2⟩, ?_⟩ (ih h.2 hf.2 hg.2 hr.2 hs.2)
      exact fun hk => absurd hk hr.1.kind_ne_compound
    | _ => simp [Forms.map] at h
  | list o inner c f ihi ihr =>
    cases g with
    | list o' inner' c' g =>
      simp only [Forms.map, Forms.list.injEq, Forms.bare_eq_bare_iff] at h
      obtain ⟨ho, hi, hc, hrest⟩ := h
      have hrest :=
        ihr hrest hf.2.2 hg.2.2 (Lexeme.legible_append.1 hr.2).2.2
          (Lexeme.legible_append.1 hs.2).2.2
      refine .cons ⟨⟨rfl, fun hk => absurd rfl hk⟩, fun _ => ?_⟩ hrest
      have h1 := listReading_compound hf.1 (bracketFree_grouped hf.2.1) hr fun _ =>
        reading_grouped hf.2.1
      have h2 := listReading_compound hg.1 (bracketFree_grouped hg.2.1) hs fun _ =>
        reading_grouped hg.2.1
      rw [← ho, ← hc, ← Forms.words_eq_of_map_bare hi] at h2
      exact ⟨_, h1, h2⟩
    | _ => simp [Forms.map] at h

theorem similar_opened {f g : Forms} {r s : Text} (h : f.map Forms.bare = g.map Forms.bare)
    (hf : f.Balanced) (hg : g.Balanced) (hr : Legible f.lexemes r) (hs : Legible g.lexemes s) :
    List.Forall₂ Similar f.opened g.opened := by
  have hgrouped := similar_grouped h hf hg hr hs
  have token : ∀ {l m : Lexeme}, l.word = m.word → l.kind ≠ .compound → Similar l m := by
    intro l m e hk
    simp only [word, Prod.mk.injEq] at e
    exact ⟨⟨e.1, fun _ => e.2⟩, fun hk' => absurd hk' hk⟩
  cases f with
  | nil =>
    cases g with
    | nil => exact hgrouped
    | _ => simp [Forms.map] at h
  | atom x f =>
    cases g with
    | atom y g => exact hgrouped
    | _ => simp [Forms.map] at h
  | list o inner c f =>
    cases g with
    | list o' inner' c' g =>
      simp only [Forms.map, Forms.list.injEq, Forms.bare_eq_bare_iff] at h
      obtain ⟨ho, hi, hc, hrest⟩ := h
      -- both lists stand alone, or neither does
      cases f with
      | nil =>
        cases g with
        | nil =>
          have hinner := similar_grouped hi hf.2.1 hg.2.1 (Lexeme.legible_append.1 hr.2).1
            (Lexeme.legible_append.1 hs.2).1
          refine .cons (token ho (by simp [hf.1.1]))
            (List.rel_append hinner (.cons (token hc ?_) .nil))
          simp [hf.1.2.1]
        | _ => simp [Forms.map] at hrest
      | atom x f =>
        cases g with
        | atom y g => exact hgrouped
        | _ => simp [Forms.map] at hrest
      | list o₁ inner₁ c₁ f =>
        cases g with
        | list o₂ inner₂ c₂ g => exact hgrouped
        | _ => simp [Forms.map] at hrest
    | _ => simp [Forms.map] at h

/-- **Expressions with the same words agree up to blanks.** -/
theorem similar_of_ofExpression {a b : Text} {p q : Passage} (ha : Passage.ofExpression a = .ok p)
    (hb : Passage.ofExpression b = .ok q) (h : wordsOf a = wordsOf b) :
    List.Forall₂ Similar p.lexemes q.lexemes := by
  obtain ⟨f, hf, hp⟩ := Passage.exists_of_ofExpression ha
  obtain ⟨g, hg, hq⟩ := Passage.exists_of_ofExpression hb
  rw [wordsOf_of_ofText hf, wordsOf_of_ofText hg, Except.ok.injEq] at h
  obtain ⟨-, hbf, hlf, -⟩ := Forms.ofText_eq_ok_iff.1 hf
  obtain ⟨-, hbg, hlg, -⟩ := Forms.ofText_eq_ok_iff.1 hg
  rw [hp, hq]
  exact similar_opened (Forms.map_bare_eq_of_words hbf hbg h) hbf hbg hlf hlg

/-! ### steps in two tokens -/

theorem texts_of_isSplitStep {t next : Token} (h : Gap.isSplitStep t next = true) (ht : t.text ≠ [])
    (hn : next.text ≠ []) :
    t.stop = next.start ∧ t.text = ['1'] ∧ (next.text = ['-'] ∨ next.text = ['+']) := by
  simp only [Gap.isSplitStep, Bool.and_eq_true, Bool.or_eq_true, beq_iff_eq] at h
  obtain ⟨hstop, h⟩ := h
  obtain ⟨c, s, hc⟩ := List.exists_cons_of_ne_nil ht
  obtain ⟨d, z, hd⟩ := List.exists_cons_of_ne_nil hn
  rw [hc, hd] at h ⊢
  cases s with
  | nil =>
    simp only [List.cons_append, List.nil_append, List.cons.injEq] at h
    rcases h with ⟨rfl, rfl, rfl⟩ | ⟨rfl, rfl, rfl⟩
    · exact ⟨hstop, rfl, .inl rfl⟩
    · exact ⟨hstop, rfl, .inr rfl⟩
  | cons x s => simp at h

/-- A number does not end before a sign. -/
theorem not_stands_one {l : Lexeme} {c : Char} {y : Text} (hl : l.text = ['1'])
    (hc : c = '-' ∨ c = '+') :
    ¬ l.Stands (c :: y) := by
  intro h
  have hcut := h.cut
  rw [hl] at hcut
  generalize l.kind = k at hcut
  cases hcut with
  | opener h => cases h
  | closer h => cases h
  | mark h => simp [Lexer.splitMark?] at h
  | atom hd hm hs =>
    have hend := Lexer.endsAtom_splitLiteral ('1' :: ([] ++ c :: y))
    rw [hs] at hend
    have := hend c (by simp)
    revert this
    obtain rfl | rfl := hc <;> decide

/-- **The lexer leaves no `1-` or `1+` in two touching tokens.** -/
theorem unsplit_of_reading {us : List Lexeme} {r : Text} {ws : List Word} {offset : Nat}
    (h : Reading us r ws) (hp : Lexeme.placed offset us = us) :
    Unsplit (us.map Lexeme.toToken) := by
  induction us generalizing ws offset with
  | nil => exact .nil
  | cons l ls ih =>
    obtain ⟨hl, hls⟩ := List.cons.inj hp
    obtain ⟨vs, hread⟩ := h.exists_tail
    have hrest := ih hread hls
    cases ls with
    | nil => exact .singleton _
    | cons m ms =>
      refine .cons_cons ?_ hrest
      by_contra hsplit
      obtain ⟨c, s, hc, -⟩ := h.exists_head
      obtain ⟨d, z, hd, hhead, -⟩ := hread.exists_head
      obtain ⟨htouch, hone, hstep⟩ :=
        texts_of_isSplitStep (by simpa using hsplit) (by simp [hc]) (by simp [hd] : m.text ≠ [])
      -- tokens that touch have no gap between them
      have hgap : m.gap = [] := by
        have hm := (List.cons.inj hls).1
        have h1 : l.stop = offset + l.gap.length + l.text.length := by
          rw [← hl]
          rfl
        have h2 : m.start = offset + l.source.length + m.gap.length := by
          rw [← hm]
          rfl
        have hlen : l.source.length = l.gap.length + l.text.length := by simp [Lexeme.source]
        have hzero : m.gap.length = 0 := by
          have : l.stop = m.start := htouch
          omega
        exact List.length_eq_zero_iff.1 hzero
      rcases h.cons_cases with ⟨_, hst, -, -⟩ | ⟨_, _, -, -, hlist, -, -⟩
      · obtain ⟨e, he, hsign⟩ : ∃ e, m.text = [e] ∧ (e = '-' ∨ e = '+') := by
          rcases hstep with e | e
          · exact ⟨_, e, .inl rfl⟩
          · exact ⟨_, e, .inr rfl⟩
        refine not_stands_one hone hsign (y := spell ms ++ r) ?_
        simpa [Lexeme.source, hgap, he] using hst
      · have := hlist.opensList
        rw [show l.text = ['1'] from hone] at this
        simp [OpensList, isOpener] at this

theorem unsplit_retext {us : List Lexeme} (f : Lexeme → Text) (h : Unsplit (us.map Lexeme.toToken))
    (hne : ∀ u ∈ us, u.text ≠ []) (hf : ∀ u ∈ us, u.kind = .compound → OpensList (f u)) :
    Unsplit ((us.map (Lexeme.retext f)).map Lexeme.toToken) := by
  have hlist : ∀ u ∈ us, ∀ c, (u.retext f).text = [c] → isOpener c = false → u.retext f = u := by
    intro u hu c hc ho
    by_cases hk : u.kind = .compound
    · have hopen := hf u hu hk
      rw [Lexeme.retext_text, if_pos hk] at hc
      simp [OpensList, hc, ho] at hopen
    · exact Lexeme.retext_of_ne f hk
  have hne' : ∀ u ∈ us, (u.retext f).text ≠ [] := by
    intro u hu e
    rw [Lexeme.retext_text] at e
    split at e
    · next hk =>
      have hopen := hf u hu hk
      simp [OpensList, e] at hopen
    · exact hne u hu e
  unfold Unsplit at h ⊢
  rw [List.isChain_map] at h
  rw [List.map_map, List.isChain_map]
  refine h.imp_of_mem_imp ?_
  intro u v hu hv huv
  by_contra hsplit
  obtain ⟨-, h1, h2⟩ := texts_of_isSplitStep (by simpa using hsplit) (hne' u hu) (hne' v hv)
  have hu' := hlist u hu _ h1 (by decide)
  have hv' : v.retext f = v := by
    rcases h2 with h2 | h2
    · exact hlist v hv _ h2 (by decide)
    · exact hlist v hv _ h2 (by decide)
  simp [hu', hv', huv] at hsplit

end SexpLayout
