import Mathlib.Data.List.Chain
import Mathlib.Data.List.Forall2
import SexpLayout.Layout.LaidText
import SexpLayout.Proofs.Token.Follow

/-!
# Gaps and texts

The gaps of a layout do not depend on what is inside the lists of a form, and there is a choice of
gap between two tokens only where their kinds leave one.

* `Gap.Fits` — which gaps may stand between tokens of two kinds; `spaced_gaps` — a layout has no
  others, before and after its first line ends are folded;
* `Token.Alike` — tokens that differ in offsets and in what is inside lists; `gaps_congr` — layouts
  of alike tokens have the same gaps;
* `laidText_joined` — folding line ends by their offsets is folding them in the layout.
-/

namespace SexpLayout

open Lexer (OpensList)

/-- No two neighbours touch and make up `1-` or `1+`. -/
def Unsplit (ts : List Token) : Prop := ts.IsChain fun t next => Gap.isSplitStep t next = false

/-! ### the gaps that kinds allow -/

namespace Gap

/-- The gap may stand between tokens of the two kinds. -/
structure Fits (k next : Kind) (g : Gap) : Prop where
  /-- A comment ends its line, and this end is never folded. -/
  ends_line : k = .comment → g = .line
  /-- Only marks and brackets touch what follows, and only closing brackets what precedes. -/
  of_nothing : g = .nothing → clings k = true ∨ next = .closeParen
  /-- A mark touches what it belongs to. -/
  mark : k = .punctuation → next ≠ .closeParen → next ≠ .comment → g = .nothing

/-- The gaps, one behind each token, fit between tokens of the kinds, and nothing stands behind the
last one. -/
def Spaced : List Kind → List Gap → Prop
  | [], gs => gs = []
  | [_], gs => gs = [.nothing]
  | k :: next :: ks, gs => ∃ g gs', gs = g :: gs' ∧ Fits k next g ∧ Spaced (next :: ks) gs'

/-- A token of the kind may come in the phase. -/
def Phase.Admits : Phase → Kind → Prop
  | .free, _ => True
  | .half, _ => False
  | .value _, k => k ≠ .comment
  | .closing, k => k = .closeParen

theorem fits_afterFree {mode : Mode} {t next : Token} (hs : isSplitStep t next = false) :
    Fits t.kind next.kind (afterFree mode t next).1 ∧
      (afterFree mode t next).2.Admits next.kind := by
  unfold afterFree
  by_cases hk : t.kind = .comment
  · rw [if_pos hk]
    refine ⟨⟨fun _ => rfl, by simp, ?_⟩, trivial⟩
    simp [hk]
  rw [if_neg hk, if_neg (by simp [hs])]
  by_cases hc : (clings t.kind || next.kind = .closeParen) = true
  · rw [if_pos hc]
    refine ⟨⟨fun h => absurd h hk, fun _ => ?_, fun _ _ _ => rfl⟩, trivial⟩
    simpa using hc
  rw [if_neg hc]
  -- from here on the token does not cling, so it is no mark
  have hmark : t.kind ≠ .punctuation := by
    intro h
    simp [h, clings] at hc
  have fits : ∀ g : Gap, g ≠ .nothing → Fits t.kind next.kind g := fun g hg =>
    ⟨fun h => absurd h hk, fun h => absurd h hg, fun h => absurd h hmark⟩
  split
  · next hd =>
    exact ⟨fits _ (by simp), by simpa [Phase.Admits] using (by simpa using hd : _ ∧ _).2⟩
  split
  · next hkey =>
    exact ⟨fits _ (by simp), by simpa [Phase.Admits] using (by simpa using hkey : _ ∧ _).2⟩
  · exact ⟨fits _ (by cases mode <;> simp [separator]), trivial⟩

theorem fits_afterValue {mode : Mode} {pair : Pair} {t next : Token} (hk : t.kind ≠ .comment) :
    Fits t.kind next.kind (afterValue mode pair t next).1 ∧
      (afterValue mode pair t next).2.Admits next.kind := by
  unfold afterValue
  by_cases h : (t.kind = .punctuation && next.kind ≠ .closeParen && next.kind ≠ .comment) = true
  · rw [if_pos h]
    simp only [Bool.and_eq_true, decide_eq_true_eq, ne_eq, decide_not, Bool.not_eq_true',
      decide_eq_false_iff_not] at h
    exact ⟨⟨fun e => absurd e hk, fun _ => .inl (by simp [clings, h.1.1]), fun _ _ _ => rfl⟩, h.2⟩
  rw [if_neg h]
  have hmark : t.kind = .punctuation → next.kind ≠ .closeParen → next.kind = .comment := by
    intro h1 h2
    by_contra h3
    simp [h1, h2, h3] at h
  have fits : ∀ g : Gap, (g = .nothing → next.kind = .closeParen) →
      Fits t.kind next.kind g := fun g hg =>
    ⟨fun e => absurd e hk, fun e => .inr (hg e), fun h1 h2 h3 => absurd (hmark h1 h2) h3⟩
  cases pair with
  | dotted =>
    refine ⟨fits _ ?_, trivial⟩
    cases mode <;> simp [separator]
  | keyword =>
    by_cases hn : next.kind = .closeParen
    · simpa [hn, Phase.Admits] using fits .nothing fun _ => hn
    · simpa [hn, Phase.Admits] using fits .line (by simp)

/-- **One step of a layout**: the gap fits, and the next token may come in the next phase. -/
theorem fits_after (mode : Mode) {phase : Phase} {t next : Token} (ts : List Token)
    (hs : isSplitStep t next = false) (hp : phase.Admits t.kind) :
    Fits t.kind next.kind (after mode phase t (next :: ts)).1 ∧
      (after mode phase t (next :: ts)).2.Admits next.kind := by
  cases phase with
  | free => exact fits_afterFree hs
  | half => exact hp.elim
  | value pair => exact fits_afterValue hp
  | closing =>
    have hk : t.kind = .closeParen := hp
    refine ⟨⟨?_, fun _ => .inl (by simp [clings, hk]), fun _ _ _ => rfl⟩, trivial⟩
    simp [hk]

theorem Fits.fold {k next : Kind} (h : Fits k next .soft) : Fits k next .space where
  ends_line e := nomatch h.ends_line e
  of_nothing e := nomatch e
  mark e h1 h2 := nomatch h.mark e h1 h2

end Gap

namespace Layout

open Gap (Spaced)

/-- **All gaps of a layout fit.** -/
theorem spaced_cellsFrom {mode : Mode} {phase : Gap.Phase} {ts : List Token} (hs : Unsplit ts)
    (hp : ∀ t ∈ ts.head?, phase.Admits t.kind) :
    Spaced (ts.map Token.kind) ((cellsFrom mode phase ts).map Cell.gap) := by
  induction ts generalizing phase with
  | nil => rfl
  | cons t ts ih =>
    cases ts with
    | nil => rfl
    | cons next ts =>
      obtain ⟨hsplit, hs⟩ := List.isChain_cons_cons.1 hs
      obtain ⟨hfit, hnext⟩ := Gap.fits_after mode ts hsplit (hp t rfl)
      exact ⟨_, _, rfl, hfit, ih hs (by simpa using hnext)⟩

theorem spaced_fold {ks : List Kind} {cells : List Cell} (n : Nat)
    (h : Spaced ks (cells.map Cell.gap)) :
    Spaced ks ((fold n cells).map Cell.gap) := by
  fun_induction fold n cells generalizing ks with
  | case1 cells => exact h
  | case2 => exact h
  | case3 n c cells hc ih =>
    rcases ks with _ | ⟨k, _ | ⟨next, ks⟩⟩
    · simp [Spaced] at h
    · simp [Spaced, hc] at h
    · obtain ⟨g, gs, e, hfit, hs⟩ := h
      simp only [List.map_cons, hc, List.cons.injEq] at e
      obtain ⟨rfl, rfl⟩ := e
      exact ⟨_, _, rfl, hfit.fold, ih hs⟩
  | case4 n c cells hc ih =>
    rcases ks with _ | ⟨k, _ | ⟨next, ks⟩⟩
    · simp [Spaced] at h
    · simp only [Spaced, List.map_cons, List.cons.injEq, List.map_eq_nil_iff] at h
      obtain ⟨hg, rfl⟩ := h
      simp [Spaced, hg, fold]
    · obtain ⟨g, gs, e, hfit, hs⟩ := h
      simp only [List.map_cons, List.cons.injEq] at e
      obtain ⟨rfl, rfl⟩ := e
      exact ⟨_, _, rfl, hfit, ih hs⟩

theorem exists_fold_cons (n : Nat) (c : Cell) (cs : List Cell) :
    ∃ m g, fold n (c :: cs) = ⟨c.text, g⟩ :: fold m cs ∧
      (g = c.gap ∨ c.gap = .soft ∧ g = .space) := by
  cases n with
  | zero => exact ⟨0, c.gap, by rw [fold, fold], .inl rfl⟩
  | succ n =>
    by_cases hc : c.gap = .soft
    · exact ⟨n, .space, by rw [fold, if_pos hc], .inr ⟨hc, rfl⟩⟩
    · exact ⟨n + 1, c.gap, by rw [fold, if_neg hc], .inl rfl⟩

def gaps (table : SkipTable) (arity : Arity) (l : Layout) : List Gap :=
  (fold (foldCount table arity l.head l.second l.context) l.cells).map Cell.gap

theorem spaced_gaps (mode : Mode) (context : Option Bool) (table : SkipTable) (arity : Arity)
    {ts : List Token} (hs : Unsplit ts) :
    Spaced (ts.map Token.kind) ((ofTokens mode context table ts).gaps table arity) := by
  refine spaced_fold _ ?_
  cases ts with
  | nil => rfl
  | cons t ts => exact spaced_cellsFrom hs (by simp [Gap.Phase.Admits])

/-! ### texts and gaps -/

theorem map_text_cellsFrom (mode : Mode) (phase : Gap.Phase) (ts : List Token) :
    (cellsFrom mode phase ts).map Cell.text = ts.map Token.text := by
  induction ts generalizing phase with
  | nil => rfl
  | cons t ts ih => simp [cellsFrom, ih]

theorem map_text_fold (n : Nat) (cells : List Cell) :
    (fold n cells).map Cell.text = cells.map Cell.text := by
  fun_induction fold n cells <;> simp_all

theorem cells_ofTokens (mode : Mode) (context : Option Bool) (table : SkipTable) (ts : List Token) :
    (ofTokens mode context table ts).cells = cellsFrom (effectiveMode mode ts) .free ts := by
  cases ts with
  | nil => rfl
  | cons t ts => rfl

theorem map_text_cells (mode : Mode) (context : Option Bool) (table : SkipTable) (ts : List Token) :
    (ofTokens mode context table ts).cells.map Cell.text = ts.map Token.text := by
  rw [cells_ofTokens, map_text_cellsFrom]

theorem joined_ofTokens (mode : Mode) (context : Option Bool) (table : SkipTable) (arity : Arity)
    (ts : List Token) :
    (ofTokens mode context table ts).joined table arity =
      Cell.spell (List.zipWith Cell.mk (ts.map Token.text)
        ((ofTokens mode context table ts).gaps table arity)) := by
  have key : ∀ cells : List Cell,
      cells = List.zipWith Cell.mk (cells.map Cell.text) (cells.map Cell.gap) := by
    intro cells
    induction cells with
    | nil => rfl
    | cons c cells ih => simp [← ih]
  rw [joined, key (fold _ _), map_text_fold, map_text_cells]
  rfl

end Layout

/-! ### alike tokens -/

/-- The tokens differ in their offsets only, or in what is inside a list. -/
structure Token.Alike (t u : Token) : Prop where
  kind : t.kind = u.kind
  text : t.kind ≠ .compound → t.text = u.text
  opens : t.kind = .compound → OpensList t.text ∧ OpensList u.text

namespace Token.Alike

variable {t u : Token}

theorem text_eq_dot (h : Alike t u) : t.text = ['.'] ↔ u.text = ['.'] := by
  by_cases hk : t.kind = .compound
  · obtain ⟨h1, h2⟩ := h.opens hk
    constructor
    · intro e
      simp [e, OpensList, Lexer.isOpener] at h1
    · intro e
      simp [e, OpensList, Lexer.isOpener] at h2
  · rw [h.text hk]

end Token.Alike

namespace Gap

open Token (Alike)

theorem afterFree_congr {mode : Mode} {t u next next' : Token} (h : Alike t u)
    (hn : Alike next next') (hs : isSplitStep t next = isSplitStep u next') :
    afterFree mode t next = afterFree mode u next' := by
  have hkey : t.kind = .symbol → isKeyword t.text = isKeyword u.text := by
    intro hk
    rw [h.text (by simp [hk])]
  have hdot := h.text_eq_dot
  by_cases hk : u.kind = .symbol
  · have hkey := hkey (h.kind.trans hk)
    simp only [afterFree, h.kind, hn.kind, hs, hdot, hkey]
  · simp [afterFree, h.kind, hn.kind, hs, hdot, hk]

theorem after_congr (mode : Mode) (phase : Phase) {t u : Token} {ts us : List Token} (h : Alike t u)
    (hts : List.Forall₂ Alike ts us) (ht : Unsplit (t :: ts)) (hu : Unsplit (u :: us)) :
    after mode phase t ts = after mode phase u us := by
  cases hts with
  | nil => rfl
  | cons hn hts =>
    have hst := (List.isChain_cons_cons.1 ht).1
    have hsu := (List.isChain_cons_cons.1 hu).1
    cases phase with
    | free => exact afterFree_congr h hn (hst.trans hsu.symm)
    | half => simp only [after, hn.kind]
    | value pair => simp only [after, afterValue, h.kind, hn.kind]
    | closing => rfl

end Gap

namespace Layout

open Token (Alike)

theorem map_gap_cellsFrom_congr {mode : Mode} {phase : Gap.Phase} {ts us : List Token}
    (h : List.Forall₂ Alike ts us) (ht : Unsplit ts) (hu : Unsplit us) :
    (cellsFrom mode phase ts).map Cell.gap = (cellsFrom mode phase us).map Cell.gap := by
  induction h generalizing phase with
  | nil => rfl
  | cons h hs ih =>
    have e := Gap.after_congr mode phase h hs ht hu
    simp only [cellsFrom, List.map_cons, e]
    rw [ih ht.tail hu.tail]

theorem map_gap_fold_congr (n : Nat) {cells cells' : List Cell}
    (h : cells.map Cell.gap = cells'.map Cell.gap) :
    (fold n cells).map Cell.gap = (fold n cells').map Cell.gap := by
  fun_induction fold n cells generalizing cells' with
  | case1 cells => simpa [fold] using h
  | case2 n =>
    obtain rfl : cells' = [] := by simpa using h.symm
    rfl
  | case3 n c cells hc ih =>
    obtain ⟨c', cells', rfl, hc', h⟩ := List.map_eq_cons_iff.1 h.symm
    simp [fold, hc', hc, ih h.symm]
  | case4 n c cells hc ih =>
    obtain ⟨c', cells', rfl, hc', h⟩ := List.map_eq_cons_iff.1 h.symm
    simp [fold, hc', hc, ih h.symm]

section Alike

variable {ts us : List Token} (h : List.Forall₂ Alike ts us)
include h

theorem effectiveMode_congr (mode : Mode) : effectiveMode mode ts = effectiveMode mode us := by
  have hany : (ts.any fun t => t.kind = .compound) = us.any fun t => t.kind = .compound := by
    induction h with
    | nil => rfl
    | cons h hs ih => simp only [List.any_cons, h.kind, ih]
  rw [effectiveMode, effectiveMode, hany]

theorem headToken_alike : (headToken ts = none ∧ headToken us = none) ∨
    ∃ t u, headToken ts = some t ∧ headToken us = some u ∧ Alike t u := by
  rcases h with _ | ⟨h1, _ | ⟨h2, _ | ⟨h3, h⟩⟩⟩
  · exact .inl ⟨rfl, rfl⟩
  · exact .inl ⟨rfl, rfl⟩
  · exact .inl ⟨rfl, rfl⟩
  · next o o' t u _ _ _ _ =>
    simp only [headToken, h1.kind]
    by_cases ho : o'.kind = .openParen
    · exact .inr ⟨t, u, by simp [ho], by simp [ho], h2⟩
    · exact .inl ⟨by simp [ho], by simp [ho]⟩

theorem headName_congr : headName ts = headName us := by
  rcases headToken_alike h with ⟨h1, h2⟩ | ⟨t, u, h1, h2, ha⟩
  · simp [headName, h1, h2]
  · by_cases hk : t.kind = .compound
    · simp [headName, h1, h2, hk, ← ha.kind]
    · simp [headName, h1, h2, ha.text hk, ← ha.kind]

theorem secondKind_congr : secondKind ts = secondKind us := by
  rcases h with _ | ⟨h1, _ | ⟨h2, _ | ⟨h3, h⟩⟩⟩
  · rfl
  · rfl
  · rfl
  · simp only [secondKind, h1.kind, h3.kind]

theorem newlineContext_congr (table : SkipTable) :
    newlineContext table ts = newlineContext table us := by
  rcases headToken_alike h with ⟨h1, h2⟩ | ⟨t, u, h1, h2, ha⟩
  · simp [newlineContext, h1, h2]
  · by_cases hk : t.kind = .compound
    · simp [newlineContext, h1, h2, hk, ← ha.kind]
    · simp [newlineContext, h1, h2, ha.text hk, ha.kind]

/-- **Layouts of alike tokens have the same gaps.** -/
theorem gaps_congr (mode : Mode) (context : Option Bool) (table : SkipTable) (arity : Arity)
    (ht : Unsplit ts) (hu : Unsplit us) :
    (ofTokens mode context table ts).gaps table arity =
      (ofTokens mode context table us).gaps table arity := by
  cases h with
  | nil => rfl
  | cons h1 h =>
    have h := List.Forall₂.cons h1 h
    simp only [ofTokens, List.isEmpty_cons, Bool.false_eq_true, if_false, gaps, headName_congr h,
      secondKind_congr h, newlineContext_congr h, effectiveMode_congr h]
    exact map_gap_fold_congr _ (map_gap_cellsFrom_congr h ht hu)

end Alike

/-! ### folding by offsets -/

theorem gap_ne_soft_of_mem_cellsFrom {phase : Gap.Phase} {ts : List Token} {c : Cell}
    (h : c ∈ cellsFrom .oneLine phase ts) : c.gap ≠ .soft := by
  induction ts generalizing phase with
  | nil => simp [cellsFrom] at h
  | cons t ts ih =>
    rcases List.mem_cons.1 h with rfl | h
    · cases ts with
      | nil => simp [Gap.after]
      | cons next ts =>
        cases phase with
        | free =>
          simp only [Gap.after, Gap.afterFree, Gap.separator]
          split_ifs <;> simp
        | half =>
          simp only [Gap.after]
          split_ifs <;> simp
        | value pair =>
          simp only [Gap.after, Gap.afterValue, Gap.separator]
          cases pair <;> split_ifs <;> simp
        | closing => simp [Gap.after]
    · exact ih h

theorem fold_of_ne_soft {cells : List Cell} (h : ∀ c ∈ cells, c.gap ≠ .soft) (n : Nat) :
    fold n cells = cells := by
  fun_induction fold n cells <;> simp_all

theorem replaceAt?_length (a b : Text) (c d : Char) :
    Text.replaceAt? (a ++ c :: b) (Int.ofNat a.length) d = some (a ++ d :: b) := by
  have hneg : ¬ (Int.ofNat a.length < 0) := by simp
  have hin : (decide (0 ≤ Int.ofNat a.length) &&
      decide (Int.ofNat a.length < ((a ++ c :: b).length : Int))) = true := by
    simp only [List.length_append, List.length_cons, Int.ofNat_eq_natCast, Bool.and_eq_true,
      decide_eq_true_eq]
    omega
  simp only [Text.replaceAt?, if_neg hneg]
  rw [if_pos hin]
  simp

theorem foldAt_breaksFrom (n : Nat) (done : Text) (cells : List Cell) :
    LaidText.foldAt (done ++ Cell.spell cells)
      (((breaksFrom done.length cells).take n).map Int.ofNat) =
      .ok (done ++ Cell.spell (fold n cells)) := by
  fun_induction fold n cells generalizing done with
  | case1 cells => rfl
  | case2 n => simp [breaksFrom, LaidText.foldAt]
  | case3 n c cells hc ih =>
    have hspell : done ++ Cell.spell (c :: cells) =
        (done ++ c.text) ++ '\n' :: Cell.spell cells := by
      simp [Cell.spell, hc, Gap.text]
    have hih := ih (done ++ c.text ++ [' '])
    have hstop : done.length + c.text.length = (done ++ c.text).length := by simp
    have hnext : (done ++ c.text).length + Gap.soft.text.length =
        (done ++ c.text ++ [' ']).length := by
      simp only [Gap.text, List.length_append, List.length_singleton]
    simp only [breaksFrom, hc, if_true, List.take_succ_cons, List.map_cons, LaidText.foldAt,
      hspell, hstop, hnext, replaceAt?_length]
    simpa [Cell.spell, Gap.text] using hih
  | case4 n c cells hc ih =>
    have hih := ih (done ++ c.text ++ c.gap.text)
    have hnext : done.length + c.text.length + c.gap.text.length =
        (done ++ c.text ++ c.gap.text).length := by
      simp [Nat.add_assoc]
    simp only [breaksFrom, hc, if_false, hnext]
    simpa [Cell.spell] using hih

/-- **Folding line ends by their offsets** is folding them in the layout. -/
theorem laidText_joined (mode : Mode) (context : Option Bool) (known table : SkipTable)
    (arity : Arity) (ts : List Token) :
    (ofTokens mode context known ts).laidText.joined table arity =
      .ok ((ofTokens mode context known ts).joined table arity) := by
  -- on one line no gap is soft
  have hone : (ofTokens mode context known ts).mode = .oneLine →
      ∀ c ∈ (ofTokens mode context known ts).cells, c.gap ≠ .soft := by
    cases ts with
    | nil => simp [ofTokens]
    | cons t ts =>
      intro hmode c hc
      simp only [ofTokens, List.isEmpty_cons, Bool.false_eq_true, if_false] at hmode hc
      rw [hmode] at hc
      exact gap_ne_soft_of_mem_cellsFrom hc
  generalize ofTokens mode context known ts = l at hone
  cases hmode : l.mode with
  | oneLine => simp [LaidText.joined, laidText, hmode, joined, text, fold_of_ne_soft (hone hmode)]
  | multiLine =>
    simp only [LaidText.joined, laidText, hmode, if_true, joined, ← List.map_take]
    exact foldAt_breaksFrom _ [] l.cells

end Layout

end SexpLayout
