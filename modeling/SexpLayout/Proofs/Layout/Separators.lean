import SexpLayout.Proofs.Forms.Respaced

/-!
# Separators

What a layout writes between two neighbours is decided by their kinds, but for the choice between a
space and a line end.

* `Separates` — which separators the kinds of two neighbours leave;
* `Gap.Sets` — the same for the gaps of a layout, before and after its first line ends are folded,
  and `Gap.sets_after` — what one step of a layout sets;
* `Layout.isChain_spaced` — the lexemes of an expression, with the gaps of its layout, are
  separated.
-/

namespace SexpLayout

open Lexeme (spell)

/-- The gap may stand between neighbours of the two kinds, where `lines` says whether a line end may
take the place of a space.  Behind a mark in front of a comment there may also be nothing. -/
def Separates (lines : Bool) (k next : Kind) (gap : Text) : Prop :=
  if k = .comment then gap = ['\n']
  else if next = .closeParen ∨ k = .openParen ∨ (k = .punctuation ∧ next ≠ .comment) then gap = []
  else gap = [' '] ∨ (lines = true ∧ gap = ['\n']) ∨ (k = .punctuation ∧ gap = [])

instance (lines : Bool) (k next : Kind) (gap : Text) : Decidable (Separates lines k next gap) := by
  unfold Separates
  infer_instance

/-- The gap in front of the second lexeme separates it from the first one. -/
def Lexeme.Parted (lines : Bool) (l r : Lexeme) : Prop := Separates lines l.kind r.kind r.gap

/-! ### one step of a layout -/

namespace Gap

/-- The gap is one that a layout in the mode sets between tokens of the two kinds. -/
structure Sets (mode : Mode) (k next : Kind) (g : Gap) : Prop extends Fits k next g where
  /-- Nothing stands before a closing bracket, except the line end of a comment. -/
  closer : next = .closeParen → k ≠ .comment → g = .nothing
  /-- Nothing stands behind an opening bracket. -/
  opener : k = .openParen → g = .nothing
  /-- On one line only comments end the line. -/
  lines : g = .line ∨ g = .soft → k ≠ .comment → mode = .multiLine

/-- A token of the kind may come in the phase of a layout in the mode. -/
structure Phase.Suits (mode : Mode) (phase : Phase) (k : Kind) : Prop where
  admits : phase.Admits k
  opener : k = .openParen → phase = .free
  keyword : phase = .value .keyword → mode = .multiLine

theorem Phase.suits_free (mode : Mode) (k : Kind) : Phase.Suits mode .free k :=
  ⟨trivial, fun _ => rfl, nofun⟩

theorem Sets.fold {mode : Mode} {k next : Kind} (h : Sets mode k next .soft) :
    Sets mode k next .space where
  toFits := h.toFits.fold
  closer h1 h2 := nomatch h.closer h1 h2
  opener h1 := nomatch h.opener h1
  lines h1 _ := by simp at h1

theorem Sets.separates {mode : Mode} {k next : Kind} {g : Gap} (h : Sets mode k next g)
    (hk : k ≠ .closeParen) :
    Separates (mode = .multiLine) k next g.text := by
  unfold Separates
  by_cases hc : k = .comment
  · rw [if_pos hc, h.ends_line hc]
    rfl
  rw [if_neg hc]
  split
  · next hnothing =>
    have hg : g = .nothing := by
      by_cases hn : next = .closeParen
      · exact h.closer hn hc
      · rcases hnothing with hn' | ho | ⟨hm, hn'⟩
        · exact absurd hn' hn
        · exact h.opener ho
        · exact h.mark hm hn hn'
    rw [hg]
    rfl
  · next hsome =>
    cases g with
    | nothing =>
      -- a token that touches the next one and is no bracket is a mark
      have hcling := h.of_nothing rfl
      simp only [clings, Bool.or_eq_true, decide_eq_true_eq] at hcling
      exact .inr (.inr ⟨by grind, rfl⟩)
    | space => exact .inl rfl
    | line => exact .inr (.inl ⟨by simp [h.lines (.inl rfl) hc], rfl⟩)
    | soft => exact .inr (.inl ⟨by simp [h.lines (.inr rfl) hc], rfl⟩)

theorem sets_afterFree (mode : Mode) {t next : Token} (hs : isSplitStep t next = false)
    (hn : next.kind ≠ .openParen) :
    Sets mode t.kind next.kind (afterFree mode t next).1 ∧
      (afterFree mode t next).2.Suits mode next.kind := by
  have hfits : Fits t.kind next.kind (afterFree mode t next).1 ∧ _ := fits_afterFree hs
  refine ⟨⟨hfits.1, ?_, ?_, ?_⟩, ⟨hfits.2, fun h => absurd h hn, ?_⟩⟩
  · intro hc hk
    simp [afterFree, hk, hs, hc]
  · intro ho
    simp [afterFree, ho, hs, clings]
  · intro hg hk
    unfold afterFree at hg
    cases mode with
    | multiLine => rfl
    | oneLine =>
      -- neither a pair nor the separator of this mode ends the line
      simp only [if_neg hk, hs, separator] at hg
      grind
  · intro hv
    unfold afterFree at hv
    grind

theorem sets_afterValue {mode : Mode} {pair : Pair} {t next : Token}
    (hp : Phase.Suits mode (.value pair) t.kind) (hn : next.kind ≠ .openParen) :
    Sets mode t.kind next.kind (afterValue mode pair t next).1 ∧
      (afterValue mode pair t next).2.Suits mode next.kind := by
  have hfits : Fits t.kind next.kind (afterValue mode pair t next).1 ∧ _ :=
    fits_afterValue hp.admits
  refine ⟨⟨hfits.1, ?_, fun h => (nomatch hp.opener h), ?_⟩, ⟨hfits.2, fun h => absurd h hn, ?_⟩⟩
  · intro hc hk
    cases pair <;> simp [afterValue, hc]
  · intro hg hk
    cases pair with
    | dotted =>
      unfold afterValue at hg
      cases mode <;> grind [separator]
    | keyword => exact hp.keyword rfl
  · intro hv
    cases pair with
    | dotted =>
      unfold afterValue at hv
      grind
    | keyword => exact hp.keyword rfl

/-- **One step of a layout** sets a gap, and the next token may come in the next phase. -/
theorem sets_after (mode : Mode) {phase : Phase} {t next : Token} (ts : List Token)
    (hs : isSplitStep t next = false) (hp : phase.Suits mode t.kind) (ht : t.kind ≠ .closeParen)
    (hn : next.kind ≠ .openParen) :
    Sets mode t.kind next.kind (after mode phase t (next :: ts)).1 ∧
      (after mode phase t (next :: ts)).2.Suits mode next.kind := by
  cases phase with
  | free => exact sets_afterFree mode hs hn
  | half => exact hp.admits.elim
  | value pair => exact sets_afterValue hp hn
  | closing => exact absurd hp.admits ht

end Gap

/-! ### a whole layout -/

namespace Layout

theorem isChain_spaced (mode : Mode) {us : List Lexeme} (hs : Unsplit (us.map Lexeme.toToken))
    (hk : us.IsChain fun u v => u.kind ≠ .closeParen ∧ v.kind ≠ .openParen) {phase : Gap.Phase}
    (hp : ∀ u ∈ us.head?, phase.Suits mode u.kind) (n : Nat) (lead : Text) :
    (Lexeme.spaced lead us
      ((fold n (cellsFrom mode phase (us.map Lexeme.toToken))).map Cell.gap)).IsChain
      (Lexeme.Parted (mode = .multiLine)) := by
  induction us generalizing phase n lead with
  | nil => exact .nil
  | cons u us ih =>
    cases us with
    | nil => exact .singleton _
    | cons v us =>
      obtain ⟨hsplit, hs⟩ := List.isChain_cons_cons.1 hs
      obtain ⟨⟨hu, hv⟩, hk⟩ := List.isChain_cons_cons.1 hk
      obtain ⟨hsets, hsuits⟩ := Gap.sets_after mode (us.map Lexeme.toToken) hsplit (hp u rfl) hu hv
      have hcells : cellsFrom mode phase ((u :: v :: us).map Lexeme.toToken) =
          ⟨u.text, (Gap.after mode phase u.toToken (v.toToken :: us.map Lexeme.toToken)).1⟩ ::
            cellsFrom mode (Gap.after mode phase u.toToken (v.toToken :: us.map Lexeme.toToken)).2
              ((v :: us).map Lexeme.toToken) := rfl
      generalize Gap.after mode phase u.toToken (v.toToken :: us.map Lexeme.toToken) =
        next at hcells hsets hsuits
      obtain ⟨m, g, hfold, hg⟩ :=
        exists_fold_cons n ⟨u.text, next.1⟩ (cellsFrom mode next.2 ((v :: us).map Lexeme.toToken))
      -- the gap is the one that was set, or a space in its place
      have hgap : Gap.Sets mode u.kind v.kind g := by
        rcases hg with rfl | ⟨hsoft, rfl⟩
        · exact hsets
        · exact (hsoft ▸ hsets : Gap.Sets mode u.kind v.kind .soft).fold
      have hrest := ih hs hk (by simpa using hsuits) m g.text
      rw [hcells, hfold, List.map_cons, Lexeme.spaced]
      exact List.isChain_cons_cons.2 ⟨hgap.separates hu, hrest⟩

end Layout

theorem IsExpression.isChain_kinds {us : List Lexeme} (h : IsExpression us) :
    us.IsChain fun u v => u.kind ≠ .closeParen ∧ v.kind ≠ .openParen := by
  have free : ∀ {us : List Lexeme}, BracketFree us →
      us.Pairwise fun u v => u.kind ≠ .closeParen ∧ v.kind ≠ .openParen := fun hf =>
    List.pairwise_of_forall_mem_list fun u hu v hv => ⟨(hf u hu).2, (hf v hv).1⟩
  cases h with
  | sequence hf _ => exact (free hf).isChain
  | list ho hc _ hf =>
    refine List.Pairwise.isChain (List.pairwise_cons.2 ⟨fun v hv => ⟨by simp [ho], ?_⟩, ?_⟩)
    · rcases List.mem_append.1 hv with hv | hv
      · exact (hf v hv).1
      · simp [List.mem_singleton.1 hv, hc]
    · refine List.pairwise_append.2 ⟨free hf, List.pairwise_singleton ..,
        fun u hu v hv => ⟨(hf u hu).2, ?_⟩⟩
      simp [List.mem_singleton.1 hv, hc]

end SexpLayout
