import SexpLayout.Proofs.Layout.Gaps

/-!
# Line breaks by their offsets

A layout is written down as a text and the offsets of the line ends in it that may be folded.  The
offsets are counted while the tokens and gaps are written, so they are those of the soft gaps, for
any tokens.

* `Layout.start` — where a token stands in the text of a layout;
* `mem_breaksFrom_iff` — the breaks are the offsets of the soft gaps;
* `Layout.exists_phase` — what one step of a layout keeps holds at every token;
* `Gap.Phase.Suited` — which tokens come in a phase, also if two of them make up `1-` or `1+`;
* `LaidText.foldAt_eq` — spaces are written at the offsets and nowhere else;
* `laidText_breaks_and_folding` — **the breaks of a layout, and what folding makes of its text**.
-/

namespace SexpLayout

open Gap (Phase isSplitStep)

/-! ### where tokens stand -/

namespace Cell

/-- The offset where the cell with an index starts in the text of some cells. -/
def start (cells : List Cell) (i : Nat) : Nat := (spell (cells.take i)).length

theorem spell_append (cs ds : List Cell) : spell (cs ++ ds) = spell cs ++ spell ds :=
  List.flatMap_append ..

theorem spell_cons (c : Cell) (cs : List Cell) :
    spell (c :: cs) = c.text ++ c.gap.text ++ spell cs := rfl

@[simp] theorem start_zero (cells : List Cell) : start cells 0 = 0 := rfl

@[simp] theorem start_cons_succ (c : Cell) (cells : List Cell) (i : Nat) :
    start (c :: cells) (i + 1) = c.text.length + c.gap.text.length + start cells i := by
  simp [start, spell_cons, Nat.add_assoc]

theorem drop_start (cells : List Cell) (i : Nat) :
    (spell cells).drop (start cells i) = spell (cells.drop i) := by
  have h : spell cells = spell (cells.take i) ++ spell (cells.drop i) := by
    rw [← spell_append, List.take_append_drop]
  rw [h, start, List.drop_left]

theorem drop_start_of_getElem? {cells : List Cell} {i : Nat} {c : Cell} (h : cells[i]? = some c) :
    (spell cells).drop (start cells i) = c.text ++ c.gap.text ++ spell (cells.drop (i + 1)) := by
  obtain ⟨hi, rfl⟩ := List.getElem?_eq_some_iff.1 h
  rw [drop_start, List.drop_eq_getElem_cons hi, spell_cons]

theorem exists_cell {cells : List Cell} {ts : List Token}
    (h : cells.map Cell.text = ts.map Token.text) {i : Nat} {t : Token} (hi : ts[i]? = some t) :
    ∃ gap, cells[i]? = some ⟨t.text, gap⟩ := by
  have htexts := congrArg (fun texts => texts[i]?) h
  simp only [List.getElem?_map, hi, Option.map_some, Option.map_eq_some_iff] at htexts
  obtain ⟨c, hc, htext⟩ := htexts
  exact ⟨c.gap, by rw [hc, ← htext]⟩

theorem isPrefix_drop_start {cells : List Cell} {ts : List Token}
    (h : cells.map Cell.text = ts.map Token.text) {i : Nat} {t : Token} (hi : ts[i]? = some t) :
    t.text <+: (spell cells).drop (start cells i) := by
  obtain ⟨gap, hc⟩ := exists_cell h hi
  rw [drop_start_of_getElem? hc, List.append_assoc]
  exact List.prefix_append ..

theorem start_succ {cells : List Cell} {i : Nat} {c : Cell} (h : cells[i]? = some c) :
    start cells (i + 1) = start cells i + c.text.length + c.gap.text.length := by
  unfold start
  rw [List.take_add_one, h, spell_append]
  simp [spell, Nat.add_assoc]

theorem start_mono (cells : List Cell) {i j : Nat} (hij : i ≤ j) :
    start cells i ≤ start cells j := by
  induction hij with
  | refl => exact le_rfl
  | @step j _ ih =>
    refine ih.trans ?_
    by_cases hj : j < cells.length
    · rw [start_succ (List.getElem?_eq_getElem hj)]
      omega
    · have h : cells.take (j + 1) = cells.take j := by
        rw [List.take_of_length_le (by omega), List.take_of_length_le (by omega)]
      rw [start, start, h]

theorem stop_le_start {cells : List Cell} {i j : Nat} {c : Cell} (h : cells[i]? = some c)
    (hij : i < j) :
    start cells i + c.text.length + c.gap.text.length ≤ start cells j := by
  rw [← start_succ h]
  exact start_mono cells hij

end Cell

def Layout.start (l : Layout) (i : Nat) : Nat := Cell.start l.cells i

/-! ### the offsets of soft gaps -/

namespace Layout

/-- **The breaks are the offsets of the soft gaps.** -/
theorem mem_breaksFrom_iff {offset b : Nat} {cells : List Cell} :
    b ∈ breaksFrom offset cells ↔
      ∃ i c, cells[i]? = some c ∧ c.gap = .soft ∧
        b = offset + Cell.start cells i + c.text.length := by
  induction cells generalizing offset with
  | nil => simp [breaksFrom]
  | cons c cs ih =>
    have hrest : b ∈ breaksFrom (offset + c.text.length + c.gap.text.length) cs ↔
        ∃ i d, (c :: cs)[i + 1]? = some d ∧ d.gap = .soft ∧
          b = offset + Cell.start (c :: cs) (i + 1) + d.text.length := by
      rw [ih]
      simp only [List.getElem?_cons_succ, Cell.start_cons_succ, Nat.add_assoc]
    have hsplit : b ∈ breaksFrom offset (c :: cs) ↔
        (c.gap = .soft ∧ b = offset + c.text.length) ∨
          b ∈ breaksFrom (offset + c.text.length + c.gap.text.length) cs := by
      rw [breaksFrom]
      by_cases hc : c.gap = .soft <;> simp [hc]
    rw [hsplit, hrest]
    constructor
    · rintro (⟨hc, rfl⟩ | ⟨i, d, h⟩)
      · exact ⟨0, c, rfl, hc, by simp⟩
      · exact ⟨i + 1, d, h⟩
    · rintro ⟨_ | i, d, hd, hsoft, rfl⟩
      · obtain rfl : c = d := by simpa using hd
        exact .inl ⟨hsoft, by simp⟩
      · exact .inr ⟨i, d, hd, hsoft, rfl⟩

theorem le_of_mem_breaksFrom {offset b : Nat} {cells : List Cell}
    (h : b ∈ breaksFrom offset cells) : offset ≤ b := by
  obtain ⟨i, c, -, -, rfl⟩ := mem_breaksFrom_iff.1 h
  omega

theorem pairwise_breaksFrom (offset : Nat) (cells : List Cell) :
    (breaksFrom offset cells).Pairwise (· < ·) := by
  induction cells generalizing offset with
  | nil => exact .nil
  | cons c cs ih =>
    rw [breaksFrom]
    by_cases hc : c.gap = .soft
    · simp only [hc, if_true]
      refine .cons (fun b hb => ?_) (ih _)
      have hle := le_of_mem_breaksFrom hb
      simp only [Gap.text, List.length_singleton] at hle
      omega
    · simp only [hc, if_false]
      exact ih _

theorem getElem?_of_mem_breaksFrom {cells : List Cell} {b : Nat} (h : b ∈ breaksFrom 0 cells) :
    (Cell.spell cells)[b]? = some '\n' := by
  obtain ⟨i, c, hc, hsoft, rfl⟩ := mem_breaksFrom_iff.1 h
  have hdrop := Cell.drop_start_of_getElem? hc
  rw [Nat.zero_add, ← List.getElem?_drop, hdrop, hsoft, List.append_assoc]
  simp [Gap.text]

theorem mem_laidText_breaks_iff {l : Layout} {b : Nat} :
    (b : Int) ∈ l.laidText.breaks ↔ b ∈ l.breaks :=
  List.mem_map_of_injective fun _ _ => Int.ofNat.inj

/-- A break right behind a token is its own gap, or else the token touches one without any text. -/
theorem gap_of_mem_breaksFrom {cells : List Cell} {i : Nat} {c : Cell} (hc : cells[i]? = some c)
    (hb : Cell.start cells i + c.text.length ∈ breaksFrom 0 cells) :
    c.gap = .soft ∨ (c.gap = .nothing ∧ ∃ d, cells[i + 1]? = some d ∧ d.text = []) := by
  obtain ⟨j, d, hd, hsoft, e⟩ := mem_breaksFrom_iff.1 hb
  rw [Nat.zero_add] at e
  rcases Nat.lt_trichotomy j i with hji | rfl | hij
  · -- the gap behind an earlier token has been written before this one
    have hle := Cell.stop_le_start hd hji
    rw [hsoft, Gap.text, List.length_singleton] at hle
    omega
  · obtain rfl : c = d := Option.some.inj (hc.symm.trans hd)
    exact .inl hsoft
  · right
    have hle := Cell.stop_le_start hc hij
    have hgap : c.gap = .nothing := by
      have hlen : c.gap.text.length = 0 := by omega
      cases hg : c.gap <;> simp [hg, Gap.text] at hlen ⊢
    -- nothing is written from the next token on up to the break
    obtain ⟨hlt, -⟩ := List.getElem?_eq_some_iff.1 hd
    have hnext : i + 1 < cells.length := by omega
    have hcell := List.getElem?_eq_getElem hnext
    have hstart := Cell.start_succ hc
    refine ⟨hgap, cells[i + 1], hcell, List.length_eq_zero_iff.1 ?_⟩
    rcases Nat.eq_or_lt_of_le (Nat.succ_le_of_lt hij) with rfl | hij'
    · obtain rfl : cells[i + 1] = d := Option.some.inj (hcell.symm.trans hd)
      rw [Nat.succ_eq_add_one] at e
      omega
    · have hle' := Cell.stop_le_start hcell hij'
      omega

end Layout

/-! ### the phases of a layout -/

theorem drop_eq_cons {ts : List Token} {i : Nat} {t : Token} (h : ts[i]? = some t) :
    ts.drop i = t :: ts.drop (i + 1) := by
  obtain ⟨hi, rfl⟩ := List.getElem?_eq_some_iff.1 h
  exact List.drop_eq_getElem_cons hi

theorem getElem?_of_drop {ts rest : List Token} {i : Nat} {t : Token} (h : ts.drop i = t :: rest) :
    ts[i]? = some t := by
  rw [← List.head?_drop, h]
  rfl

theorem getElem?_succ_of_drop {ts rest : List Token} {i : Nat} {t next : Token}
    (h : ts.drop i = t :: next :: rest) :
    ts[i + 1]? = some next := by
  rw [← List.head?_drop, ← List.drop_drop, h]
  rfl

/-- **What every step of a layout keeps** holds at all tokens. -/
theorem Layout.exists_phase (mode : Mode) {ts : List Token} (Inv : Nat → Phase → Prop)
    (h0 : Inv 0 .free)
    (hstep : ∀ {i : Nat} {phase : Phase} {t next : Token} {rest : List Token},
      ts.drop i = t :: next :: rest → Inv i phase →
        Inv (i + 1) (Gap.after mode phase t (next :: rest)).2)
    {i : Nat} {t : Token} (hi : ts[i]? = some t) :
    ∃ phase, Inv i phase ∧
      (cellsFrom mode .free ts)[i]? =
        some ⟨t.text, (Gap.after mode phase t (ts.drop (i + 1))).1⟩ := by
  have key : ∀ i rest, ts.drop i = rest → rest ≠ [] →
      ∃ phase, Inv i phase ∧ (cellsFrom mode .free ts).drop i = cellsFrom mode phase rest := by
    intro i
    induction i with
    | zero =>
      rintro rest rfl -
      exact ⟨.free, h0, rfl⟩
    | succ i ih =>
      rintro rest hrest hne
      obtain ⟨next, rest, rfl⟩ := List.exists_cons_of_ne_nil hne
      have hlt : i < ts.length := by
        have hlen := congrArg List.length hrest
        simp only [List.length_drop, List.length_cons] at hlen
        omega
      have hdrop := List.drop_eq_getElem_cons hlt
      rw [hrest] at hdrop
      obtain ⟨phase, hphase, hcells⟩ := ih _ hdrop (by simp)
      refine ⟨_, hstep hdrop hphase, ?_⟩
      rw [← List.drop_drop, hcells]
      rfl
  obtain ⟨phase, hphase, hcells⟩ := key i _ (drop_eq_cons hi) (by simp)
  refine ⟨phase, hphase, ?_⟩
  have h := congrArg List.head? hcells
  rwa [List.head?_drop] at h

namespace Gap

/-- The token may come in the phase, behind the token in front of it. -/
def Phase.Suited (prev : Option Token) : Phase → Token → Prop
  | .free, _ => True
  | .half, t => ∃ s, prev = some s ∧ isSplitStep s t = true
  | .value _, t => t.kind ≠ .comment
  | .closing, t => t.kind = .closeParen

theorem Phase.Admits.suited {phase : Phase} {t : Token} (h : phase.Admits t.kind)
    (prev : Option Token) :
    phase.Suited prev t := by
  cases phase with
  | free => trivial
  | half => exact h.elim
  | value pair => exact h
  | closing => exact h

theorem suited_after (mode : Mode) {phase : Phase} {prev : Option Token} {t next : Token}
    (ts : List Token) (hp : phase.Suited prev t) :
    (after mode phase t (next :: ts)).2.Suited (some t) next := by
  cases phase with
  | free =>
    by_cases hs : isSplitStep t next = true
    · simp only [after, afterFree, hs, if_true]
      split
      · trivial
      · exact ⟨t, rfl, hs⟩
    · exact (fits_afterFree (by simpa using hs)).2.suited _
  | half => trivial
  | value pair => exact (fits_afterValue hp).2.suited _
  | closing => trivial

/-- A comment ends its line for good, unless it is the second half of `1-` or `1+`; then it is
followed by a space or touches a closing bracket. -/
theorem after_comment (mode : Mode) {phase : Phase} {prev : Option Token} {t : Token} (next : Token)
    (ts : List Token) (hp : phase.Suited prev t) (hk : t.kind = .comment) :
    (after mode phase t (next :: ts)).1 = .line ∨ (∃ s, prev = some s ∧ isSplitStep s t = true) ∧
      ((after mode phase t (next :: ts)).1 = .space ∨
        (after mode phase t (next :: ts)).1 = .nothing ∧ next.kind = .closeParen) := by
  cases phase with
  | free =>
    left
    simp [after, afterFree, hk]
  | half =>
    right
    refine ⟨hp, ?_⟩
    by_cases hn : next.kind = .closeParen <;> simp [after, hn]
  | value pair => exact absurd hk hp
  | closing =>
    have hclose : t.kind = .closeParen := hp
    rw [hk] at hclose
    cases hclose

end Gap

/-! ### folding -/

namespace Layout

variable {table : SkipTable} {arity : Arity} {head : Text}

theorem foldCount_of_table {n : Nat} (h : table.lookup head = some n) (second : Option Kind)
    (context : Bool) :
    foldCount table arity head second context = n := by
  simp [foldCount, skipCount, h]

theorem foldCount_of_arity (h : table.lookup head = none) {n : Int} (hn : arity head = some n)
    (second : Option Kind) (context : Bool) :
    (foldCount table arity head second context : Int) = max 0 n := by
  have hcount : foldCount table arity head second context = n.toNat := by
    simp [foldCount, skipCount, h, hn]
  rw [hcount]
  omega

theorem foldCount_of_unknown (h : table.lookup head = none) (hn : arity head = none)
    (second : Option Kind) (context : Bool) :
    foldCount table arity head second context =
      if second = some .closeParen ∨ second = some .openParen ∨
        (second = some .compound ∧ context = true) then 0 else 1 := by
  simp [foldCount, skipCount, h, hn, keepsLine, or_assoc]

end Layout

namespace LaidText

/-- The text with spaces at its first `n` breaks. -/
def withSpaces (l : LaidText) (n : Nat) : Text :=
  l.text.mapIdx fun i c => if (i : Int) ∈ l.breaks.take n then ' ' else c

theorem replaceAt?_of_lt {t : Text} {i : Nat} (h : i < t.length) (c : Char) :
    t.replaceAt? i c = some (t.set i c) := by
  have hneg : ¬ ((i : Int) < 0) := by omega
  have hin : (decide (0 ≤ (i : Int)) && decide ((i : Int) < (t.length : Int))) = true := by
    simp only [Bool.and_eq_true, decide_eq_true_eq]
    omega
  simp only [Text.replaceAt?, if_neg hneg]
  rw [if_pos hin, Int.toNat_natCast]

/-- **Spaces are written at the offsets and nowhere else.** -/
theorem foldAt_eq {t : Text} {offsets : List Int} (h : ∀ b ∈ offsets, 0 ≤ b ∧ b < t.length) :
    foldAt t offsets = .ok (t.mapIdx fun i c => if (i : Int) ∈ offsets then ' ' else c) := by
  induction offsets generalizing t with
  | nil =>
    rw [foldAt]
    refine congrArg Except.ok (List.ext_getElem? fun i => ?_)
    simp
  | cons b bs ih =>
    obtain ⟨hpos, hlt⟩ := h b (by simp)
    obtain ⟨n, rfl⟩ := Int.eq_ofNat_of_zero_le hpos
    have hn : n < t.length := by omega
    have hbs : ∀ d ∈ bs, 0 ≤ d ∧ d < (t.set n ' ').length := by
      intro d hd
      rw [List.length_set]
      exact h d (by simp [hd])
    rw [foldAt, replaceAt?_of_lt hn]
    dsimp only
    rw [ih hbs]
    refine congrArg Except.ok (List.ext_getElem? fun i => ?_)
    rw [List.getElem?_mapIdx, List.getElem?_mapIdx, List.getElem?_set]
    by_cases hi : n = i
    · subst hi
      simp [hn]
    · have hne : ¬ ((i : Int) = (n : Int)) := by omega
      simp [hi, hne]

/-- The breaks are line ends of the text, in its order, and there are none on one line. -/
structure MarksLineEnds (l : LaidText) : Prop where
  increasing : l.breaks.Pairwise (· < ·)
  newline : ∀ b ∈ l.breaks, 0 ≤ b ∧ b < l.text.length ∧ l.text[b.toNat]? = some '\n'
  oneLine : l.mode = .oneLine → l.breaks = []

theorem MarksLineEnds.joined_eq {l : LaidText} (h : l.MarksLineEnds) (table : SkipTable)
    (arity : Arity) :
    l.joined table arity =
      .ok (l.withSpaces (Layout.foldCount table arity l.head l.second l.context)) := by
  have hin : ∀ b ∈ l.breaks.take (Layout.foldCount table arity l.head l.second l.context), 0 ≤ b ∧
      b < l.text.length := by
    intro b hb
    obtain ⟨hpos, hlt, -⟩ := h.newline b (List.mem_of_mem_take hb)
    exact ⟨hpos, hlt⟩
  have hfold := foldAt_eq hin
  cases hmode : l.mode with
  | multiLine => rw [joined, if_pos hmode, hfold, withSpaces]
  | oneLine =>
    rw [h.oneLine hmode, List.take_nil, foldAt] at hfold
    rw [joined, if_neg (by simp [hmode]), hfold, withSpaces, h.oneLine hmode, List.take_nil]

end LaidText

/-! ### the breaks of a layout -/

def previous (ts : List Token) : Nat → Option Token
  | 0 => none
  | i + 1 => ts[i]?

/-- The token is the second half of `1-` or `1+`, and is followed by a closing bracket without any
text, which no text is read as. -/
def IsHalfBeforeEmptyCloser (ts : List Token) (i : Nat) (t : Token) : Prop :=
  (∃ prev, previous ts i = some prev ∧ isSplitStep prev t = true) ∧
    ∃ next, ts[i + 1]? = some next ∧ next.kind = .closeParen ∧ next.text = []

namespace Layout

variable (mode : Mode) (context : Option Bool) (table : SkipTable) (ts : List Token)

theorem mode_ofTokens : (ofTokens mode context table ts).mode = effectiveMode mode ts := by
  cases ts with
  | nil => rfl
  | cons t ts => rfl

theorem marksLineEnds_ofTokens : (ofTokens mode context table ts).laidText.MarksLineEnds where
  increasing := List.Pairwise.map _ (fun _ _ => Int.ofNat_lt.2) (pairwise_breaksFrom 0 _)
  newline := by
    intro b hb
    obtain ⟨n, hn, rfl⟩ := List.mem_map.1 hb
    have hline := getElem?_of_mem_breaksFrom hn
    obtain ⟨hlt, -⟩ := List.getElem?_eq_some_iff.1 hline
    exact ⟨Int.natCast_nonneg n, Int.ofNat_lt.2 hlt, hline⟩
  oneLine := by
    intro hmode
    have hmode : effectiveMode mode ts = .oneLine :=
      (mode_ofTokens mode context table ts).symm.trans hmode
    refine List.map_eq_nil_iff.2 (List.eq_nil_iff_forall_not_mem.2 fun b hb => ?_)
    obtain ⟨i, c, hc, hsoft, -⟩ := mem_breaksFrom_iff.1 hb
    rw [cells_ofTokens, hmode] at hc
    exact gap_ne_soft_of_mem_cellsFrom (List.mem_of_getElem? hc) hsoft

variable {ts} {i : Nat} {t : Token}

theorem exists_token {c : Cell} (hc : (ofTokens mode context table ts).cells[i]? = some c) :
    ∃ t, ts[i]? = some t ∧ t.text = c.text := by
  have h := congrArg (fun texts => texts[i]?) (map_text_cells mode context table ts)
  simp only [List.getElem?_map, hc, Option.map_some] at h
  exact Option.map_eq_some_iff.1 h.symm

variable (hi : ts[i]? = some t)
include hi

theorem exists_suited : ∃ phase : Phase, phase.Suited (previous ts i) t ∧
    (ofTokens mode context table ts).cells[i]? =
      some ⟨t.text, (Gap.after (effectiveMode mode ts) phase t (ts.drop (i + 1))).1⟩ := by
  obtain ⟨phase, hsuited, hcell⟩ := exists_phase (effectiveMode mode ts)
    (fun i phase => ∀ t, ts[i]? = some t →
      phase.Suited (previous ts i) t) (fun _ _ => trivial) (fun hdrop hphase u hu => by
        obtain rfl := Option.some.inj ((getElem?_succ_of_drop hdrop).symm.trans hu)
        rw [previous, getElem?_of_drop hdrop]
        exact Gap.suited_after (effectiveMode mode ts) _ (hphase _ (getElem?_of_drop hdrop))) hi
  exact ⟨phase, hsuited t hi, (cells_ofTokens mode context table ts).symm ▸ hcell⟩

/-- The gap behind a comment is never folded.  It is missing only behind the second half of `1-` or
`1+`, in front of a closing bracket. -/
theorem gap_of_comment (hk : t.kind = .comment) {c : Cell}
    (hc : (ofTokens mode context table ts).cells[i]? = some c) :
    c.gap ≠ .soft ∧ (c.gap = .nothing → ∀ next, ts[i + 1]? = some next →
      next.kind = .closeParen ∧ ∃ prev, previous ts i = some prev ∧ isSplitStep prev t = true) := by
  obtain ⟨phase, hsuited, hcell⟩ := exists_suited mode context table hi
  obtain rfl := Option.some.inj (hcell.symm.trans hc)
  cases hrest : ts.drop (i + 1) with
  | nil =>
    refine ⟨by simp [Gap.after], fun _ next hnext => ?_⟩
    rw [← List.head?_drop, hrest] at hnext
    cases hnext
  | cons next rest =>
    rcases Gap.after_comment (effectiveMode mode ts) next rest hsuited hk with hline | ⟨hhalf,
      hspace | ⟨hnothing, hclose⟩⟩
    · simp [hline]
    · simp [hspace]
    · refine ⟨by simp [hnothing], fun _ next' hnext' => ?_⟩
      obtain rfl := Option.some.inj ((getElem?_of_drop hrest).symm.trans hnext')
      exact ⟨hclose, hhalf⟩

theorem isHalfBeforeEmptyCloser_of_mem_breaks (hk : t.kind = .comment)
    (hb : (ofTokens mode context table ts).start i + t.text.length ∈
      (ofTokens mode context table ts).breaks) :
    IsHalfBeforeEmptyCloser ts i t := by
  obtain ⟨gap, hcell⟩ := Cell.exists_cell (map_text_cells mode context table ts) hi
  obtain ⟨hsoft, hhalf⟩ := gap_of_comment mode context table hi hk hcell
  rcases gap_of_mem_breaksFrom hcell hb with hg | ⟨hg, d, hd, hempty⟩
  · exact absurd hg hsoft
  · obtain ⟨next, hnext, htext⟩ := exists_token mode context table hd
    obtain ⟨hclose, hprev⟩ := hhalf hg next hnext
    exact ⟨hprev, next, hnext, hclose, htext.trans hempty⟩

omit hi in
theorem exists_of_mem_breaks {b : Nat} (hb : b ∈ (ofTokens mode context table ts).breaks) :
    ∃ i t, ts[i]? = some t ∧ t.kind ≠ .comment ∧
      b = (ofTokens mode context table ts).start i + t.text.length := by
  obtain ⟨i, c, hc, hsoft, rfl⟩ := mem_breaksFrom_iff.1 hb
  obtain ⟨t, hi, htext⟩ := exists_token mode context table hc
  refine ⟨i, t, hi, fun hk => (gap_of_comment mode context table hi hk hc).1 hsoft, ?_⟩
  rw [htext, Nat.zero_add]
  rfl

end Layout

/-- **The breaks of a layout, and folding.**  For any tokens, the breaks are line ends of the text
in its order, and there are none on one line.  Each one stands behind a token that is no comment,
and none right behind the text of a comment, but for a comment that is a second half in front of an
empty bracket.  Folding never fails: it writes a space at the first breaks, as many as the table
says, or else the arity, or else one, unless the token behind the head keeps its line. -/
theorem laidText_breaks_and_folding (mode : Mode) (context : Option Bool) (table : SkipTable)
    (ts : List Token) :
    let l := Layout.ofTokens mode context table ts
    let r := l.laidText
    r.MarksLineEnds ∧
    (∀ b ∈ r.breaks, ∃ i t, ts[i]? = some t ∧ t.kind ≠ .comment ∧
      b = (l.start i + t.text.length : Nat)) ∧
    (∀ i t, ts[i]? = some t → t.text <+: r.text.drop (l.start i) ∧
      (t.kind = .comment → ((l.start i + t.text.length : Nat) : Int) ∈ r.breaks →
        IsHalfBeforeEmptyCloser ts i t)) ∧
    ∀ (table : SkipTable) (arity : Arity), ∃ k, r.joined table arity = .ok (r.withSpaces k) ∧
      (∀ n, table.lookup r.head = some n → k = n) ∧
      (table.lookup r.head = none → ∀ n, arity r.head = some n → (k : Int) = max 0 n) ∧
      (table.lookup r.head = none → arity r.head = none →
        k = if r.second = some .closeParen ∨ r.second = some .openParen ∨
          (r.second = some .compound ∧ r.context = true)
          then 0 else 1) := by
  intro l r
  have hmarks := Layout.marksLineEnds_ofTokens mode context table ts
  refine ⟨hmarks, ?_, ?_, ?_⟩
  · intro b hb
    obtain ⟨n, hn, rfl⟩ := List.mem_map.1 hb
    obtain ⟨i, t, hi, hk, rfl⟩ := Layout.exists_of_mem_breaks mode context table hn
    exact ⟨i, t, hi, hk, rfl⟩
  · intro i t hi
    refine ⟨Cell.isPrefix_drop_start (Layout.map_text_cells mode context table ts) hi,
      fun hk hb => ?_⟩
    exact Layout.isHalfBeforeEmptyCloser_of_mem_breaks mode context table hi hk
      (Layout.mem_laidText_breaks_iff.1 hb)
  · intro table' arity
    exact ⟨_, hmarks.joined_eq table' arity, fun n hn => Layout.foldCount_of_table hn ..,
      fun hnone n hn => Layout.foldCount_of_arity hnone hn ..,
      fun hnone hn => Layout.foldCount_of_unknown hnone hn ..⟩

/-- A comment, two halves of a number and a dotted pair: the breaks are behind the head, the list
and the pair; an arity is below zero.  Then the exception: the text of the comment ends at a
break. -/
theorem laidText_breaks_and_folding_halves :
    (∃ r, r = (Layout.ofTokens .multiLine none ⟨[]⟩
        [⟨.openParen, ['('], 0, 1⟩, ⟨.symbol, ['f'], 1, 2⟩, ⟨.compound, ['(', 'a', ')'], 3, 6⟩,
          ⟨.comment, [';'], 7, 8⟩, ⟨.number, ['1'], 9, 10⟩, ⟨.symbol, ['-'], 10, 11⟩,
          ⟨.symbol, ['.'], 12, 13⟩, ⟨.symbol, ['b'], 14, 15⟩, ⟨.symbol, ['c'], 16, 17⟩,
          ⟨.closeParen, [')'], 17, 18⟩]).laidText ∧
      r.text = "(f\n(a)\n;\n1- . b\nc)".toList ∧ r.breaks = [2, 6, 15] ∧ r.MarksLineEnds ∧
      (∃ k, r.joined ⟨[⟨['f'], 2⟩]⟩ .unknown = .ok (r.withSpaces k) ∧ k = 2) ∧
      ∃ k, r.joined ⟨[]⟩ (fun _ => some (-1)) = .ok (r.withSpaces k) ∧ (k : Int) = max 0 (-1)) ∧
    IsHalfBeforeEmptyCloser [⟨.symbol, [], 0, 0⟩, ⟨.comment, ['1', '-'], 0, 2⟩,
      ⟨.closeParen, [], 2, 2⟩, ⟨.symbol, [], 2, 2⟩, ⟨.compound, ['(', 'b', ')'], 2, 5⟩] 1 ⟨.comment,
        ['1', '-'], 0, 2⟩ := by
  constructor
  · obtain ⟨hmarks, -, -, hfold⟩ := laidText_breaks_and_folding .multiLine none ⟨[]⟩
      [⟨.openParen, ['('], 0, 1⟩, ⟨.symbol, ['f'], 1, 2⟩, ⟨.compound, ['(', 'a', ')'], 3, 6⟩,
        ⟨.comment, [';'], 7, 8⟩, ⟨.number, ['1'], 9, 10⟩, ⟨.symbol, ['-'], 10, 11⟩,
        ⟨.symbol, ['.'], 12, 13⟩, ⟨.symbol, ['b'], 14, 15⟩, ⟨.symbol, ['c'], 16, 17⟩,
        ⟨.closeParen, [')'], 17, 18⟩]
    obtain ⟨k, hk, htable, -, -⟩ := hfold ⟨[⟨['f'], 2⟩]⟩ .unknown
    obtain ⟨m, hm, -, harity, -⟩ := hfold ⟨[]⟩ fun _ => some (-1)
    exact ⟨_, rfl, by decide, by decide, hmarks, ⟨k, hk, htable 2 (by decide)⟩, m, hm,
      harity rfl (-1) rfl⟩
  · obtain ⟨-, -, hcomment, -⟩ := laidText_breaks_and_folding .multiLine none .standard
      [⟨.symbol, [], 0, 0⟩, ⟨.comment, ['1', '-'], 0, 2⟩, ⟨.closeParen, [], 2, 2⟩,
        ⟨.symbol, [], 2, 2⟩, ⟨.compound, ['(', 'b', ')'], 2, 5⟩]
    exact (hcomment 1 _ rfl).2 rfl (by decide)

/-- A comment whose text ends at a break: it is taken for the second half of a number, and two
tokens without any text stand between it and the break. -/
theorem break_right_behind_comment :
    let l := Layout.ofTokens .multiLine none .standard
      [⟨.symbol, [], 0, 0⟩, ⟨.comment, ['1', '-'], 0, 2⟩, ⟨.closeParen, [], 2, 2⟩,
        ⟨.symbol, [], 2, 2⟩, ⟨.compound, ['(', 'b', ')'], 2, 5⟩]
    l.laidText.text = "1-\n(b)".toList ∧ l.start 1 = 0 ∧ l.laidText.breaks = [2] ∧
      ((l.start 1 + ['1', '-'].length : Nat) : Int) ∈ l.laidText.breaks := by
  decide

end SexpLayout
