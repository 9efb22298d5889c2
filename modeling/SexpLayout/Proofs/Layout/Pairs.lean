import SexpLayout.Proofs.Forms.Respaced
import SexpLayout.Proofs.Layout.Breaks

/-!
# Pairs

A dot, and over several lines a keyword, stays on one line with its value: the marks behind it and
the token they belong to.  Which tokens start a pair depends on what the pairs before them have
taken: a dot or a keyword that is the value of a pair starts none.

* `pairStarts` — the indices of the tokens that start a pair, found from left to right;
* `pairStop` — the index behind the value of a pair;
* `PairPhase` — the phase of a layout says whether a token is inside a value; `pairPhase_after` —
  **one step keeps it**;
* `gap_of_mem_pairStarts`, `gap_in_value` — the gaps inside a pair and behind it;
* `layout_keeps_pairs` — **pairs are never split**, before and after folding.
-/

namespace SexpLayout

open Gap (Phase Pair isSplitStep)

/-! ### pairs -/

/-- There is a colon in the text with a character behind it that is not blank. -/
def HasKeyword (t : Text) : Prop := ∃ a c b, t = a ++ ':' :: c :: b ∧ isBlank c = false

theorem Gap.isKeyword_iff {t : Text} : isKeyword t = true ↔ HasKeyword t := by
  fun_induction isKeyword t with
  | case1 c cs ih =>
    rw [Bool.or_eq_true, ih]
    constructor
    · rintro (hc | ⟨a, d, b, h, hd⟩)
      · exact ⟨[], c, cs, rfl, by simpa using hc⟩
      · exact ⟨':' :: a, d, b, by rw [h]; rfl, hd⟩
    · rintro ⟨_ | ⟨x, a⟩, d, b, h, hd⟩
      · obtain ⟨rfl, rfl⟩ : c = d ∧ cs = b := by simpa using h
        exact .inl (by simp [hd])
      · exact .inr ⟨a, d, b, (List.cons.inj h).2, hd⟩
  | case2 x cs hne ih =>
    rw [ih]
    constructor
    · rintro ⟨a, d, b, h, hd⟩
      exact ⟨x :: a, d, b, by rw [h]; rfl, hd⟩
    · rintro ⟨_ | ⟨y, a⟩, d, b, h, hd⟩
      · obtain ⟨rfl, rfl⟩ := List.cons.inj h
        exact absurd rfl (hne d b rfl)
      · exact ⟨a, d, b, (List.cons.inj h).2, hd⟩
  | case3 =>
    constructor
    · intro h
      cases h
    · rintro ⟨a, d, b, h, -⟩
      simp at h

instance (t : Text) : Decidable (HasKeyword t) := decidable_of_iff _ Gap.isKeyword_iff

/-- The token is the dot, or over several lines a keyword. -/
def Token.HeadsPair (mode : Mode) (t : Token) : Prop :=
  t.kind = .symbol ∧ (t.text = ['.'] ∨ (mode = .multiLine ∧ HasKeyword t.text))

instance (mode : Mode) (t : Token) : Decidable (t.HeadsPair mode) :=
  inferInstanceAs (Decidable (_ ∧ _))

/-- The tokens start with one that heads a pair and one that a value starts with. -/
def OpensPair (mode : Mode) : List Token → Prop
  | t :: next :: _ => t.HeadsPair mode ∧ next.kind ≠ .comment ∧ next.kind ≠ .closeParen
  | _ => False

instance (mode : Mode) : (ts : List Token) → Decidable (OpensPair mode ts)
  | _ :: _ :: _ => inferInstanceAs (Decidable (_ ∧ _))
  | [_] => .isFalse id
  | [] => .isFalse id

/-- The value at the front of some tokens: the marks and the token behind them.  It stops before a
comment and before a closing bracket. -/
def pairValue : List Token → List Token
  | [] => []
  | t :: ts =>
    if t.kind = .comment ∨ t.kind = .closeParen then []
    else if t.kind = .punctuation then t :: pairValue ts
    else [t]

/-- The index behind the value of a pair that starts at an index. -/
def pairStop (ts : List Token) (i : Nat) : Nat := i + 1 + (pairValue (ts.drop (i + 1))).length

/-- The indices below a number at which a pair starts.  The last token of the value of an earlier
pair starts none. -/
def pairStarts (mode : Mode) (ts : List Token) : Nat → List Nat
  | 0 => []
  | i + 1 =>
    let earlier := pairStarts mode ts i
    if OpensPair mode (ts.drop i) ∧ ∀ j ∈ earlier, pairStop ts j ≠ i + 1 then earlier ++ [i]
    else earlier

section Starts

variable {mode : Mode} {ts : List Token} {i n : Nat}

theorem mem_pairStarts_iff : i ∈ pairStarts mode ts n ↔
    i < n ∧ OpensPair mode (ts.drop i) ∧ ∀ j ∈ pairStarts mode ts i, pairStop ts j ≠ i + 1 := by
  induction n with
  | zero => simp [pairStarts]
  | succ n ih =>
    have hlast : i ∈ pairStarts mode ts (n + 1) ↔ i ∈ pairStarts mode ts n ∨
        (i = n ∧ OpensPair mode (ts.drop n) ∧
          ∀ j ∈ pairStarts mode ts n, pairStop ts j ≠ n + 1) := by
      simp only [pairStarts]
      split
      · next h =>
        rw [List.mem_append, List.mem_singleton, and_iff_left h]
      · next h =>
        simp only [h, and_false, or_false]
    rw [hlast, ih, Nat.lt_succ_iff_lt_or_eq]
    constructor
    · rintro (⟨hlt, h⟩ | ⟨rfl, h⟩)
      · exact ⟨.inl hlt, h⟩
      · exact ⟨.inr rfl, h⟩
    · rintro ⟨hlt | rfl, h⟩
      · exact .inl ⟨hlt, h⟩
      · exact .inr ⟨rfl, h⟩

theorem mem_pairStarts_of_lt {k : Nat} (h : i ∈ pairStarts mode ts n) (hik : i < k) :
    i ∈ pairStarts mode ts k :=
  mem_pairStarts_iff.2 ⟨hik, (mem_pairStarts_iff.1 h).2⟩

theorem mem_pairStarts_succ {k : Nat} (h : k ∈ pairStarts mode ts (i + 1)) :
    k ∈ pairStarts mode ts i ∨ k = i := by
  obtain ⟨hlt, hk⟩ := mem_pairStarts_iff.1 h
  rcases Nat.lt_succ_iff_lt_or_eq.1 hlt with hlt | rfl
  · exact .inl (mem_pairStarts_iff.2 ⟨hlt, hk⟩)
  · exact .inr rfl

theorem opensPair_of_mem_pairStarts (h : i ∈ pairStarts mode ts n) :
    ∃ t next rest, ts.drop i = t :: next :: rest ∧ t.HeadsPair mode ∧ next.kind ≠ .comment ∧
      next.kind ≠ .closeParen := by
  have hopen := (mem_pairStarts_iff.1 h).2.1
  match hdrop : ts.drop i, hopen with
  | t :: next :: rest, hopen => exact ⟨t, next, rest, rfl, hopen⟩

end Starts

/-! ### values -/

theorem pairValue_of_mark {t : Token} (h : t.kind = .punctuation) (ts : List Token) :
    pairValue (t :: ts) = t :: pairValue ts := by
  simp [pairValue, h]

theorem pairValue_eq_nil_iff {t : Token} {ts : List Token} :
    pairValue (t :: ts) = [] ↔ t.kind = .comment ∨ t.kind = .closeParen := by
  rw [pairValue]
  by_cases h : t.kind = .comment ∨ t.kind = .closeParen
  · simp [h]
  · by_cases hm : t.kind = .punctuation <;> simp [h, hm]

theorem pairValue_ne_nil {t : Token} (hcomment : t.kind ≠ .comment) (hclose : t.kind ≠ .closeParen)
    (ts : List Token) :
    pairValue (t :: ts) ≠ [] := fun e => (pairValue_eq_nil_iff.1 e).elim hcomment hclose

theorem pairValue_of_ne {t : Token} (h : t.kind ≠ .punctuation) (ts : List Token) :
    (pairValue (t :: ts)).length ≤ 1 := by
  rw [pairValue]
  by_cases hstop : t.kind = .comment ∨ t.kind = .closeParen
  · simp [hstop]
  · simp [hstop, h]

theorem pairValue_isPrefix (ts : List Token) : pairValue ts <+: ts := by
  induction ts with
  | nil => exact List.nil_prefix
  | cons t ts ih =>
    rw [pairValue]
    split_ifs
    · exact List.nil_prefix
    · exact List.cons_prefix_cons.2 ⟨rfl, ih⟩
    · exact List.cons_prefix_cons.2 ⟨rfl, List.nil_prefix⟩

/-- The token is a mark that the next token belongs to. -/
structure Gap.KeepsValue (t next : Token) : Prop where
  mark : t.kind = .punctuation
  closer : next.kind ≠ .closeParen
  comment : next.kind ≠ .comment

theorem pairValue_of_open {t next : Token} (h : Gap.KeepsValue t next) (ts : List Token) :
    pairValue (next :: ts) ≠ [] ∧ (pairValue (t :: next :: ts)).length =
      (pairValue (next :: ts)).length + 1 := by
  obtain ⟨hmark, hclose, hcomment⟩ := h
  exact ⟨pairValue_ne_nil hcomment hclose ts, by rw [pairValue_of_mark hmark, List.length_cons]⟩

theorem pairValue_of_last {t next : Token} (h : ¬ Gap.KeepsValue t next) {ts : List Token}
    (hne : pairValue (t :: next :: ts) ≠ []) : (pairValue (t :: next :: ts)).length = 1 := by
  by_cases hmark : t.kind = .punctuation
  · have hnil : pairValue (next :: ts) = [] := by
      refine pairValue_eq_nil_iff.2 ?_
      by_contra hstop
      exact h ⟨hmark, fun hk => hstop (.inr hk), fun hk => hstop (.inl hk)⟩
    rw [pairValue_of_mark hmark, hnil, List.length_singleton]
  · have hle := pairValue_of_ne hmark (next :: ts)
    have hpos := List.length_pos_iff.2 hne
    omega

/-! ### one step -/

/-- No pair that starts before the token has a value that reaches it. -/
def NoneOpen (mode : Mode) (ts : List Token) (i : Nat) : Prop :=
  ∀ j ∈ pairStarts mode ts i, pairStop ts j ≤ i

/-- The token is in the value of the pair that starts at `j`, and of no other one. -/
structure InValue (mode : Mode) (ts : List Token) (i j : Nat) : Prop where
  starts : j ∈ pairStarts mode ts i
  stop : pairStop ts j = i + (pairValue (ts.drop i)).length
  value : pairValue (ts.drop i) ≠ []
  others : ∀ k ∈ pairStarts mode ts i, k = j ∨ pairStop ts k ≤ i

def Token.pair (t : Token) : Pair := if t.text = ['.'] then .dotted else .keyword

/-- The phase in which the token with an index comes says whether it is inside a value. -/
def PairPhase (mode : Mode) (ts : List Token) (i : Nat) : Phase → Prop
  | .free => NoneOpen mode ts i
  | .half => False
  | .value pair => ∃ j t, ts[j]? = some t ∧ pair = t.pair ∧ InValue mode ts i j
  | .closing => NoneOpen mode ts i ∧ ¬ OpensPair mode (ts.drop i)

theorem NoneOpen.succ {mode : Mode} {ts : List Token} {i : Nat} (h : NoneOpen mode ts i)
    (hnot : ¬ OpensPair mode (ts.drop i)) : NoneOpen mode ts (i + 1) := by
  intro j hj
  rcases mem_pairStarts_succ hj with hj' | rfl
  · have := h j hj'
    omega
  · exact absurd (mem_pairStarts_iff.1 hj).2.1 hnot

/-- Behind the last token of a value nothing is open, and that token does not start a pair. -/
theorem InValue.noneOpen_succ {mode : Mode} {ts : List Token} {i j : Nat} (h : InValue mode ts i j)
    (hlast : (pairValue (ts.drop i)).length = 1) : NoneOpen mode ts (i + 1) := by
  have hstop : pairStop ts j = i + 1 := by
    rw [h.stop, hlast]
  intro k hk
  rcases mem_pairStarts_succ hk with hk' | rfl
  · rcases h.others k hk' with rfl | hle
    · omega
    · omega
  · exact absurd hstop ((mem_pairStarts_iff.1 hk).2.2 j h.starts)

theorem InValue.succ {mode : Mode} {ts : List Token} {i j : Nat} {t next : Token}
    {rest : List Token} (h : InValue mode ts i j) (hdrop : ts.drop i = t :: next :: rest)
    (hopen : Gap.KeepsValue t next) :
    InValue mode ts (i + 1) j := by
  have hnext : ts.drop (i + 1) = next :: rest := by rw [← List.drop_drop, hdrop]; rfl
  obtain ⟨hne, hlen⟩ := pairValue_of_open hopen rest
  refine ⟨mem_pairStarts_of_lt h.starts (by have := (mem_pairStarts_iff.1 h.starts).1; omega), ?_,
    ?_, ?_⟩
  · rw [h.stop, hdrop, hlen, hnext]
    omega
  · rwa [hnext]
  · intro k hk
    rcases mem_pairStarts_succ hk with hk' | rfl
    · exact (h.others k hk').imp_right fun hle => by omega
    · -- a mark does not start a pair
      have hstart := (mem_pairStarts_iff.1 hk).2.1
      rw [hdrop] at hstart
      have hsymbol : t.kind = .symbol := hstart.1.1
      rw [hopen.mark] at hsymbol
      cases hsymbol

namespace Gap

variable {mode : Mode} {t next : Token} {rest : List Token}

theorem afterFree_of_opensPair (hs : isSplitStep t next = false)
    (h : OpensPair mode (t :: next :: rest)) :
    afterFree mode t next = (.space, .value t.pair) := by
  obtain ⟨⟨hk, hhead⟩, hcomment, hclose⟩ := h
  by_cases hdot : t.text = ['.']
  · simp [afterFree, Token.pair, clings, hk, hs, hcomment, hclose, hdot]
  · obtain ⟨rfl, hkey⟩ := hhead.resolve_left hdot
    simp [afterFree, Token.pair, clings, hk, hs, hcomment, hclose, hdot, isKeyword_iff.2 hkey]

theorem afterFree_of_not_opensPair (hs : isSplitStep t next = false)
    (hdot : t.text = ['.'] → t.kind = .symbol) (h : ¬ OpensPair mode (t :: next :: rest)) :
    (afterFree mode t next).2 = .free := by
  by_cases hc : t.kind = .comment
  · simp [afterFree, hc]
  by_cases hn : clings t.kind = true ∨ next.kind = .closeParen
  · simp [afterFree, hc, hs, hn]
  -- a value could start behind the token, so it is the head of no pair
  obtain ⟨hclings, hclose⟩ := not_or.1 hn
  by_cases hcomment : next.kind = .comment
  · simp [afterFree, hc, hs, hclings, hcomment]
  have hhead : ¬ t.HeadsPair mode := fun hhead => h ⟨hhead, hcomment, hclose⟩
  have htext : t.text ≠ ['.'] := fun e => hhead ⟨hdot e, .inl e⟩
  have hkey : ¬ (mode = .multiLine ∧ t.kind = .symbol ∧ isKeyword t.text = true) := by
    rintro ⟨hmode, hk, hkey⟩
    exact hhead ⟨hk, .inr ⟨hmode, isKeyword_iff.1 hkey⟩⟩
  simp only [afterFree, hc, hs, hclings, hclose, htext]
  simp only [not_and, Bool.not_eq_true] at hkey
  by_cases hmode : mode = .multiLine
  · by_cases hk : t.kind = .symbol
    · simp [hkey hmode hk]
    · simp [hk]
  · simp [hmode]

theorem afterValue_of_keeps (pair : Pair) (h : KeepsValue t next) :
    afterValue mode pair t next = (.nothing, .value pair) := by
  simp [afterValue, h.mark, h.closer, h.comment]

theorem afterValue_of_last (pair : Pair) (h : ¬ KeepsValue t next) :
    afterValue mode pair t next = match pair with
      | .dotted => (if next.kind = .closeParen then .nothing else separator mode, .free)
      | .keyword => if next.kind = .closeParen then (.nothing, .closing) else (.line, .free) := by
  unfold afterValue
  refine if_neg ?_
  simp only [Bool.and_eq_true, decide_eq_true_eq]
  rintro ⟨⟨hmark, hclose⟩, hcomment⟩
  exact h ⟨hmark, hclose, hcomment⟩

end Gap

section Run

variable {mode : Mode} {ts : List Token} {i : Nat}

theorem NoneOpen.inValue {t next : Token} {rest : List Token} (h : NoneOpen mode ts i)
    (hdrop : ts.drop i = t :: next :: rest) (hopen : OpensPair mode (t :: next :: rest)) :
    InValue mode ts (i + 1) i := by
  have hstart : i ∈ pairStarts mode ts (i + 1) := by
    refine mem_pairStarts_iff.2 ⟨Nat.lt_succ_self i, by rwa [hdrop], fun j hj e => ?_⟩
    have := h j hj
    omega
  refine ⟨hstart, rfl, ?_, ?_⟩
  · rw [← List.drop_drop, hdrop]
    exact pairValue_ne_nil hopen.2.1 hopen.2.2 rest
  · intro k hk
    rcases mem_pairStarts_succ hk with hk | rfl
    · have := h k hk
      exact .inr (by omega)
    · exact .inl rfl

theorem Unsplit.isSplitStep_of_drop (hs : Unsplit ts) {t next : Token} {rest : List Token}
    (hdrop : ts.drop i = t :: next :: rest) : isSplitStep t next = false := by
  have hchain := hs.drop i
  rw [hdrop] at hchain
  exact (List.isChain_cons_cons.1 hchain).1

variable (hs : Unsplit ts) (hdot : ∀ t ∈ ts, t.text = ['.'] → t.kind = .symbol)
include hs hdot

/-- **One step of a layout** keeps track of the values. -/
theorem pairPhase_after {phase : Phase} {t next : Token} {rest : List Token}
    (hdrop : ts.drop i = t :: next :: rest) (h : PairPhase mode ts i phase) :
    PairPhase mode ts (i + 1) (Gap.after mode phase t (next :: rest)).2 := by
  have hsplit := hs.isSplitStep_of_drop hdrop
  cases phase with
  | free =>
    by_cases hopen : OpensPair mode (t :: next :: rest)
    · rw [Gap.after, Gap.afterFree_of_opensPair hsplit hopen]
      exact ⟨i, t, getElem?_of_drop hdrop, rfl, NoneOpen.inValue h hdrop hopen⟩
    · have hfree :=
        Gap.afterFree_of_not_opensPair hsplit
          (hdot t (List.mem_of_getElem? (getElem?_of_drop hdrop))) hopen
      rw [Gap.after, hfree]
      exact NoneOpen.succ h (by rwa [hdrop])
  | half => exact h.elim
  | value pair =>
    obtain ⟨j, head, hj, rfl, hin⟩ := h
    by_cases hkeep : Gap.KeepsValue t next
    · rw [Gap.after, Gap.afterValue_of_keeps _ hkeep]
      exact ⟨j, head, hj, rfl, hin.succ hdrop hkeep⟩
    · have hnone : NoneOpen mode ts (i + 1) := by
        refine hin.noneOpen_succ ?_
        have hne := hin.value
        rw [hdrop] at hne ⊢
        exact pairValue_of_last hkeep hne
      rw [Gap.after, Gap.afterValue_of_last _ hkeep]
      cases head.pair with
      | dotted => exact hnone
      | keyword =>
        by_cases hclose : next.kind = .closeParen
        · simp only [if_pos hclose]
          refine ⟨hnone, ?_⟩
          rw [← List.drop_drop, hdrop]
          -- a closing bracket heads no pair
          cases rest with
          | nil => exact id
          | cons last rest =>
            rintro ⟨⟨hk, -⟩, -⟩
            rw [hclose] at hk
            cases hk
        · simp only [if_neg hclose]
          exact hnone
  | closing => exact h.1.succ h.2

theorem exists_pairPhase {t : Token} (hi : ts[i]? = some t) :
    ∃ phase, PairPhase mode ts i phase ∧
      (Layout.cellsFrom mode .free ts)[i]? =
        some ⟨t.text, (Gap.after mode phase t (ts.drop (i + 1))).1⟩ :=
  Layout.exists_phase mode (PairPhase mode ts)
    (fun _ hj => absurd (mem_pairStarts_iff.1 hj).1 (by omega))
    (fun hdrop h => pairPhase_after hs hdot hdrop h) hi

/-! ### the gaps of a pair -/

variable {k n : Nat} (hi : i ∈ pairStarts mode ts n)
include hi

omit hs hdot in
theorem lt_pairStop : i + 1 < pairStop ts i := by
  obtain ⟨t, next, rest, hdrop, -, hcomment, hclose⟩ := opensPair_of_mem_pairStarts hi
  have hpos := List.length_pos_iff.2 (pairValue_ne_nil hcomment hclose rest)
  have hrest : ts.drop (i + 1) = next :: rest := by rw [← List.drop_drop, hdrop]; rfl
  rw [pairStop, hrest]
  omega

omit hs hdot in
theorem pairStop_le_length : pairStop ts i ≤ ts.length := by
  have hlt := lt_pairStop hi
  have hle := (pairValue_isPrefix (ts.drop (i + 1))).length_le
  rw [pairStop] at hlt ⊢
  rw [List.length_drop] at hle
  omega

theorem gap_of_mem_pairStarts {t : Token} (ht : ts[i]? = some t) :
    (Layout.cellsFrom mode .free ts)[i]? = some ⟨t.text, .space⟩ := by
  obtain ⟨phase, hphase, hcell⟩ := exists_pairPhase hs hdot ht
  obtain ⟨-, hopen, hlast⟩ := mem_pairStarts_iff.1 hi
  obtain ⟨u, next, rest, hdrop, hhead, -⟩ := opensPair_of_mem_pairStarts hi
  obtain rfl : u = t := Option.some.inj ((getElem?_of_drop hdrop).symm.trans ht)
  rw [hcell]
  cases phase with
  | free =>
    rw [hdrop] at hopen
    rw [← List.drop_drop, hdrop]
    simp only [List.drop_succ_cons, List.drop_zero, Gap.after,
      Gap.afterFree_of_opensPair (hs.isSplitStep_of_drop hdrop) hopen]
  | half => exact hphase.elim
  | value pair =>
    -- a token of a value that is no mark is its last one, and starts no pair
    obtain ⟨j, -, -, -, hin⟩ := hphase
    have hmark : ¬ Gap.KeepsValue u next := fun h => by simpa [hhead.1] using h.mark
    have hne := hin.value
    have hstop := hin.stop
    rw [hdrop] at hne hstop
    rw [pairValue_of_last hmark hne] at hstop
    exact absurd hstop (hlast j hin.starts)
  | closing => exact absurd hopen hphase.2

theorem exists_inValue (hik : i < k) (hk : k < pairStop ts i) {t : Token} (ht : ts[k]? = some t) :
    ∃ head, ts[i]? = some head ∧ InValue mode ts k i ∧
      (Layout.cellsFrom mode .free ts)[k]? =
        some ⟨t.text, (Gap.after mode (.value head.pair) t (ts.drop (k + 1))).1⟩ := by
  obtain ⟨phase, hphase, hcell⟩ := exists_pairPhase hs hdot ht
  have hstart := mem_pairStarts_of_lt hi hik
  have hopen : ¬ NoneOpen mode ts k := fun h => by
    have := h i hstart
    omega
  cases phase with
  | free => exact absurd hphase hopen
  | half => exact hphase.elim
  | value pair =>
    obtain ⟨j, head, hj, rfl, hin⟩ := hphase
    rcases hin.others i hstart with rfl | hle
    · exact ⟨head, hj, hin, hcell⟩
    · omega
  | closing => exact absurd hphase.1 hopen

theorem gap_in_value (hik : i < k) (hk : k + 1 < pairStop ts i) {t : Token} (ht : ts[k]? = some t) :
    (Layout.cellsFrom mode .free ts)[k]? = some ⟨t.text, .nothing⟩ := by
  obtain ⟨head, -, hin, hcell⟩ := exists_inValue hs hdot hi hik (by omega) ht
  have hlt : k + 1 < ts.length := Nat.lt_of_lt_of_le hk (pairStop_le_length hi)
  have hnext := List.getElem?_eq_getElem hlt
  have hkeep : Gap.KeepsValue t ts[k + 1] := by
    by_contra hlast
    have hne := hin.value
    have hstop := hin.stop
    rw [drop_eq_cons ht, drop_eq_cons hnext] at hne hstop
    rw [pairValue_of_last hlast hne] at hstop
    omega
  rw [hcell, drop_eq_cons hnext, Gap.after, Gap.afterValue_of_keeps _ hkeep]

/-- The line ends behind a keyword pair, unless a closing bracket follows. -/
theorem gap_behind_keyword (hk : k + 1 = pairStop ts i) {head t next : Token}
    (hhead : ts[i]? = some head) (hkey : head.text ≠ ['.']) (ht : ts[k]? = some t)
    (hnext : ts[k + 1]? = some next) (hclose : next.kind ≠ .closeParen) :
    (Layout.cellsFrom mode .free ts)[k]? = some ⟨t.text, .line⟩ := by
  have hlt := lt_pairStop hi
  obtain ⟨u, hu, hin, hcell⟩ := exists_inValue hs hdot hi (by omega) (by omega) ht
  obtain rfl : head = u := Option.some.inj (hhead.symm.trans hu)
  have hlast : ¬ Gap.KeepsValue t next := by
    intro hkeep
    obtain ⟨hne, hlen⟩ := pairValue_of_open hkeep (ts.drop (k + 1 + 1))
    have hpos := List.length_pos_iff.2 hne
    have hstop := hin.stop
    rw [drop_eq_cons ht, drop_eq_cons hnext, hlen] at hstop
    omega
  rw [hcell, drop_eq_cons hnext, Gap.after, Gap.afterValue_of_last _ hlast]
  simp [Token.pair, hkey, hclose]

end Run

/-! ### the text of a pair -/

namespace Cell

theorem spell_drop_run {cells : List Cell} {k m : Nat} {last : Cell}
    (hlast : cells[k + m]? = some last)
    (hgap : ∀ j c, k ≤ j → j < k + m → cells[j]? = some c → c.gap = .nothing) :
    spell (cells.drop k) =
        ((cells.drop k).take (m + 1)).flatMap Cell.text ++
          (last.gap.text ++ spell (cells.drop (k + m + 1))) ∧
      start cells (k + m) + last.text.length =
        start cells k + (((cells.drop k).take (m + 1)).flatMap Cell.text).length := by
  induction m generalizing k with
  | zero =>
    rw [Nat.add_zero] at hlast
    obtain ⟨hk, rfl⟩ := List.getElem?_eq_some_iff.1 hlast
    rw [List.drop_eq_getElem_cons hk]
    simp only [Nat.add_zero, spell_cons, List.take_succ_cons, List.take_zero, List.flatMap_cons,
      List.flatMap_nil, List.append_nil, List.append_assoc, and_self]
  | succ m ih =>
    have hk : k < cells.length := by
      obtain ⟨hlt, -⟩ := List.getElem?_eq_some_iff.1 hlast
      omega
    have hcell := List.getElem?_eq_getElem hk
    have hnothing := hgap k _ le_rfl (by omega) hcell
    have hstart := start_succ hcell
    rw [hnothing] at hstart
    have hsucc : k + (m + 1) = k + 1 + m := by omega
    rw [hsucc] at hlast ⊢
    obtain ⟨hspell, hstop⟩ := ih hlast fun j c hj hjm => hgap j c (by omega) (by omega)
    rw [List.drop_eq_getElem_cons hk, spell_cons, hnothing, hspell, hstop, List.take_succ_cons,
      List.flatMap_cons, hstart]
    simp [Gap.text, Nat.add_assoc]

end Cell

namespace Layout

theorem fold_zero (cells : List Cell) : fold 0 cells = cells := by rw [fold]

theorem getElem?_fold_of_ne_soft {n i : Nat} {cells : List Cell} {c : Cell} (h : cells[i]? = some c)
    (hc : c.gap ≠ .soft) :
    (fold n cells)[i]? = some c := by
  induction cells generalizing n i with
  | nil => cases h
  | cons d ds ih =>
    obtain ⟨m, g, hfold, hg⟩ := exists_fold_cons n d ds
    rw [hfold]
    cases i with
    | zero =>
      obtain rfl : d = c := by simpa using h
      rcases hg with rfl | ⟨hsoft, -⟩
      · rfl
      · exact absurd hsoft hc
    | succ i => exact ih h

theorem start_fold (n i : Nat) (cells : List Cell) :
    Cell.start (fold n cells) i = Cell.start cells i := by
  induction cells generalizing n i with
  | nil => cases n <;> rfl
  | cons c cs ih =>
    obtain ⟨m, g, hfold, hg⟩ := exists_fold_cons n c cs
    rw [hfold]
    cases i with
    | zero => rfl
    | succ i =>
      rw [Cell.start_cons_succ, Cell.start_cons_succ, ih]
      rcases hg with rfl | ⟨hsoft, rfl⟩
      · rfl
      · rw [hsoft]
        rfl

end Layout

/-- A pair on its line: its head, one space, and its value in one piece. -/
def pairText (ts : List Token) (i : Nat) : Text :=
  match ts.drop i with
  | [] => []
  | head :: rest => head.text ++ ' ' :: (pairValue rest).flatMap Token.text

/-- A text that a layout of tokens stands for, folded or not, keeps a pair together. -/
structure Layout.KeepsPair (l : Layout) (ts : List Token) (i : Nat) (text : Text) : Prop where
  /-- The pair is written as one. -/
  together : pairText ts i <+: text.drop (l.start i)
  /-- The value starts behind one space. -/
  start_value : ∀ head, ts[i]? = some head → l.start (i + 1) = l.start i + head.text.length + 1
  /-- Inside the value each token starts where the one before it ends. -/
  start_next : ∀ k t, i < k → k + 1 < pairStop ts i → ts[k]? = some t →
    l.start (k + 1) = l.start k + t.text.length
  /-- Behind a keyword pair the line ends for good, unless a closing bracket follows. -/
  endsLine :
    ∀ head next, ts[i]? = some head → HasKeyword head.text → ts[pairStop ts i]? = some next →
    next.kind ≠ .closeParen → (pairText ts i ++ ['\n']) <+: text.drop (l.start i) ∧
      ((l.start i + (pairText ts i).length : Nat) : Int) ∉ l.laidText.breaks

theorem pairText_of_getElem? {ts : List Token} {i : Nat} {head : Token} (h : ts[i]? = some head) :
    pairText ts i = head.text ++ ' ' :: (pairValue (ts.drop (i + 1))).flatMap Token.text := by
  rw [pairText, drop_eq_cons h]

theorem HasKeyword.ne_dot {t : Text} (h : HasKeyword t) : t ≠ ['.'] := by
  obtain ⟨a, c, b, rfl, -⟩ := h
  intro e
  have hlen := congrArg List.length e
  simp only [List.length_append, List.length_cons, List.length_nil] at hlen
  omega

/-- Cells with a space behind the head of a pair, and no gaps inside its value, are spelled as the
pair. -/
theorem Cell.spell_pair {cells : List Cell} {ts : List Token}
    (htexts : cells.map Cell.text = ts.map Token.text) {i k : Nat} {head : Token} {last : Cell}
    (hhead : ts[i]? = some head) (hspace : cells[i]? = some ⟨head.text, .space⟩) (hik : i < k)
    (hk : k + 1 = pairStop ts i) (hlast : cells[k]? = some last)
    (hgap : ∀ j c, i < j → j < k → cells[j]? = some c → c.gap = .nothing) :
    (spell cells).drop (start cells i) =
      pairText ts i ++ (last.gap.text ++ spell (cells.drop (k + 1))) ∧
      start cells k + last.text.length = start cells i + (pairText ts i).length := by
  obtain ⟨m, rfl⟩ : ∃ m, k = i + 1 + m := ⟨k - (i + 1), by omega⟩
  obtain ⟨hspell, hstop⟩ := spell_drop_run hlast fun j c hj hjm => hgap j c (by omega) hjm
  have hvalue : ((cells.drop (i + 1)).take (m + 1)).flatMap Cell.text =
      (pairValue (ts.drop (i + 1))).flatMap Token.text := by
    have hlen : (pairValue (ts.drop (i + 1))).length = m + 1 := by
      rw [pairStop] at hk
      omega
    have htake := List.prefix_iff_eq_take.1 (pairValue_isPrefix (ts.drop (i + 1)))
    rw [htake, hlen, List.flatMap_def, List.flatMap_def, List.map_take, List.map_take,
      List.map_drop, List.map_drop, htexts]
  rw [hvalue] at hspell hstop
  have hstart := start_succ hspace
  constructor
  · rw [drop_start_of_getElem? hspace, hspell, pairText_of_getElem? hhead]
    simp [Gap.text]
  · rw [hstop, hstart, pairText_of_getElem? hhead]
    simp only [Gap.text, List.length_append, List.length_cons, List.length_nil]
    omega

/-- **A layout keeps a pair together**, however many of its line ends are folded. -/
theorem Layout.keepsPair_fold {l : Layout} {mode : Mode} {ts : List Token}
    (hcells : l.cells = cellsFrom mode .free ts) (hs : Unsplit ts)
    (hdot : ∀ t ∈ ts, t.text = ['.'] → t.kind = .symbol) {i n : Nat}
    (hi : i ∈ pairStarts mode ts ts.length) : l.KeepsPair ts i (Cell.spell (fold n l.cells)) := by
  obtain ⟨head, next, rest, hdrop, -⟩ := opensPair_of_mem_pairStarts hi
  have hhead := getElem?_of_drop hdrop
  have hlt := lt_pairStop hi
  have hle := pairStop_le_length hi
  obtain ⟨k, hk⟩ : ∃ k, k + 1 = pairStop ts i := ⟨pairStop ts i - 1, by omega⟩
  have hkt : k < ts.length := by omega
  have htexts : (fold n l.cells).map Cell.text = ts.map Token.text := by
    rw [map_text_fold, hcells, map_text_cellsFrom]
  have hspace : l.cells[i]? = some ⟨head.text, .space⟩ :=
    hcells ▸ gap_of_mem_pairStarts hs hdot hi hhead
  have hvalue : ∀ j t, i < j → j + 1 < pairStop ts i → ts[j]? = some t →
      l.cells[j]? = some ⟨t.text, .nothing⟩ :=
    fun j t hij hj htj => hcells ▸ gap_in_value hs hdot hi hij hj htj
  -- the folded text from the head of the pair on
  have hpair : ∀ last, (fold n l.cells)[k]? = some last →
      (Cell.spell (fold n l.cells)).drop (l.start i) =
          pairText ts i ++ (last.gap.text ++ Cell.spell ((fold n l.cells).drop (k + 1))) ∧
        l.start k + last.text.length = l.start i + (pairText ts i).length := by
    intro last hlast
    have h :=
      Cell.spell_pair htexts hhead (getElem?_fold_of_ne_soft hspace (by simp)) (by omega) hk hlast
      fun j c hij hjk hc => by
        have hj := hvalue j _ hij (by omega) (List.getElem?_eq_getElem (by omega))
        obtain rfl := Option.some.inj ((getElem?_fold_of_ne_soft hj (by simp)).symm.trans hc)
        rfl
    rwa [start_fold, start_fold] at h
  refine ⟨?_, ?_, ?_, ?_⟩
  · obtain ⟨gap, hlast⟩ := Cell.exists_cell htexts (List.getElem?_eq_getElem hkt)
    rw [(hpair _ hlast).1]
    exact List.prefix_append ..
  · intro u hu
    obtain rfl : head = u := Option.some.inj (hhead.symm.trans hu)
    exact Cell.start_succ hspace
  · intro j t hij hj htj
    exact Cell.start_succ (hvalue j t hij hj htj)
  · intro u next hu hkey hnext hclose
    obtain rfl : head = u := Option.some.inj (hhead.symm.trans hu)
    have hline :=
      gap_behind_keyword hs hdot hi hk hhead hkey.ne_dot (List.getElem?_eq_getElem hkt)
        (hk ▸ hnext) hclose
    rw [← hcells] at hline
    obtain ⟨htext, hstop⟩ := hpair _ (getElem?_fold_of_ne_soft hline (by simp))
    constructor
    · rw [htext, ← List.append_assoc]
      exact List.prefix_append ..
    · rw [mem_laidText_breaks_iff, ← hstop]
      intro hb
      rcases gap_of_mem_breaksFrom hline hb with hsoft | ⟨hnothing, -⟩
      · cases hsoft
      · cases hnothing

/-! ### expressions -/

theorem Lexeme.Stands.kind_of_dot {l : Lexeme} {y : Text} (h : l.Stands y) (ht : l.text = ['.']) :
    l.kind = .symbol := by
  have hcut := h.cut
  rw [ht] at hcut
  generalize l.kind = k at hcut ⊢
  cases hcut with
  | opener hc => exact absurd hc (by decide)
  | closer hc => exact absurd hc (by decide)
  | mark h => simp [Lexer.splitMark?] at h
  | atom hd hm h => simp [Lexer.atomKind, show isNumeral ['.'] = false by decide]

theorem Reading.kind_of_dot {us : List Lexeme} {r : Text} {ws : List Word} (h : Reading us r ws) :
    ∀ u ∈ us, u.text = ['.'] → u.kind = .symbol := by
  induction us generalizing ws with
  | nil => simp
  | cons l ls ih =>
    intro u hu ht
    rcases h.cons_cases with ⟨_, hst, hls, -⟩ | ⟨_, _, -, -, hlist, hls, -⟩
    · rcases List.mem_cons.1 hu with rfl | hu
      · exact hst.kind_of_dot ht
      · exact ih hls u hu ht
    · rcases List.mem_cons.1 hu with rfl | hu
      · have hopen := hlist.opensList
        simp [Lexer.OpensList, ht, Lexer.isOpener] at hopen
      · exact ih hls u hu ht

/-- **Pairs are never split.**  In the text of a layout of an expression, and in the text with its
first line ends folded, every token stands where it starts, and every pair stands on one line, with
one space behind its head and no gap inside its value.  The line end behind a keyword pair is not
among the breaks, and is not folded. -/
theorem layout_keeps_pairs {src : Text} {p : Passage} (hp : Passage.ofExpression src = .ok p)
    (mode : Mode) (context : Option Bool) (known table : SkipTable) (arity : Arity) :
    let l := Layout.ofTokens mode context known p.tokens
    ∃ out, l.laidText.joined table arity = .ok out ∧ ∀ text ∈ [l.laidText.text, out],
      (∀ i t, p.tokens[i]? = some t → t.text <+: text.drop (l.start i)) ∧
      ∀ i ∈ pairStarts l.laidText.mode p.tokens p.tokens.length, l.KeepsPair p.tokens i text := by
  intro l
  obtain ⟨ws, -, hread, -, -, hplaced⟩ := Passage.reading_of_ofExpression hp
  have hs : Unsplit p.tokens := unsplit_of_reading hread hplaced
  have hdot : ∀ t ∈ p.tokens, t.text = ['.'] → t.kind = .symbol := by
    intro t ht
    obtain ⟨u, hu, rfl⟩ := List.mem_map.1 ht
    exact hread.kind_of_dot u hu
  have hfold :
      ∀ n, (∀ i t, p.tokens[i]? = some t →
        t.text <+: (Cell.spell (Layout.fold n l.cells)).drop (l.start i)) ∧
      ∀ i ∈ pairStarts l.laidText.mode p.tokens p.tokens.length,
        l.KeepsPair p.tokens i (Cell.spell (Layout.fold n l.cells)) := by
    intro n
    constructor
    · intro i t hi
      have h :=
        Cell.isPrefix_drop_start
          ((Layout.map_text_fold n _).trans (Layout.map_text_cells mode context known _)) hi
      rwa [Layout.start_fold] at h
    · intro i hi
      have hmode : l.laidText.mode = Layout.effectiveMode mode p.tokens :=
        Layout.mode_ofTokens mode context known p.tokens
      rw [hmode] at hi
      exact Layout.keepsPair_fold (Layout.cells_ofTokens mode context known p.tokens) hs hdot hi
  refine ⟨_, Layout.laidText_joined mode context known table arity p.tokens, fun text htext => ?_⟩
  rcases List.mem_cons.1 htext with rfl | htext
  · have h := hfold 0
    rwa [Layout.fold_zero] at h
  · obtain rfl := List.mem_singleton.1 htext
    exact hfold _

/-- A keyword and a dot that are values themselves, two marks in front of a list, and a mark whose
value is cut off by a comment: the pairs start at the tokens 2, 4, 8 and 11. -/
theorem layout_keeps_pairs_runs :
    ∃ p out, Passage.ofExpression "(f :a :b :c '`(d) . . ;e\n:k ';x\ng (h))".toList = .ok p ∧
      (Layout.ofTokens .multiLine none .standard p.tokens).laidText.text =
        "(f\n:a :b\n:c '`(d)\n. .\n;e\n:k '\n;x\ng\n(h))".toList ∧
      (Layout.ofTokens .multiLine none .standard p.tokens).laidText.joined ⟨[⟨['f'], 9⟩]⟩ .unknown =
        .ok out ∧
      out = "(f :a :b\n:c '`(d)\n. . ;e\n:k '\n;x\ng (h))".toList ∧
      pairStarts .multiLine p.tokens p.tokens.length = [2, 4, 8, 11] ∧
      ∀ i ∈ [2, 4, 8, 11],
        (Layout.ofTokens .multiLine none .standard p.tokens).KeepsPair p.tokens i out := by
  obtain ⟨p, hp⟩ :=
    exists_of_isOk (x := Passage.ofExpression "(f :a :b :c '`(d) . . ;e\n:k ';x\ng (h))".toList)
    (by decide +kernel)
  have hlaid :
      ((Passage.ofExpression "(f :a :b :c '`(d) . . ;e\n:k ';x\ng (h))".toList).toOption.map
        fun p =>
          ((Layout.ofTokens .multiLine none .standard p.tokens).laidText.text,
            (Layout.ofTokens .multiLine none .standard p.tokens).laidText.mode,
            ((Layout.ofTokens .multiLine none .standard p.tokens).laidText.joined
              ⟨[⟨['f'], 9⟩]⟩ .unknown).toOption,
            pairStarts .multiLine p.tokens p.tokens.length)) =
      some ("(f\n:a :b\n:c '`(d)\n. .\n;e\n:k '\n;x\ng\n(h))".toList, .multiLine,
        some "(f :a :b\n:c '`(d)\n. . ;e\n:k '\n;x\ng (h))".toList, [2, 4, 8, 11]) := by
    decide +kernel
  rw [hp] at hlaid
  simp only [Except.toOption, Option.map_some, Option.some.injEq, Prod.mk.injEq] at hlaid
  obtain ⟨htext, hmode, hjoined, hstarts⟩ := hlaid
  obtain ⟨out, hout, hkeeps⟩ :=
    layout_keeps_pairs hp .multiLine none .standard ⟨[⟨['f'], 9⟩]⟩ .unknown
  rw [hout] at hjoined
  refine ⟨p, out, hp, htext, hout, Option.some.inj hjoined, hstarts, fun i hi => ?_⟩
  refine (hkeeps out (by simp)).2 i ?_
  rwa [hmode, hstarts]

end SexpLayout
