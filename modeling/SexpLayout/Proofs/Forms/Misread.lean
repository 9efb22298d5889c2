import SexpLayout.Proofs.Forms.Partners

/-!
# Brackets that do not match

`Forms.read` goes through the lexemes once and keeps the open lists on a stack.  A closer that does
not fit ends the run, and so does the end of the lexemes if a list is still open.

* `Misread` — what is wrong, said without a stack: the first closer without a partner, or else the
  last opener without one; `Misread.unique` — there is one such thing at most;
* `Forms.not_misfit` — while the lexemes are read, all closers have partners;
* `Forms.misread_of_readOn` — **a failure names what is wrong**;
* `read_matches` — **how brackets are matched**, for all lexemes.
-/

namespace SexpLayout

open Forms (closes Frame FrameBalanced pending)

/-! ### what is wrong -/

/-- The opener at the index `i` has no partner in front of the index `k`. -/
structure Pending (ts : List Token) (k i : Nat) : Prop where
  lt : i < k
  opens : ∃ o, ts[i]? = some o ∧ o.kind = .openParen
  alone : ∀ j < k, ¬ Partner ts i j

/-- The last opener without a partner in front of the index `k`. -/
structure LastPending (ts : List Token) (k i : Nat) (o : Token) : Prop where
  pending : Pending ts k i
  get : ts[i]? = some o
  last : ∀ j, Pending ts k j → j ≤ i

/-- The closer at the index `k` has no partner. -/
structure Misfit (ts : List Token) (k : Nat) (c : Token) : Prop where
  get : ts[k]? = some c
  closes : c.kind = .closeParen
  alone : ∀ i, ¬ Partner ts i k

/-- The first closer without a partner. -/
structure FirstMisfit (ts : List Token) (k : Nat) (c : Token) : Prop extends Misfit ts k c where
  first : ∀ m < k, ∀ d, ¬ Misfit ts m d

/-- What is wrong with brackets that do not match: the first closer without a partner, or the last
opener. -/
inductive Misread (ts : List Token) : ReadError → Prop
  | unexpected {k : Nat} {c : Token} (h : FirstMisfit ts k c) (hnone : ∀ i, ¬ Pending ts k i) :
      Misread ts (.unexpected c.text c.start)
  | mismatched {k i : Nat} {c o : Token} {s s' : Shape} (h : FirstMisfit ts k c)
      (hlast : LastPending ts k i o)
      (ho : o.bracket? = some (.opener s)) (hc : c.bracket? = some (.closer s')) (hne : s ≠ s') :
      Misread ts (.mismatched c.text c.start)
  | unterminated {i : Nat} {o : Token} (hfit : ∀ k c, ¬ Misfit ts k c)
      (hlast : LastPending ts ts.length i o) :
      Misread ts (.unterminated o.text o.start)

theorem FirstMisfit.unique {ts : List Token} {k m : Nat} {c d : Token} (h : FirstMisfit ts k c)
    (h' : FirstMisfit ts m d) : k = m ∧ c = d := by
  have hkm : k = m := by
    rcases Nat.lt_trichotomy k m with hlt | heq | hlt
    · exact absurd h.toMisfit (h'.first k hlt c)
    · exact heq
    · exact absurd h'.toMisfit (h.first m hlt d)
  subst hkm
  exact ⟨rfl, Option.some.inj (h.get.symm.trans h'.get)⟩

theorem LastPending.unique {ts : List Token} {k i j : Nat} {o p : Token} (h : LastPending ts k i o)
    (h' : LastPending ts k j p) : o = p := by
  obtain rfl : i = j := Nat.le_antisymm (h'.last i h.pending) (h.last j h'.pending)
  exact Option.some.inj (h.get.symm.trans h'.get)

/-- **There is one thing wrong at most.** -/
theorem Misread.unique {ts : List Token} {e e' : ReadError} (h : Misread ts e)
    (h' : Misread ts e') : e = e' := by
  cases h with
  | unexpected h hnone =>
    cases h' with
    | unexpected h' hnone' =>
      obtain ⟨-, rfl⟩ := h.unique h'
      rfl
    | mismatched h' hlast =>
      obtain ⟨rfl, -⟩ := h.unique h'
      exact absurd hlast.pending (hnone _)
    | unterminated hfit => exact absurd h.toMisfit (hfit _ _)
  | mismatched h hlast =>
    cases h' with
    | unexpected h' hnone' =>
      obtain ⟨rfl, -⟩ := h.unique h'
      exact absurd hlast.pending (hnone' _)
    | mismatched h' =>
      obtain ⟨-, rfl⟩ := h.unique h'
      rfl
    | unterminated hfit => exact absurd h.toMisfit (hfit _ _)
  | unterminated hfit hlast =>
    cases h' with
    | unexpected h' => exact absurd h'.toMisfit (hfit _ _)
    | mismatched h' => exact absurd h'.toMisfit (hfit _ _)
    | unterminated _ hlast' => rw [hlast.unique hlast']

/-! ### around matching brackets -/

section Balanced

variable {f : Forms} (hf : f.Balanced) (before behind : List Token) {o c : Token}

include hf

theorem not_pending {i : Nat} (hi : before.length ≤ i) :
    ¬ Pending (before ++ (f.lexemes.map Lexeme.toToken ++ behind))
      (before.length + f.lexemes.length) i := by
  rintro ⟨hlt, ⟨o, hget, ho⟩, halone⟩
  obtain ⟨m, rfl⟩ := Nat.exists_eq_add_of_le hi
  rw [List.getElem?_append_right hi, Nat.add_sub_cancel_left,
    List.getElem?_append_left (by rw [List.length_map]; omega), List.getElem?_map] at hget
  obtain ⟨l, hl, rfl⟩ := Option.map_eq_some_iff.1 hget
  obtain ⟨j, hj, hjlt⟩ := (Forms.exists_partner hf before behind hl).1 ho
  exact halone j hjlt hj

/-- An opener in front of matching brackets is the last one without a partner. -/
theorem lastPending_opener (ho : o.kind = .openParen) :
    LastPending ((before ++ [o]) ++ (f.lexemes.map Lexeme.toToken ++ behind))
      ((before ++ [o]).length + f.lexemes.length) before.length o := by
  have hget : ((before ++ [o]) ++ (f.lexemes.map Lexeme.toToken ++ behind))[before.length]? =
      some o := by simp
  refine ⟨⟨by simp; omega, ⟨o, hget, ho⟩, fun j hj hpartner => ?_⟩, hget, fun j hj => ?_⟩
  · obtain ⟨pre, o', mid, c, post, hcut, hi, rfl, -, hc, -, hm⟩ := hpartner
    rw [List.append_assoc] at hcut
    obtain ⟨-, hrest⟩ := List.append_inj hcut hi.symm
    obtain ⟨-, htail⟩ := List.cons.inj hrest
    have hle := hm.length_le hf.bracketsMatch hc htail.symm
    simp only [List.length_append, List.length_singleton, List.length_map] at hj hle
    omega
  · by_contra hlt
    refine not_pending hf (before ++ [o]) behind ?_ hj
    rw [List.length_append, List.length_singleton]
    omega

theorem partner_lt {i : Nat}
    (h : Partner (before ++ (f.lexemes.map Lexeme.toToken ++ behind)) i
      (before.length + f.lexemes.length)) :
    i < before.length := by
  by_contra hle
  have hpending : ¬ Pending _ _ i := not_pending hf before behind (by omega)
  obtain ⟨pre, o, mid, c, post, hcut, rfl, hlen, ho, -⟩ := id h
  have hget : (before ++ (f.lexemes.map Lexeme.toToken ++ behind))[pre.length]? = some o := by
    simp [hcut]
  refine hpending ⟨by omega, ⟨o, hget, ho⟩, fun j hj hpartner => ?_⟩
  have := h.unique hpartner
  omega

/-- **A closer behind matching brackets with nothing in front of them is a misfit.** -/
theorem misfit_unexpected (hc : c.kind = .closeParen) :
    Misfit (f.lexemes.map Lexeme.toToken ++ c :: behind) f.lexemes.length c := by
  refine ⟨by simp, hc, fun i h => ?_⟩
  exact absurd (partner_lt hf [] (c :: behind) (by simpa using h)) (Nat.not_lt_zero i)

/-- **A closer behind matching brackets and an opener of the other kind is a misfit.** -/
theorem misfit_mismatched (ho : o.kind = .openParen) (hc : c.kind = .closeParen)
    (hcl : closes o.text c.text = false) :
    Misfit ((before ++ [o]) ++ (f.lexemes.map Lexeme.toToken ++ c :: behind))
      ((before ++ [o]).length + f.lexemes.length) c := by
  refine ⟨?_, hc, fun i h => ?_⟩
  · rw [List.getElem?_append_right (Nat.le_add_right ..), Nat.add_sub_cancel_left]
    simp
  have hlt := partner_lt hf _ _ h
  obtain ⟨pre, o', mid, c', post, hcut, rfl, hlen, -, -, hcl', hm⟩ := h
  have hsplit : (before ++ o :: f.lexemes.map Lexeme.toToken) ++ c :: behind =
      (pre ++ o' :: mid) ++ c' :: post := by
    simpa using hcut
  simp only [List.length_append, List.length_singleton] at hlt hlen
  obtain ⟨hfront, hback⟩ := List.append_inj hsplit (by simp; omega)
  obtain ⟨rfl, -⟩ := List.cons.inj hback
  -- the partner would be the opener, of the other kind, or stand in front of the opener, which has
  -- none
  rcases List.append_eq_append_iff.1 hfront with ⟨xs, rfl, hxs⟩ | ⟨xs, rfl, hxs⟩
  · obtain rfl : xs = [] := List.length_eq_zero_iff.1 (by rw [List.length_append] at hlt; omega)
    obtain ⟨rfl, -⟩ := List.cons.inj hxs
    rw [hcl] at hcl'
    cases hcl'
  · cases xs with
    | nil =>
      obtain ⟨rfl, -⟩ := List.cons.inj hxs
      rw [hcl] at hcl'
      cases hcl'
    | cons x xs =>
      obtain ⟨-, rfl⟩ := List.cons.inj hxs
      exact hf.bracketsMatch.kind_ne_openParen hm ho

end Balanced

/-! ### reading -/

namespace Forms

theorem exists_partner_of_closer {stack : List Frame} {done : Forms}
    (hs : ∀ frame ∈ stack, FrameBalanced frame) (hd : done.Balanced) (behind : List Token) {k : Nat}
    {l : Lexeme} (h : (pending stack ++ done.reverse.lexemes)[k]? = some l)
    (hk : l.kind = .closeParen) :
    ∃ i, Partner ((pending stack ++ done.reverse.lexemes).map Lexeme.toToken ++ behind) i k := by
  induction stack generalizing done behind with
  | nil =>
    obtain ⟨i, hi⟩ := (exists_partner (balanced_reverse.2 hd) [] behind h).2 hk
    exact ⟨i, by simpa [pending] using hi⟩
  | cons frame stack ih =>
    obtain ⟨hframe, hstack⟩ := List.forall_mem_cons.1 hs
    rcases Nat.lt_or_ge k (pending (frame :: stack)).length with hlt | hge
    · rw [List.getElem?_append_left hlt, pending] at h
      rcases Nat.lt_or_ge k (pending stack ++ frame.before.reverse.lexemes).length with hlt' | hge'
      · rw [List.getElem?_append_left hlt'] at h
        obtain ⟨i, hi⟩ := ih hstack hframe.before
          (frame.opener.toToken :: (done.reverse.lexemes.map Lexeme.toToken ++ behind)) h
        exact ⟨i, by simpa [pending] using hi⟩
      · -- the last lexeme in front of the open list is its opener
        rw [List.getElem?_append_right hge', List.getElem?_singleton] at h
        split at h
        · obtain rfl := Option.some.inj h
          rw [hframe.opener] at hk
          cases hk
        · cases h
    · obtain ⟨m, rfl⟩ := Nat.exists_eq_add_of_le hge
      rw [List.getElem?_append_right hge, Nat.add_sub_cancel_left] at h
      obtain ⟨i, hi⟩ :=
        (exists_partner (balanced_reverse.2 hd)
          ((pending (frame :: stack)).map Lexeme.toToken) behind h).2 hk
      exact ⟨i, by simpa using hi⟩

theorem not_misfit {stack : List Frame} {done : Forms} (hs : ∀ frame ∈ stack, FrameBalanced frame)
    (hd : done.Balanced) (behind : List Token) {k : Nat}
    (hk : k < (pending stack ++ done.reverse.lexemes).length) (c : Token) :
    ¬ Misfit ((pending stack ++ done.reverse.lexemes).map Lexeme.toToken ++ behind) k c := by
  rintro ⟨hget, hc, halone⟩
  rw [List.getElem?_append_left (by rwa [List.length_map]), List.getElem?_map] at hget
  obtain ⟨l, hl, rfl⟩ := Option.map_eq_some_iff.1 hget
  obtain ⟨i, hi⟩ := exists_partner_of_closer hs hd behind hl hc
  exact halone i hi

section State

variable {stack : List Frame} {frame : Frame} {done : Forms} {l : Lexeme} {behind : List Token}

theorem tokens_read_cons (stack : List Frame) (frame : Frame) (done : Forms) (behind : List Token) :
    (pending (frame :: stack) ++ done.reverse.lexemes).map Lexeme.toToken ++ behind =
      ((pending stack ++ frame.before.reverse.lexemes).map Lexeme.toToken ++
        [frame.opener.toToken]) ++
        (done.reverse.lexemes.map Lexeme.toToken ++ behind) := by
  simp [pending]

theorem length_read_cons (stack : List Frame) (frame : Frame) (done : Forms) :
    (pending (frame :: stack) ++ done.reverse.lexemes).length =
      ((pending stack ++ frame.before.reverse.lexemes).map Lexeme.toToken ++
        [frame.opener.toToken]).length +
        done.reverse.lexemes.length := by
  simp only [pending, List.length_append, List.length_map, List.length_singleton]

theorem misread_unexpected (hd : done.Balanced) (hk : l.kind = .closeParen) :
    Misread ((pending [] ++ done.reverse.lexemes).map Lexeme.toToken ++ l.toToken :: behind)
      (.unexpected l.text l.start) := by
  have hr := balanced_reverse.2 hd
  have hfirst :
      FirstMisfit (done.reverse.lexemes.map Lexeme.toToken ++ l.toToken :: behind)
        done.reverse.lexemes.length
      l.toToken :=
    ⟨misfit_unexpected hr behind hk, fun m hm d => not_misfit (List.forall_mem_nil _) hd _ hm d⟩
  refine .unexpected hfirst fun i => ?_
  have hnone := not_pending hr [] (l.toToken :: behind) (Nat.zero_le i)
  rwa [List.length_nil, Nat.zero_add] at hnone

theorem misread_mismatched (hs : ∀ frame ∈ stack, FrameBalanced frame)
    (hframe : FrameBalanced frame) (hd : done.Balanced) (hk : l.kind = .closeParen)
    (hcl : closes frame.opener.text l.text = false)
    (hb : ∀ t ∈ (pending (frame :: stack) ++ done.reverse.lexemes).map Lexeme.toToken ++
      l.toToken :: behind, t.SpelledBracket) :
    Misread ((pending (frame :: stack) ++ done.reverse.lexemes).map Lexeme.toToken ++
      l.toToken :: behind)
      (.mismatched l.text l.start) := by
  have hr := balanced_reverse.2 hd
  have hfits := fun m hm d =>
    not_misfit (List.forall_mem_cons.2 ⟨hframe, hs⟩) hd (l.toToken :: behind) (k := m) hm d
  obtain ⟨s, hos⟩ := (hb frame.opener.toToken (by simp [pending])).exists_opener hframe.opener
  obtain ⟨s', hcs⟩ := (hb l.toToken (by simp)).exists_closer hk
  have hne : s ≠ s' := by
    rintro rfl
    have := closes_iff.2 ⟨s, (bracket?_eq_opener_iff.1 hos).2, (bracket?_eq_closer_iff.1 hcs).2⟩
    rw [hcl] at this
    cases this
  rw [length_read_cons, tokens_read_cons] at hfits
  rw [tokens_read_cons]
  exact .mismatched ⟨misfit_mismatched hr _ behind hframe.opener hk hcl, hfits⟩
    (lastPending_opener hr _ _ hframe.opener) hos hcs hne

theorem misread_unterminated (hs : ∀ frame ∈ stack, FrameBalanced frame)
    (hframe : FrameBalanced frame) (hd : done.Balanced) :
    Misread ((pending (frame :: stack) ++ done.reverse.lexemes).map Lexeme.toToken ++ [])
      (.unterminated frame.opener.text frame.opener.start) := by
  have hlast := lastPending_opener (balanced_reverse.2 hd)
    ((pending stack ++ frame.before.reverse.lexemes).map Lexeme.toToken) [] hframe.opener
  rw [← tokens_read_cons, ← length_read_cons] at hlast
  have hlen : ((pending (frame :: stack) ++ done.reverse.lexemes).map Lexeme.toToken ++ []).length =
      (pending (frame :: stack) ++ done.reverse.lexemes).length := by
    rw [List.append_nil, List.length_map]
  rw [← hlen] at hlast
  refine .unterminated (fun k c hmis => ?_) hlast
  have hlt := (List.getElem?_eq_some_iff.1 hmis.get).1
  exact not_misfit (List.forall_mem_cons.2 ⟨hframe, hs⟩) hd [] (hlen ▸ hlt) c hmis

end State

/-- **A failure says what is wrong.** -/
theorem misread_of_readOn {stack : List Frame} {done : Forms} {ls : List Lexeme} {e : ReadError}
    (h : readOn stack done ls = .error e) (hs : ∀ frame ∈ stack, FrameBalanced frame)
    (hd : done.Balanced) {ts : List Token}
    (hts : ts = (pending stack ++ done.reverse.lexemes).map Lexeme.toToken ++ ls.map Lexeme.toToken)
    (hb : ∀ t ∈ ts, t.SpelledBracket) : Misread ts e := by
  fun_induction readOn stack done ls with
  | case1 => cases h
  | case2 frame stack done =>
    obtain rfl := Except.error.inj h
    obtain ⟨hframe, hstack⟩ := List.forall_mem_cons.1 hs
    subst hts
    exact misread_unterminated hstack hframe hd
  | case3 stack done l ls hk ih =>
    refine ih h ?_ trivial ?_
    · intro frame hframe
      rcases List.mem_cons.1 hframe with rfl | hframe
      · exact ⟨hd, hk⟩
      · exact hs frame hframe
    · simp [hts, pending, reverse, reverseOnto, lexemes]
  | case4 done l ls hk =>
    obtain rfl := Except.error.inj h
    subst hts
    exact misread_unexpected hd hk
  | case5 done l ls hk frame stack hc ih =>
    obtain ⟨hframe, hstack⟩ := List.forall_mem_cons.1 hs
    refine ih h hstack ⟨⟨hframe.opener, hk, hc⟩, balanced_reverse.2 hd, hframe.before⟩ ?_
    simp [hts, pending, lexemes_reverse_list]
  | case6 done l ls hk frame stack hc =>
    obtain rfl := Except.error.inj h
    obtain ⟨hframe, hstack⟩ := List.forall_mem_cons.1 hs
    subst hts
    exact misread_mismatched hstack hframe hd hk (by simpa using hc) hb
  | case7 stack done l ls ho hc ih =>
    refine ih h hs ⟨⟨ho, hc⟩, hd⟩ ?_
    simp [hts, lexemes_reverse_atom]

end Forms

theorem BracketsMatch.not_misread {ts : List Token} (h : BracketsMatch ts) (e : ReadError) :
    ¬ Misread ts e := by
  obtain ⟨f, hf, rfl⟩ := h.exists_balanced
  have hfits : ∀ k c, ¬ Misfit (f.lexemes.map Lexeme.toToken) k c := by
    rintro k c ⟨hget, hc, halone⟩
    rw [List.getElem?_map] at hget
    obtain ⟨l, hl, rfl⟩ := Option.map_eq_some_iff.1 hget
    obtain ⟨i, hi⟩ := (Forms.exists_partner hf [] [] hl).2 hc
    exact halone i (by simpa using hi)
  intro hmis
  cases hmis with
  | unexpected h => exact hfits _ _ h.toMisfit
  | mismatched h => exact hfits _ _ h.toMisfit
  | @unterminated i _ _ hlast =>
    exact not_pending hf [] [] (Nat.zero_le i) (by simpa using hlast.pending)

/-- **How brackets are matched.**  Lexemes whose brackets are spelled as such are read exactly if
their brackets are a well-nested word.  The lists read run from each opener to its partner, and no
others do.  Else the failure names the first closer without a partner, as unexpected if no opener in
front of it is without one, and as mismatched if the last such opener is of the other shape; if all
closers have a partner, it names the last opener without one. -/
theorem read_matches {ls : List Lexeme} {ts : List Token} (hts : ls.map Lexeme.toToken = ts)
    (hb : ∀ t ∈ ts, t.SpelledBracket) :
    ((∃ f, Forms.read ls = .ok f) ↔ WellNested (bracketWord ts)) ∧
    (∀ f, Forms.read ls = .ok f → f.lexemes = ls ∧ (f.partners 0).Pairwise (fun p q => p.1 < q.1) ∧
      (∀ i j, (i, j) ∈ f.partners 0 ↔ Partner ts i j) ∧
      ∀ i o, ts[i]? = some o → (o.kind = .openParen ↔ ∃ j, Partner ts i j)) ∧
    ∀ e, Forms.read ls = .error e ↔ Misread ts e := by
  subst hts
  have hread : ∀ f, Forms.read ls = .ok f → f.Balanced ∧ f.lexemes = ls :=
    fun f h => ⟨Forms.balanced_of_read h, Forms.read_lexemes h⟩
  have hfails : ∀ e, Forms.read ls = .error e → Misread (ls.map Lexeme.toToken) e := by
    intro e h
    refine Forms.misread_of_readOn h (by simp) trivial ?_ hb
    simp [pending, Forms.reverse, Forms.reverseOnto, Forms.lexemes]
  refine ⟨?_, fun f h => ?_, fun e => ⟨hfails e, fun hmis => ?_⟩⟩
  · rw [wellNested_iff hb]
    constructor
    · rintro ⟨f, h⟩
      obtain ⟨hf, rfl⟩ := hread f h
      exact hf.bracketsMatch
    · intro h
      obtain ⟨f, hf, rfl⟩ := h.exists_forms rfl
      exact ⟨f, Forms.read_of_balanced hf⟩
  · obtain ⟨hf, rfl⟩ := hread f h
    refine ⟨rfl, (Forms.pairwise_partners f 0).imp And.left, fun i j => Forms.mem_partners_iff hf,
      fun i o hget => ?_⟩
    constructor
    · intro ho
      rw [List.getElem?_map] at hget
      obtain ⟨l, hl, rfl⟩ := Option.map_eq_some_iff.1 hget
      obtain ⟨j, hj, -⟩ := (Forms.exists_partner hf [] [] hl).1 ho
      exact ⟨j, by simpa using hj⟩
    · rintro ⟨j, pre, o', mid, c, post, hcut, rfl, -, ho, -⟩
      obtain rfl : o' = o := by simpa [hcut] using hget
      exact ho
  · cases h : Forms.read ls with
    | error e' => rw [(hfails e' h).unique hmis]
    | ok f =>
      obtain ⟨hf, rfl⟩ := hread f h
      exact absurd hmis (hf.bracketsMatch.not_misread e)

/-- Brackets that cross, and the same brackets nested. -/
theorem read_matches_crossed :
    let crossed : List Lexeme := [⟨⟨.openParen, ['('], 0, 1⟩, []⟩, ⟨⟨.openParen, ['['], 1, 2⟩, []⟩,
      ⟨⟨.symbol, ['a'], 3, 4⟩, [' ']⟩, ⟨⟨.closeParen, [')'], 4, 5⟩, []⟩,
      ⟨⟨.closeParen, [']'], 5, 6⟩, []⟩]
    let nested : List Lexeme := [⟨⟨.openParen, ['('], 0, 1⟩, []⟩, ⟨⟨.openParen, ['['], 1, 2⟩, []⟩,
      ⟨⟨.symbol, ['a'], 3, 4⟩, [' ']⟩, ⟨⟨.closeParen, [']'], 4, 5⟩, []⟩,
      ⟨⟨.closeParen, [')'], 5, 6⟩, []⟩]
    (∀ t ∈ crossed.map Lexeme.toToken, t.SpelledBracket) ∧
      (∀ t ∈ nested.map Lexeme.toToken, t.SpelledBracket) ∧
      Misread (crossed.map Lexeme.toToken) (.mismatched [')'] 4) ∧
      WellNested (bracketWord (nested.map Lexeme.toToken)) ∧
      Partner (nested.map Lexeme.toToken) 0 4 ∧ Partner (nested.map Lexeme.toToken) 1 3 := by
  intro crossed nested
  have hcrossed : ∀ t ∈ crossed.map Lexeme.toToken, t.SpelledBracket := by decide
  have hnested : ∀ t ∈ nested.map Lexeme.toToken, t.SpelledBracket := by decide
  obtain ⟨-, -, hfails⟩ := read_matches rfl hcrossed
  obtain ⟨hnests, hlists, -⟩ := read_matches rfl hnested
  obtain ⟨f, hf⟩ := exists_of_isOk (x := Forms.read nested) rfl
  have hpartners : (Forms.read nested).map (Forms.partners 0) = .ok [(0, 4), (1, 3)] := rfl
  rw [hf] at hpartners
  obtain ⟨-, -, hmem, -⟩ := hlists f hf
  refine ⟨hcrossed, hnested, (hfails _).1 rfl, hnests.1 ⟨f, hf⟩, (hmem 0 4).1 ?_, (hmem 1 3).1 ?_⟩
  · rw [Except.ok.inj hpartners]
    simp
  · rw [Except.ok.inj hpartners]
    simp

end SexpLayout
