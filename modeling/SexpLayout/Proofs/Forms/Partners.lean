import SexpLayout.Proofs.Forms.Grouping

/-!
# Partners

Which bracket closes which one, said without a stack: two brackets are partners if they are of one
kind and the brackets between them match.

* `WellNested` — the well-nested words of brackets; `wellNested_iff` — brackets match exactly if
  they are such a word;
* `Partner` — two brackets are partners; `Partner.unique` — an opener has one partner at most;
* `Forms.partners` — the brackets of the lists that were read; `Forms.mem_partners_iff` — **they are
  all the partners**;
* `Forms.pairwise_partners` — lists are nested or apart; `Forms.forall₂_spans` — where they start
  and stop.
-/

namespace SexpLayout

open Forms (closes)

/-! ### words of brackets -/

inductive Shape where
  | round
  | square
  deriving DecidableEq, Repr

/-- A bracket opens or closes, and has a shape. -/
inductive Bracket where
  | opener (shape : Shape)
  | closer (shape : Shape)
  deriving DecidableEq, Repr

def Shape.ofOpener? (t : Text) : Option Shape :=
  if t = ['('] then some round else if t = ['['] then some square else none

def Shape.ofCloser? (t : Text) : Option Shape :=
  if t = [')'] then some round else if t = [']'] then some square else none

/-- The bracket that a token is, if it is one. -/
def Token.bracket? (t : Token) : Option Bracket :=
  match t.kind with
  | .openParen => (Shape.ofOpener? t.text).map .opener
  | .closeParen => (Shape.ofCloser? t.text).map .closer
  | _ => none

def bracketWord (ts : List Token) : List Bracket := ts.filterMap Token.bracket?

/-- The well-nested words: nothing, or a word between two brackets of one shape and a word behind
them. -/
inductive WellNested : List Bracket → Prop
  | nil : WellNested []
  | list {s : Shape} {inner rest : List Bracket} (hi : WellNested inner) (hr : WellNested rest) :
      WellNested (.opener s :: (inner ++ .closer s :: rest))

/-- A token that is a bracket by its kind is spelled as one. -/
def Token.SpelledBracket (t : Token) : Prop :=
  (t.kind = .openParen → t.text = ['('] ∨ t.text = ['[']) ∧
    (t.kind = .closeParen → t.text = [')'] ∨ t.text = [']'])

instance (t : Token) : Decidable t.SpelledBracket := inferInstanceAs (Decidable (_ ∧ _))

theorem closes_iff {o c : Text} :
    closes o c = true ↔ ∃ s, Shape.ofOpener? o = some s ∧ Shape.ofCloser? c = some s := by
  simp only [closes, Bool.or_eq_true, Bool.and_eq_true, beq_iff_eq]
  constructor
  · rintro (⟨rfl, rfl⟩ | ⟨rfl, rfl⟩)
    · exact ⟨.round, rfl, rfl⟩
    · exact ⟨.square, rfl, rfl⟩
  · rintro ⟨s, ho, hc⟩
    unfold Shape.ofOpener? at ho
    unfold Shape.ofCloser? at hc
    cases s with
    | round => exact .inl (by simp_all)
    | square => exact .inr (by split at ho <;> split at hc <;> simp_all)

theorem bracket?_eq_opener_iff {t : Token} {s : Shape} :
    t.bracket? = some (.opener s) ↔ t.kind = .openParen ∧ Shape.ofOpener? t.text = some s := by
  unfold Token.bracket?
  cases t.kind <;> simp

theorem bracket?_eq_closer_iff {t : Token} {s : Shape} :
    t.bracket? = some (.closer s) ↔ t.kind = .closeParen ∧ Shape.ofCloser? t.text = some s := by
  unfold Token.bracket?
  cases t.kind <;> simp

theorem Token.SpelledBracket.exists_opener {t : Token} (h : t.SpelledBracket)
    (hk : t.kind = .openParen) :
    ∃ s, t.bracket? = some (.opener s) := by
  simp only [bracket?_eq_opener_iff, hk, true_and]
  rcases h.1 hk with h | h <;> rw [h]
  · exact ⟨.round, rfl⟩
  · exact ⟨.square, rfl⟩

theorem Token.SpelledBracket.exists_closer {t : Token} (h : t.SpelledBracket)
    (hk : t.kind = .closeParen) :
    ∃ s, t.bracket? = some (.closer s) := by
  simp only [bracket?_eq_closer_iff, hk, true_and]
  rcases h.2 hk with h | h <;> rw [h]
  · exact ⟨.round, rfl⟩
  · exact ⟨.square, rfl⟩

theorem Token.SpelledBracket.kind_of_eq_none {t : Token} (h : t.SpelledBracket)
    (hnone : t.bracket? = none) :
    t.kind ≠ .openParen ∧ t.kind ≠ .closeParen := by
  constructor
  · intro hk
    obtain ⟨s, hs⟩ := h.exists_opener hk
    simp [hs] at hnone
  · intro hk
    obtain ⟨s, hs⟩ := h.exists_closer hk
    simp [hs] at hnone

theorem bracket?_eq_none {t : Token} (ho : t.kind ≠ .openParen) (hc : t.kind ≠ .closeParen) :
    t.bracket? = none := by
  unfold Token.bracket?
  split
  · contradiction
  · contradiction
  · rfl

theorem BracketsMatch.wellNested {ts : List Token} (h : BracketsMatch ts) :
    WellNested (bracketWord ts) := by
  induction h with
  | nil => exact .nil
  | token ho hc _ ih =>
    rw [bracketWord, List.filterMap_cons_none (bracket?_eq_none ho hc)]
    exact ih
  | list ho hc hcl _ _ ihi ihr =>
    obtain ⟨s, hos, hcs⟩ := closes_iff.1 hcl
    rw [bracketWord, List.filterMap_cons_some (bracket?_eq_opener_iff.2 ⟨ho, hos⟩),
      List.filterMap_append, List.filterMap_cons_some (bracket?_eq_closer_iff.2 ⟨hc, hcs⟩)]
    exact .list ihi ihr

theorem BracketsMatch.append_left {pre ts : List Token}
    (hpre : ∀ t ∈ pre, t.kind ≠ .openParen ∧ t.kind ≠ .closeParen) (h : BracketsMatch ts) :
    BracketsMatch (pre ++ ts) := by
  induction pre with
  | nil => exact h
  | cons t pre ih =>
    have ht := hpre t (by simp)
    exact .token ht.1 ht.2 (ih fun u hu => hpre u (by simp [hu]))

/-- **The brackets of tokens match exactly if they make up a well-nested word.** -/
theorem wellNested_iff {ts : List Token} (hb : ∀ t ∈ ts, t.SpelledBracket) :
    WellNested (bracketWord ts) ↔ BracketsMatch ts := by
  refine ⟨fun h => ?_, BracketsMatch.wellNested⟩
  generalize hw : bracketWord ts = w at h
  induction h generalizing ts with
  | nil =>
    have hnone := List.filterMap_eq_nil_iff.1 hw
    rw [← List.append_nil ts]
    exact .append_left (fun t ht => (hb t ht).kind_of_eq_none (hnone t ht)) .nil
  | @list s inner rest _ _ ihi ihr =>
    obtain ⟨pre, o, us, rfl, hpre, ho, hus⟩ := List.filterMap_eq_cons_iff.1 hw
    obtain ⟨is, vs, rfl, his, hvs⟩ := List.filterMap_eq_append_iff.1 hus
    obtain ⟨gap, c, rs, rfl, hgap, hc, hrs⟩ := List.filterMap_eq_cons_iff.1 hvs
    obtain ⟨hok, hos⟩ := bracket?_eq_opener_iff.1 ho
    obtain ⟨hck, hcs⟩ := bracket?_eq_closer_iff.1 hc
    have hinner : BracketsMatch (is ++ gap) := by
      refine ihi (fun t ht => hb t ?_) ?_
      · rcases List.mem_append.1 ht with ht | ht <;> simp [ht]
      · rw [bracketWord, List.filterMap_append, List.filterMap_eq_nil_iff.2 hgap, his,
          List.append_nil]
    have hrest : BracketsMatch rs := ihr (fun t ht => hb t (by simp [ht])) hrs
    have hlist := BracketsMatch.list hok hck (closes_iff.2 ⟨s, hos, hcs⟩) hinner hrest
    rw [List.append_assoc] at hlist
    exact .append_left (fun t ht => (hb t (by simp [ht])).kind_of_eq_none (hpre t ht)) hlist

/-! ### partners -/

/-- The tokens at two indices are partners: an opener and a closer of one kind, and the brackets
between them match. -/
def Partner (ts : List Token) (i j : Nat) : Prop :=
  ∃ pre o mid c post, ts = pre ++ o :: (mid ++ c :: post) ∧ pre.length = i ∧
    pre.length + mid.length + 1 = j ∧
    o.kind = .openParen ∧ c.kind = .closeParen ∧ closes o.text c.text = true ∧ BracketsMatch mid

theorem BracketsMatch.exists_balanced {ts : List Token} (h : BracketsMatch ts) :
    ∃ f : Forms, f.Balanced ∧ f.lexemes.map Lexeme.toToken = ts := by
  have hbare : (ts.map fun t => (⟨t, []⟩ : Lexeme)).map Lexeme.toToken = ts := by
    simp [Function.comp_def]
  obtain ⟨f, hf, hlex⟩ := h.exists_forms hbare
  exact ⟨f, hf, hlex ▸ hbare⟩

/-- **Where the brackets match so far, a closer is one too many.** -/
theorem BracketsMatch.kind_ne_closeParen {ts us : List Token} {c : Token} (h : BracketsMatch ts)
    (h' : BracketsMatch (ts ++ c :: us)) : c.kind ≠ .closeParen := by
  intro hc
  obtain ⟨g, hg, hlex⟩ := h'.exists_balanced
  obtain ⟨as, bs, hcut, has, hbs⟩ := List.map_eq_append_iff.1 hlex
  obtain ⟨l, bs, rfl, rfl, -⟩ := List.map_eq_cons_iff.1 hbs
  obtain ⟨f, hf, rfl⟩ := h.exists_forms has
  have hread := Forms.read_of_balanced hg
  rw [hcut, Forms.read, Forms.readOn_lexemes_append hf, Forms.readOn] at hread
  have hk : l.kind = .closeParen := hc
  simp [hk] at hread

/-- Matching brackets in front of a closer reach at least as far as others that start with them. -/
theorem BracketsMatch.length_le {as bs us vs : List Token} {c : Token} (ha : BracketsMatch as)
    (hb : BracketsMatch bs) (hc : c.kind = .closeParen) (h : as ++ c :: us = bs ++ vs) :
    bs.length ≤ as.length := by
  rcases List.append_eq_append_iff.1 h with ⟨xs, rfl, hxs⟩ | ⟨xs, rfl, -⟩
  · cases xs with
    | nil => simp
    | cons x xs =>
      obtain ⟨rfl, -⟩ := List.cons.inj hxs
      exact absurd hc (ha.kind_ne_closeParen hb)
  · simp

theorem Partner.unique {ts : List Token} {i j k : Nat} (h : Partner ts i j) (h' : Partner ts i k) :
    j = k := by
  obtain ⟨pre, o, mid, c, post, rfl, rfl, rfl, -, hc, -, hm⟩ := h
  obtain ⟨pre', o', mid', c', post', heq, hi, rfl, -, hc', -, hm'⟩ := h'
  obtain ⟨rfl, hrest⟩ := List.append_inj heq hi.symm
  obtain ⟨rfl, htail⟩ := List.cons.inj hrest
  have h1 := hm.length_le hm' hc htail
  have h2 := hm'.length_le hm hc' htail.symm
  omega

namespace Forms

/-- The indices of the two brackets of every list, in the order of their openers; the lexemes are
counted from `n` on. -/
def partners (n : Nat) : Forms → List (Nat × Nat)
  | nil => []
  | atom _ rest => rest.partners (n + 1)
  | list _ inner _ rest =>
    let stop := n + 1 + inner.lexemes.length
    (n, stop) :: (inner.partners (n + 1) ++ rest.partners (stop + 1))

/-- **The brackets of a list are partners.** -/
theorem partner_of_mem {f : Forms} (hf : f.Balanced) (before behind : List Token) {i j : Nat}
    (h : (i, j) ∈ f.partners before.length) :
    Partner (before ++ (f.lexemes.map Lexeme.toToken ++ behind)) i j := by
  induction f generalizing before behind with
  | nil => simp [partners] at h
  | atom x rest ih =>
    have h' : (i, j) ∈ rest.partners (before ++ [x.toToken]).length := by simpa [partners] using h
    simpa [lexemes] using ih hf.2 _ behind h'
  | list o inner c rest ihi ihr =>
    simp only [partners, List.mem_cons, Prod.mk.injEq, List.mem_append] at h
    rcases h with ⟨rfl, rfl⟩ | h | h
    · exact ⟨before, o.toToken, inner.lexemes.map Lexeme.toToken, c.toToken,
        rest.lexemes.map Lexeme.toToken ++ behind, by
          simp [lexemes], rfl, by simp; omega, hf.1.1, hf.1.2.1, hf.1.2.2, hf.2.1.bracketsMatch⟩
    · have h' : (i, j) ∈ inner.partners (before ++ [o.toToken]).length := by simpa using h
      have := ihi hf.2.1 _ (c.toToken :: (rest.lexemes.map Lexeme.toToken ++ behind)) h'
      simpa [lexemes] using this
    · have hlen : before.length + 1 + inner.lexemes.length + 1 =
          (before ++ o.toToken :: (inner.lexemes.map Lexeme.toToken ++ [c.toToken])).length := by
        simp
        omega
      rw [hlen] at h
      simpa [lexemes] using ihr hf.2.2 _ behind h

theorem getElem?_lexemes_list {o c l : Lexeme} {inner rest : Forms} {k : Nat}
    (h : (list o inner c rest).lexemes[k]? = some l) :
    k = 0 ∧ l = o ∨ (∃ m, k = m + 1 ∧ inner.lexemes[m]? = some l) ∨
      k = inner.lexemes.length + 1 ∧ l = c ∨
      ∃ m, k = inner.lexemes.length + 2 + m ∧ rest.lexemes[m]? = some l := by
  cases k with
  | zero => exact .inl ⟨rfl, by simpa [lexemes] using h.symm⟩
  | succ k =>
    rw [lexemes, List.getElem?_cons_succ] at h
    rcases Nat.lt_trichotomy k inner.lexemes.length with hlt | rfl | hlt
    · rw [List.getElem?_append_left hlt] at h
      exact .inr (.inl ⟨k, rfl, h⟩)
    · exact .inr (.inr (.inl ⟨rfl, by simpa using h.symm⟩))
    · obtain ⟨m, rfl⟩ : ∃ m, k = inner.lexemes.length + (m + 1) :=
        ⟨k - inner.lexemes.length - 1, by omega⟩
      rw [List.getElem?_append_right (by omega), Nat.add_sub_cancel_left,
        List.getElem?_cons_succ] at h
      exact .inr (.inr (.inr ⟨m, by omega, h⟩))

/-- **Every bracket belongs to a list.** -/
theorem exists_mem_partners {f : Forms} (hf : f.Balanced) {n k i : Nat} {l : Lexeme}
    (h : f.lexemes[k]? = some l) (hi : n + k = i) :
    (l.kind = .openParen → ∃ j, (i, j) ∈ f.partners n) ∧
      (l.kind = .closeParen → ∃ j, (j, i) ∈ f.partners n) := by
  induction f generalizing n k with
  | nil => simp [lexemes] at h
  | atom x rest ih =>
    cases k with
    | zero =>
      obtain rfl : x = l := by simpa [lexemes] using h
      exact ⟨fun hk => absurd hk hf.1.1, fun hk => absurd hk hf.1.2⟩
    | succ k => exact ih hf.2 (n := n + 1) (by simpa [lexemes] using h) (by omega)
  | list o inner c rest ihi ihr =>
    obtain ⟨⟨ho, hc, -⟩, hbi, hbr⟩ := hf
    simp only [partners, List.mem_cons, List.mem_append, Prod.mk.injEq]
    rcases getElem?_lexemes_list h with ⟨rfl, rfl⟩ | ⟨m, rfl, hm⟩ | ⟨rfl, rfl⟩ | ⟨m, rfl, hm⟩
    · exact ⟨fun _ => ⟨_, .inl ⟨by omega, rfl⟩⟩, fun hk => by simp [ho] at hk⟩
    · obtain ⟨hopen, hclose⟩ := ihi hbi (n := n + 1) hm (by omega)
      exact ⟨fun hk => (hopen hk).imp fun _ hj => .inr (.inl hj),
        fun hk => (hclose hk).imp fun _ hj => .inr (.inl hj)⟩
    · exact ⟨fun hk => by simp [hc] at hk, fun _ => ⟨_, .inl ⟨rfl, by omega⟩⟩⟩
    · obtain ⟨hopen, hclose⟩ := ihr hbr (n := n + 1 + inner.lexemes.length + 1) hm (by omega)
      exact ⟨fun hk => (hopen hk).imp fun _ hj => .inr (.inr hj),
        fun hk => (hclose hk).imp fun _ hj => .inr (.inr hj)⟩

theorem bounds_of_mem_partners {f : Forms} {n i j : Nat} (h : (i, j) ∈ f.partners n) :
    n ≤ i ∧ i < j ∧ j < n + f.lexemes.length := by
  induction f generalizing n with
  | nil => simp [partners] at h
  | atom x rest ih =>
    have := ih h
    simp only [lexemes, List.length_cons]
    omega
  | list o inner c rest ihi ihr =>
    simp only [partners, List.mem_cons, Prod.mk.injEq, List.mem_append] at h
    simp only [lexemes, List.length_cons, List.length_append]
    rcases h with ⟨rfl, rfl⟩ | h | h
    · omega
    · have := ihi h
      omega
    · have := ihr h
      omega

/-- **Lists are nested or apart**: of two lists the one that opens first closes before the other one
opens, or behind it. -/
theorem pairwise_partners (f : Forms) (n : Nat) :
    (f.partners n).Pairwise fun p q => p.1 < q.1 ∧ (p.2 < q.1 ∨ q.2 < p.2) := by
  induction f generalizing n with
  | nil => exact .nil
  | atom x rest ih => exact ih (n + 1)
  | list o inner c rest ihi ihr =>
    refine .cons (fun q hq => ?_) (List.pairwise_append.2 ⟨ihi _, ihr _, fun p hp q hq => ?_⟩)
    · rcases List.mem_append.1 hq with hq | hq
      · have := bounds_of_mem_partners hq
        omega
      · have := bounds_of_mem_partners hq
        omega
    · have hp := bounds_of_mem_partners hp
      have hq := bounds_of_mem_partners hq
      omega

theorem exists_partner {f : Forms} (hf : f.Balanced) (before behind : List Token) {k : Nat}
    {l : Lexeme} (h : f.lexemes[k]? = some l) :
    (l.kind = .openParen →
        ∃ j, Partner (before ++ (f.lexemes.map Lexeme.toToken ++ behind)) (before.length + k) j ∧
          j < before.length + f.lexemes.length) ∧
      (l.kind = .closeParen →
        ∃ i, Partner (before ++ (f.lexemes.map Lexeme.toToken ++ behind)) i
          (before.length + k)) := by
  obtain ⟨ho, hc⟩ := exists_mem_partners hf h (n := before.length) rfl
  refine ⟨fun hk => ?_, fun hk => ?_⟩
  · obtain ⟨j, hj⟩ := ho hk
    exact ⟨j, partner_of_mem hf before behind hj, (bounds_of_mem_partners hj).2.2⟩
  · obtain ⟨i, hi⟩ := hc hk
    exact ⟨i, partner_of_mem hf before behind hi⟩

/-- **The brackets of lists are all the partners.** -/
theorem mem_partners_iff {f : Forms} (hf : f.Balanced) {i j : Nat} :
    (i, j) ∈ f.partners 0 ↔ Partner (f.lexemes.map Lexeme.toToken) i j := by
  have hmem : ∀ {k}, (i, k) ∈ f.partners 0 → Partner (f.lexemes.map Lexeme.toToken) i k := by
    intro k hk
    simpa using partner_of_mem hf [] [] hk
  refine ⟨hmem, fun h => ?_⟩
  obtain ⟨pre, o, mid, c, post, hts, rfl, -, ho, -⟩ := id h
  have hget : (f.lexemes.map Lexeme.toToken)[pre.length]? = some o := by simp [hts]
  rw [List.getElem?_map] at hget
  obtain ⟨l, hl, rfl⟩ := Option.map_eq_some_iff.1 hget
  obtain ⟨k, hk⟩ := (exists_mem_partners hf hl (Nat.zero_add _)).1 ho
  rwa [(hmem hk).unique h] at hk

/-- The offsets between which a list stands, by the indices of its brackets. -/
def SpanOf (ts : List Token) (p s : Nat × Nat) : Prop :=
  ∃ o c, ts[p.1]? = some o ∧ ts[p.2]? = some c ∧ s = (o.start, c.stop)

/-- **The spans of lists run from an opener to its partner.** -/
theorem forall₂_spans (f : Forms) (before behind : List Token) :
    List.Forall₂ (SpanOf (before ++ (f.lexemes.map Lexeme.toToken ++ behind)))
      (f.partners before.length) f.spans := by
  induction f generalizing before behind with
  | nil => exact .nil
  | atom x rest ih => simpa [partners, spans, lexemes] using ih (before ++ [x.toToken]) behind
  | list o inner c rest ihi ihr =>
    have hinner :=
      ihi (before ++ [o.toToken]) (c.toToken :: (rest.lexemes.map Lexeme.toToken ++ behind))
    have hrest :=
      ihr (before ++ o.toToken :: (inner.lexemes.map Lexeme.toToken ++ [c.toToken])) behind
    have hlen : (before ++ o.toToken :: (inner.lexemes.map Lexeme.toToken ++ [c.toToken])).length =
        before.length + 1 + inner.lexemes.length + 1 := by
      simp only [List.length_append, List.length_cons, List.length_map, List.length_nil]
      omega
    rw [hlen] at hrest
    refine .cons ⟨o.toToken, c.toToken, by simp [lexemes], ?_, rfl⟩ (List.rel_append ?_ ?_)
    · have hcut : before ++ ((list o inner c rest).lexemes.map Lexeme.toToken ++ behind) =
          (before ++ o.toToken :: inner.lexemes.map Lexeme.toToken) ++
            c.toToken :: (rest.lexemes.map Lexeme.toToken ++ behind) := by
        simp [lexemes]
      have hindex : before.length + 1 + inner.lexemes.length =
          (before ++ o.toToken :: inner.lexemes.map Lexeme.toToken).length := by
        simp only [List.length_append, List.length_cons, List.length_map]
        omega
      rw [hcut, hindex, List.getElem?_append_right (Nat.le_refl _), Nat.sub_self]
      rfl
    · simpa [lexemes] using hinner
    · simpa [lexemes] using hrest

end Forms

/-- **Where the brackets match from there on, an opener is one too many.** -/
theorem BracketsMatch.kind_ne_openParen {ts us : List Token} {o : Token} (h : BracketsMatch us)
    (h' : BracketsMatch (ts ++ o :: us)) : o.kind ≠ .openParen := by
  intro ho
  obtain ⟨g, hg, hlex⟩ := h'.exists_balanced
  have hget : (g.lexemes.map Lexeme.toToken)[ts.length]? = some o := by simp [hlex]
  rw [List.getElem?_map] at hget
  obtain ⟨l, hl, rfl⟩ := Option.map_eq_some_iff.1 hget
  obtain ⟨j, hj, -⟩ := (Forms.exists_partner hg [] [] hl).1 ho
  obtain ⟨pre, o, mid, c, post, hcut, hi, -, -, hc, -, hm⟩ := hj
  rw [List.nil_append, List.append_nil, hlex] at hcut
  obtain ⟨-, hrest⟩ := List.append_inj hcut (by simpa using hi.symm)
  obtain ⟨-, rfl⟩ := List.cons.inj hrest
  exact hm.kind_ne_closeParen h hc

end SexpLayout
