import Mathlib.Data.List.Pairwise
import SexpLayout.Buffer.Command
import SexpLayout.Proofs.Forms.Reading

/-!
# Which list a command works on

A list is around a point if the point is behind its start, or at it, and before its stop.
`enclosingList` takes the last such list to open.  `topLevelForm` takes the first list at the top
that is around the point or stops there, so of two lists that touch it takes the one that the point
is not in.

* `Forms.mem_spans_placed` — a list is one of those at the top or lies in one of them;
* `topLevelForm_of_mem` — the list at the top around a point is taken, unless another one stops
  there;
* `topLevelForm_eq_outermost_iff` — so the outermost list around a point is taken, with this one
  exception.
-/

namespace SexpLayout

open Lexeme (spell)

/-! ### lists in a text -/

namespace Forms

/-- A list has room for two brackets, between the ends of the text that holds it. -/
theorem bounds_of_mem_spans_placed {f : Forms} (hf : f.Balanced) {offset : Nat} {s : Nat × Nat}
    (h : s ∈ (f.placed offset).spans) :
    offset ≤ s.1 ∧ s.1 + 2 ≤ s.2 ∧ s.2 ≤ offset + (spell f.lexemes).length := by
  induction f generalizing offset with
  | nil => simp [placed, spans] at h
  | atom x rest ih =>
    have := ih hf.2 h
    simp only [lexemes, Lexeme.spell_cons, List.length_append]
    omega
  | list o inner c rest ihi ihr =>
    obtain ⟨b, e, hb, he, -, -⟩ := closes_cases hf.1.2.2
    simp only [lexemes, Lexeme.spell_cons, Lexeme.spell_append, List.length_append]
    simp only [placed, spans, List.mem_cons, List.mem_append] at h
    have hlen : o.source.length = o.gap.length + 1 ∧ c.source.length = c.gap.length + 1 := by
      simp [Lexeme.source, hb, he]
    rcases h with rfl | h | h
    · simp only [Lexeme.moved, hb, he, List.length_singleton]
      omega
    · have := ihi hf.2.1 h
      omega
    · have := ihr hf.2.2 h
      omega

/-- **A list is one of those at the top or lies inside one of them.** -/
theorem mem_spans_placed {f : Forms} (hf : f.Balanced) {offset : Nat} {s : Nat × Nat}
    (h : s ∈ (f.placed offset).spans) :
    ∃ l ∈ (f.placed offset).grouped, l.kind = .compound ∧
      (s = (l.start, l.stop) ∨ l.start < s.1 ∧ s.2 < l.stop) := by
  induction f generalizing offset with
  | nil => simp [placed, spans] at h
  | atom x rest ih =>
    obtain ⟨l, hl, hk, hs⟩ := ih hf.2 h
    exact ⟨l, List.mem_cons_of_mem _ hl, hk, hs⟩
  | list o inner c rest ihi ihr =>
    obtain ⟨b, e, hb, he, -, -⟩ := closes_cases hf.1.2.2
    simp only [placed, spans, List.mem_cons, List.mem_append] at h
    rcases h with rfl | h | h
    · exact ⟨_, List.mem_cons_self, rfl, .inl rfl⟩
    · have hin := bounds_of_mem_spans_placed hf.2.1 h
      refine ⟨_, List.mem_cons_self, rfl, .inr ?_⟩
      simp only [compound, Lexeme.moved, Lexeme.source, hb, he, List.length_append,
        List.length_singleton] at hin ⊢
      omega
    · obtain ⟨l, hl, hk, hs⟩ := ihr hf.2.2 h
      exact ⟨l, List.mem_cons_of_mem _ hl, hk, hs⟩

theorem mem_spans_of_mem_grouped {f : Forms} (ha : ∀ l ∈ f.lexemes, l.kind ≠ .compound) {l : Lexeme}
    (hl : l ∈ f.grouped) (hk : l.kind = .compound) : (l.start, l.stop) ∈ f.spans := by
  induction f with
  | nil => simp [grouped] at hl
  | atom x rest ih =>
    simp only [lexemes, List.mem_cons, forall_eq_or_imp] at ha
    rcases List.mem_cons.1 hl with rfl | hl
    · exact absurd hk ha.1
    · exact ih ha.2 hl
  | list o inner c rest _ ih =>
    rcases List.mem_cons.1 hl with rfl | hl
    · exact List.mem_cons_self
    · have hrest : ∀ m ∈ rest.lexemes, m.kind ≠ .compound :=
        fun m hm => ha m (by simp [lexemes, hm])
      exact List.mem_cons_of_mem _ (List.mem_append_right _ (ih hrest hl))

theorem exists_of_spansOf {src : Text} {spans : List (Nat × Nat)} (h : spansOf src = .ok spans) :
    ∃ f tail, ofText src = .ok (f, tail) ∧ f.spans = spans ∧
      Passage.ofDocument src = .ok ⟨f.grouped, tail⟩ := by
  cases hf : ofText src with
  | error e => simp [spansOf, hf, bind, Except.bind] at h
  | ok r =>
    refine ⟨r.1, r.2, rfl, ?_, ?_⟩
    · simpa [spansOf, hf, bind, Except.bind, pure, Except.pure] using h
    · simp [Passage.ofDocument, hf, bind, Except.bind, pure, Except.pure]

end Forms

namespace Buffer

/-! ### the list at the top -/

section Document

variable {text : Text} {p : Passage} (hp : Passage.ofDocument text = .ok p)

include hp

theorem pairwise_ofDocument : p.lexemes.Pairwise fun l m => l.stop ≤ m.start := by
  obtain ⟨-, -, -, -, -, hplaced⟩ := Passage.reading_of_ofDocument hp
  rw [← hplaced]
  exact Lexeme.pairwise_placed 0 p.lexemes

theorem stop_le_start_of_ne {l m : Lexeme} (hl : l ∈ p.lexemes) (hm : m ∈ p.lexemes) (hne : l ≠ m) :
    l.stop ≤ m.start ∨ m.stop ≤ l.start := by
  have hsymm : Std.Symm fun l m : Lexeme => l.stop ≤ m.start ∨ m.stop ≤ l.start :=
    ⟨fun _ _ h => h.symm⟩
  have hpair : p.lexemes.Pairwise fun l m => l.stop ≤ m.start ∨ m.stop ≤ l.start :=
    (pairwise_ofDocument hp).imp fun h => .inl h
  exact hpair.forall hl hm hne

/-- **The list at the top around a point** is taken, unless it starts there and another one stops
there. -/
theorem topLevelForm_of_mem {point : Int} {l : Lexeme} (hl : l ∈ p.lexemes)
    (hk : l.kind = .compound) (hstart : l.start ≤ point) (hstop : point ≤ l.stop) :
    ∃ m ∈ p.lexemes, m.kind = .compound ∧ topLevelForm text point = .ok (m.start, m.stop) ∧
      (m = l ∨ m.stop = point ∧ l.start = point) := by
  obtain ⟨m, hm⟩ :
      ∃ m, (p.lexemes.find? fun l => l.kind = .compound && l.start ≤ point && point ≤ l.stop) =
        some m :=
    Option.isSome_iff_exists.1 (List.find?_isSome.2 ⟨l, hl, by simp [hk, hstart, hstop]⟩)
  obtain ⟨hfits, before, behind, hcut, hfirst⟩ := List.find?_eq_some_iff_append.1 hm
  simp only [Bool.and_eq_true, decide_eq_true_eq] at hfits
  refine ⟨m, List.mem_of_find?_eq_some hm, hfits.1.1, ?_, ?_⟩
  · simp only [topLevelForm, hp, hm]
  · rw [hcut] at hl
    rcases List.mem_append.1 hl with hl | hl
    · have := hfirst l hl
      simp [hk, hstart, hstop] at this
    · rcases List.mem_cons.1 hl with rfl | hl
      · exact .inl rfl
      · -- the list found comes first, so it stops where the other one starts
        have hpair := pairwise_ofDocument hp
        rw [hcut] at hpair
        have := (List.pairwise_cons.1 (List.pairwise_append.1 hpair).2.1).1 l hl
        exact .inr ⟨by omega, by omega⟩

end Document

/-! ### the outermost list -/

def Around (point : Int) (s : Span) : Prop := s.1 ≤ point ∧ point < s.2

/-- The list is around the point, and every list around the point lies in it. -/
structure Outermost (spans : List Span) (point : Int) (s : Span) : Prop where
  mem : s ∈ spans
  around : Around point s
  encloses : ∀ t ∈ spans, Around point t → s.1 ≤ t.1 ∧ t.2 ≤ s.2

theorem exists_enclosingList {text : Text} {point : Int} {spans : List Span}
    (h : Forms.spansOf text = .ok spans) (hp : ∃ s ∈ spans, Around point s) :
    ∃ inner, enclosingList text point = .ok inner ∧ inner ∈ spans ∧ Around point inner := by
  obtain ⟨s, hs, haround⟩ := hp
  have hmem : s ∈ spans.filter fun s => s.1 ≤ point && point < s.2 := by
    simp [hs, haround.1, haround.2]
  obtain ⟨inner, hlast⟩ :=
    Option.isSome_iff_exists.1 (List.getLast?_isSome.2 (List.ne_nil_of_mem hmem))
  have hinner := List.mem_filter.1 (List.mem_of_getLast? hlast)
  simp only [Bool.and_eq_true, decide_eq_true_eq] at hinner
  exact ⟨inner, by simp only [enclosingList, h, hlast], hinner.1, hinner.2⟩

/-- The lists of a text by those at its top. -/
structure TopLists (spans : List Span) (p : Passage) : Prop where
  inside : ∀ s ∈ spans, ∃ l ∈ p.lexemes, l.kind = .compound ∧
    (s = (l.start, l.stop) ∨ l.start < s.1 ∧ s.2 < l.stop)
  mem : ∀ l ∈ p.lexemes, l.kind = .compound → (l.start, l.stop) ∈ spans
  room : ∀ s ∈ spans, s.1 + 2 ≤ s.2

theorem exists_topLists {text : Text} {spans : List Span} (h : Forms.spansOf text = .ok spans) :
    ∃ p, Passage.ofDocument text = .ok p ∧ TopLists spans p := by
  obtain ⟨f, tail, hf, rfl, hp⟩ := Forms.exists_of_spansOf h
  obtain ⟨-, hb, hl, -, hplaced⟩ := Forms.ofText_eq_ok_iff.1 hf
  have hself := Forms.placed_eq_self hb hplaced
  refine ⟨_, hp, fun s hs => ?_, fun l hl' hk => ?_, fun s hs => ?_⟩
  · rw [← hself] at hs
    obtain ⟨l, hl, hk, hs⟩ := Forms.mem_spans_placed hb hs
    rw [hself] at hl
    exact ⟨l, hl, hk, hs⟩
  · exact Forms.mem_spans_of_mem_grouped (lexemes_ne_compound hl) hl' hk
  · rw [← hself] at hs
    exact (Forms.bounds_of_mem_spans_placed hb hs).2.1

theorem outermost_of_mem {text : Text} {p : Passage} {spans : List Span} {point : Int}
    (hp : Passage.ofDocument text = .ok p) (ht : TopLists spans p) {l : Lexeme} (hl : l ∈ p.lexemes)
    (hk : l.kind = .compound) (haround : Around point (l.start, l.stop)) :
    Outermost spans point (l.start, l.stop) := by
  refine ⟨ht.mem l hl hk, haround, fun t htop htaround => ?_⟩
  obtain ⟨m, hm, -, hin⟩ := ht.inside t htop
  obtain ⟨h1, h2⟩ := haround
  obtain ⟨h3, h4⟩ := htaround
  have heq : l = m := by
    by_contra hne
    have := stop_le_start_of_ne hp hl hm hne
    rcases hin with rfl | hin <;> omega
  subst heq
  rcases hin with rfl | hin
  · exact ⟨Nat.le_refl _, Nat.le_refl _⟩
  · exact ⟨by omega, by omega⟩

/-- Where a list at the top starts, a list that stops is the one that is taken. -/
theorem topLevelForm_of_touching {text : Text} {p : Passage} {spans : List Span} {point : Int}
    (hp : Passage.ofDocument text = .ok p) (ht : TopLists spans p) {l : Lexeme} (hl : l ∈ p.lexemes)
    (hstart : l.start = point) (hlt : point < l.stop) {s : Span} (hs : s ∈ spans)
    (hstop : s.2 = point) :
    topLevelForm text point = .ok s := by
  obtain ⟨m, hm, hk, hin⟩ := ht.inside s hs
  have hroom := ht.room s hs
  rcases hin with rfl | hin
  · -- the list stops at the point, so it does not start there
    simp only at hstop hroom
    have hle : (m.start : Int) ≤ point := by omega
    obtain ⟨n, -, -, htaken, hor⟩ := topLevelForm_of_mem hp hm hk hle (by omega)
    obtain rfl : n = m := hor.resolve_right (by omega)
    exact htaken
  · have hne : l ≠ m := by
      rintro rfl
      omega
    have := stop_le_start_of_ne hp hl hm hne
    omega

/-- **The outermost list around a point** is a list at the top, and it is the one that is taken,
unless it starts at the point and another list stops there: then that one is taken. -/
theorem topLevelForm_eq_outermost_iff {text : Text} {point : Int} {spans : List Span}
    (h : Forms.spansOf text = .ok spans) (hp : ∃ s ∈ spans, Around point s) :
    ∃ inner outer, enclosingList text point = .ok inner ∧ inner ∈ spans ∧ Around point inner ∧
      Outermost spans point outer ∧ outer.1 ≤ inner.1 ∧ inner.2 ≤ outer.2 ∧
      (topLevelForm text point = .ok outer ↔ ∀ s ∈ spans, s.2 = point → outer.1 ≠ point) ∧
      ∀ s ∈ spans, s.2 = point → outer.1 = point → topLevelForm text point = .ok s := by
  obtain ⟨p, hdoc, ht⟩ := exists_topLists h
  obtain ⟨inner, hinner, hmem, haround⟩ := exists_enclosingList h hp
  -- the list at the top that the inner one lies in
  obtain ⟨l, hl, hk, hin⟩ := ht.inside inner hmem
  have hlaround : Around point (l.start, l.stop) := by
    obtain ⟨h1, h2⟩ := haround
    rcases hin with rfl | hin
    · exact ⟨h1, h2⟩
    · exact ⟨by simp only; omega, by simp only; omega⟩
  have hout := outermost_of_mem hdoc ht hl hk hlaround
  obtain ⟨hle, hge⟩ := hout.encloses inner hmem haround
  obtain ⟨h1, h2⟩ := hlaround
  simp only at h1 h2
  obtain ⟨m, hm, hmk, htop, hcases⟩ := topLevelForm_of_mem hdoc hl hk h1 (by omega)
  have htouch : ∀ s ∈ spans, s.2 = point → l.start = point → topLevelForm text point = .ok s :=
    fun s hs hstop hstart => topLevelForm_of_touching hdoc ht hl hstart h2 hs hstop
  refine ⟨inner, (l.start, l.stop), hinner, hmem, haround, hout, hle, hge, ⟨?_, ?_⟩, htouch⟩
  · intro htaken s hs hstop hstart
    obtain rfl : (l.start, l.stop) = s :=
      Except.ok.inj (htaken.symm.trans (htouch s hs hstop hstart))
    simp only at hstop
    omega
  · intro hnone
    rcases hcases with rfl | ⟨hstop, hstart⟩
    · exact htop
    · exact absurd hstart (hnone _ (ht.mem m hm hmk) hstop)

theorem topLevelForm_eq_outermost_nested :
    Forms.spansOf "(a (b)c)(d)".toList = .ok [(0, 8), (3, 6), (8, 11)] ∧
      ∃ outer, Outermost [(0, 8), (3, 6), (8, 11)] 6 outer ∧
        topLevelForm "(a (b)c)(d)".toList 6 = .ok outer := by
  have h : Forms.spansOf "(a (b)c)(d)".toList = .ok [(0, 8), (3, 6), (8, 11)] := by decide +kernel
  have haround : ∃ s ∈ [(0, 8), (3, 6), (8, 11)], Around 6 s := ⟨(0, 8), by simp, by simp [Around]⟩
  obtain ⟨_, outer, -, -, -, hout, -, -, hiff, -⟩ := topLevelForm_eq_outermost_iff h haround
  refine ⟨h, outer, hout, hiff.2 fun _ _ _ hstart => ?_⟩
  -- the list inside stops at the point, but the outermost one starts elsewhere
  have hmem := hout.mem
  simp only [List.mem_cons, List.not_mem_nil, or_false] at hmem
  rcases hmem with rfl | rfl | rfl <;> simp at hstart

/-- **Two lists that touch**: at the start of the second one, the first one is taken. -/
theorem topLevelForm_not_outermost :
    Forms.spansOf "(a)(b)".toList = .ok [(0, 3), (3, 6)] ∧ Outermost [(0, 3), (3, 6)] 3 (3, 6) ∧
      enclosingList "(a)(b)".toList 3 = .ok (3, 6) ∧
        topLevelForm "(a)(b)".toList 3 = .ok (0, 3) := by
  refine ⟨by decide +kernel, ⟨by simp, by simp [Around], by simp [Around]⟩, ?_, ?_⟩
  · exact eq_ok_of_toOption (by decide +kernel)
  · exact eq_ok_of_toOption (by decide +kernel)

end Buffer

end SexpLayout
