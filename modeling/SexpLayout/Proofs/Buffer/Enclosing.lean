import Mathlib.Data.Prod.Lex
import Mathlib.Order.MinMax
import SexpLayout.Proofs.Buffer.Selection
import SexpLayout.Proofs.Forms.Partners

/-!
# The innermost list

The lists of a text are nested or apart.  So of the lists around a point the last one to open lies
in all the others, and `enclosingList`, which takes it, takes the innermost one.

* `Forms.pairwise_spans` — **two lists are nested or apart**; it follows from how their brackets
  stand among the tokens;
* `innermost_of_getLast?` — of the lists around a point the last one to open is the innermost one;
* `enclosingList_eq_max?` — it is also the greatest one, if lists are compared by their starts and
  then by their stops;
* `enclosingList_innermost` — the lists of a text, and which of them is taken at a point.
-/

namespace SexpLayout

open Buffer (Around)
open Forms (SpanOf)

/-! ### members that correspond -/

theorem exists_mem_of_forall₂ {α β : Type} {T : α → β → Prop} {as : List α} {bs : List β}
    (h : List.Forall₂ T as bs) {b : β} (hb : b ∈ bs) : ∃ a ∈ as, T a b := by
  induction h with
  | nil => simp at hb
  | cons hab _ ih =>
    rcases List.mem_cons.1 hb with rfl | hb
    · exact ⟨_, List.mem_cons_self, hab⟩
    · obtain ⟨a, ha, hT⟩ := ih hb
      exact ⟨a, List.mem_cons_of_mem _ ha, hT⟩

theorem pairwise_of_forall₂ {α β : Type} {R : α → α → Prop} {S : β → β → Prop} {T : α → β → Prop}
    {as : List α} {bs : List β} (hT : List.Forall₂ T as bs) (hR : as.Pairwise R)
    (h : ∀ {a a' b b'}, R a a' → T a b → T a' b' → S b b') : bs.Pairwise S := by
  induction hT with
  | nil => exact .nil
  | cons hab hs ih =>
    obtain ⟨hfirst, hrest⟩ := List.pairwise_cons.1 hR
    refine .cons (fun b' hb' => ?_) (ih hrest)
    obtain ⟨a', ha', hab'⟩ := exists_mem_of_forall₂ hs hb'
    exact h (hfirst a' ha') hab hab'

/-! ### lists by their offsets -/

theorem inOrder_of_scan {src : Text} {s : Passage} (hs : Passage.scan src = .ok s) :
    InOrder s.tokens := by
  obtain ⟨-, hl, -, hplaced⟩ := Passage.scan_eq_ok_iff.1 hs
  rw [Passage.tokens, ← hplaced]
  exact hl.inOrder 0

/-- The first of two lists stops before the other one starts. -/
def Apart (s t : Nat × Nat) : Prop := s.2 ≤ t.1

/-- A list lies strictly between the ends of another one. -/
def Inside (s t : Nat × Nat) : Prop := t.1 < s.1 ∧ s.2 < t.2

namespace Forms

/-- **Two lists are nested or apart.** -/
theorem pairwise_spans {f : Forms} (hf : InOrder (f.lexemes.map Lexeme.toToken)) :
    f.spans.Pairwise fun s t => s.1 < t.1 ∧ (Apart s t ∨ Inside t s) := by
  have hspans : List.Forall₂ (SpanOf (f.lexemes.map Lexeme.toToken)) (f.partners 0) f.spans := by
    simpa using f.forall₂_spans [] []
  refine pairwise_of_forall₂ hspans (f.pairwise_partners 0) ?_
  rintro p q _ _ ⟨hopen, hnested⟩ ⟨o, c, ho, hc, rfl⟩ ⟨o', c', ho', hc', rfl⟩
  have hstart : o.start < o'.start := by
    have := hf.room o (List.mem_of_getElem? ho)
    have := hf.stop_le_start ho ho' hopen
    omega
  refine ⟨hstart, hnested.imp (fun hlt => ?_) fun hlt => ⟨hstart, ?_⟩⟩
  · exact hf.stop_le_start hc ho' hlt
  · have := hf.room c (List.mem_of_getElem? hc)
    have := hf.stop_le_start hc' hc hlt
    show c'.stop < c.stop
    omega

/-- **One list for every opener**, and it starts there. -/
theorem map_fst_spans {f : Forms} (hf : f.Balanced) :
    f.spans.map Prod.fst =
      ((f.lexemes.map Lexeme.toToken).filter fun t => t.kind = .openParen).map Token.start := by
  induction f with
  | nil => rfl
  | atom x rest ih => simpa [spans, lexemes, hf.1.1] using ih hf.2
  | list o inner c rest ihi ihr =>
    obtain ⟨⟨ho, hc, -⟩, hbi, hbr⟩ := hf
    simp only [spans, lexemes, List.map_cons, List.map_append, ihi hbi, ihr hbr, List.filter_cons,
      List.filter_append]
    simp [ho, hc]

/-- **A list runs from an opener to its partner**, and every such pair is a list. -/
theorem mem_spans_iff {f : Forms} (hf : f.Balanced) {s : Nat × Nat} :
    s ∈ f.spans ↔ ∃ i j, Partner (f.lexemes.map Lexeme.toToken) i j ∧
      SpanOf (f.lexemes.map Lexeme.toToken) (i, j) s := by
  have hspans : List.Forall₂ (SpanOf (f.lexemes.map Lexeme.toToken)) (f.partners 0) f.spans := by
    simpa using f.forall₂_spans [] []
  constructor
  · intro hs
    obtain ⟨⟨i, j⟩, hmem, hspan⟩ := exists_mem_of_forall₂ hspans hs
    exact ⟨i, j, (mem_partners_iff hf).1 hmem, hspan⟩
  · rintro ⟨i, j, hpartner, o, c, ho, hc, rfl⟩
    obtain ⟨t, ht, o', c', ho', hc', rfl⟩ :=
      exists_mem_of_forall₂ hspans.flip ((mem_partners_iff hf).2 hpartner)
    obtain rfl : o' = o := Option.some.inj (ho'.symm.trans ho)
    obtain rfl : c' = c := Option.some.inj (hc'.symm.trans hc)
    exact ht

end Forms

namespace Buffer

/-! ### the innermost list -/

/-- The list is around the point, and it lies in every other list around the point. -/
structure Innermost (spans : List Span) (point : Int) (s : Span) : Prop where
  mem : s ∈ spans
  around : Around point s
  inside : ∀ t ∈ spans, Around point t → t ≠ s → Inside s t

/-- **The last list to open around a point is the innermost one.** -/
theorem innermost_of_getLast? {spans : List Span} {point : Int} {s : Span}
    (hspans : spans.Pairwise fun s t => s.1 < t.1 ∧ (Apart s t ∨ Inside t s))
    (h : (spans.filter fun s => s.1 ≤ point && point < s.2).getLast? = some s) :
    Innermost spans point s := by
  have haround : ∀ {t : Span}, (t.1 ≤ point && point < t.2) = true → Around point t := by
    intro t ht
    simpa [Around] using ht
  obtain ⟨hmem, hs⟩ := List.mem_filter.1 (List.mem_of_getLast? h)
  refine ⟨hmem, haround hs, fun t ht htp hne => ?_⟩
  have htmem : t ∈ spans.filter fun s => s.1 ≤ point && point < s.2 :=
    List.mem_filter.2 ⟨ht, by simpa [Around] using htp⟩
  obtain ⟨ts, hts⟩ := List.getLast?_eq_some_iff.1 h
  have hpair := hspans.filter fun s => s.1 ≤ point && point < s.2
  rw [hts] at htmem hpair
  have htts : t ∈ ts := by simpa [hne] using htmem
  obtain ⟨-, hor⟩ := (List.pairwise_append.1 hpair).2.2 t htts s (by simp)
  -- two lists around one point are not apart
  refine hor.resolve_left fun hapart => ?_
  have h1 : point < t.2 := htp.2
  have h2 : s.1 ≤ point := (haround hs).1
  simp only [Apart] at hapart
  omega

theorem enclosingList_eq_error_iff {text : Text} {point : Int} {spans : List Span}
    (h : Forms.spansOf text = .ok spans) :
    enclosingList text point = .error (.noEnclosingList point) ↔ ∀ s ∈ spans, ¬ Around point s := by
  constructor
  · intro herr s hs haround
    obtain ⟨inner, hinner, -⟩ := exists_enclosingList h ⟨s, hs, haround⟩
    simp [hinner] at herr
  · intro hnone
    have hempty : (spans.filter fun s => s.1 ≤ point && point < s.2) = [] := by
      refine List.filter_eq_nil_iff.2 fun s hs => ?_
      simpa [Around] using hnone s hs
    simp only [enclosingList, h, hempty, List.getLast?_nil]

theorem innermost_of_enclosingList {text : Text} {point : Int} {spans : List Span} {s : Span}
    (h : Forms.spansOf text = .ok spans)
    (hspans : spans.Pairwise fun s t => s.1 < t.1 ∧ (Apart s t ∨ Inside t s))
    (hs : enclosingList text point = .ok s) : Innermost spans point s := by
  simp only [enclosingList, h] at hs
  split at hs
  · next hlast =>
    cases hs
    exact innermost_of_getLast? hspans hlast
  · cases hs

theorem getLast?_eq_max? {α : Type} [LinearOrder α] {l : List α} (h : l.Pairwise (· < ·)) :
    l.getLast? = l.max? := by
  cases hlast : l.getLast? with
  | none => simp [List.getLast?_eq_none_iff.1 hlast]
  | some a =>
    refine (List.max?_eq_some_iff.2 ⟨List.mem_of_getLast? hlast, fun b hb => ?_⟩).symm
    obtain ⟨bs, rfl⟩ := List.getLast?_eq_some_iff.1 hlast
    rcases List.mem_append.1 hb with hb | hb
    · exact le_of_lt ((List.pairwise_append.1 h).2.2 b hb a (by simp))
    · exact le_of_eq (List.mem_singleton.1 hb)

theorem pairwise_of_spansOf {text : Text} {spans : List Span} (h : Forms.spansOf text = .ok spans) :
    spans.Pairwise fun s t => s.1 < t.1 ∧ (Apart s t ∨ Inside t s) := by
  obtain ⟨f, tail, hf, rfl, -⟩ := Forms.exists_of_spansOf h
  exact Forms.pairwise_spans (inOrder_of_scan (Forms.ofText_eq_ok hf))

/-- **The last list to open around a point is the greatest one**, by its start and then by its
stop. -/
theorem enclosingList_eq_max? {text : Text} {spans : List Span} (h : Forms.spansOf text = .ok spans)
    (point : Int) :
    enclosingList text point =
      match ((spans.filter fun s => s.1 ≤ point && point < s.2).map toLex).max? with
      | some s => .ok (ofLex s)
      | none => .error (.noEnclosingList point) := by
  have hincreasing :
      ((spans.filter fun s => s.1 ≤ point && point < s.2).map toLex).Pairwise (· < ·) := by
    refine List.pairwise_map.2 ((pairwise_of_spansOf h).filter _ |>.imp fun hlt => ?_)
    exact Prod.Lex.toLex_lt_toLex.2 (.inl hlt.1)
  rw [← getLast?_eq_max? hincreasing, List.getLast?_map]
  simp only [enclosingList, h]
  cases (spans.filter fun s => s.1 ≤ point && point < s.2).getLast? <;> rfl

/-- **Lists are nested, and the innermost one is taken.**  Where the brackets of a text match, its
lists start at its openers, in order, and run from an opener to its partner; two of them are apart
or one is strictly inside the other.  At a point with no list around it there is nothing to take,
and at every other point it is the list that lies in all the others around the point. -/
theorem enclosingList_innermost {src : Text} {s : Passage} (hs : Passage.scan src = .ok s)
    (hb : BracketsMatch s.tokens) :
    ∃ spans, Forms.spansOf src = .ok spans ∧
      spans.Pairwise (fun a b => a.1 < b.1) ∧
      spans.map Prod.fst = (s.tokens.filter fun t => t.kind = .openParen).map Token.start ∧
      (∀ a, a ∈ spans ↔ ∃ i j, Partner s.tokens i j ∧ SpanOf s.tokens (i, j) a) ∧
      (∀ a ∈ spans, ∀ b ∈ spans, a ≠ b → Apart a b ∨ Apart b a ∨ Inside a b ∨ Inside b a) ∧
      ∀ point : Int,
        (enclosingList src point = .error (.noEnclosingList point) ↔
          ∀ a ∈ spans, ¬ Around point a) ∧
        ((∃ a ∈ spans, Around point a) → ∃ a, enclosingList src point = .ok a ∧
          Innermost spans point a) := by
  obtain ⟨f, hf, hlex⟩ := (bracketsMatch_iff hs).1 hb
  have hbal := (Forms.ofText_eq_ok_iff.1 hf).2.1
  have htokens : s.tokens = f.lexemes.map Lexeme.toToken := by rw [hlex, Passage.tokens]
  have hspans : Forms.spansOf src = .ok f.spans := by
    simp [Forms.spansOf, hf, bind, Except.bind, pure, Except.pure]
  have hpair := pairwise_of_spansOf hspans
  rw [htokens]
  refine ⟨f.spans, hspans, hpair.imp fun h => h.1, Forms.map_fst_spans hbal,
    fun a => Forms.mem_spans_iff hbal, ?_, ?_⟩
  · intro a ha b hb' hne
    have hsymm : Std.Symm fun a b : Nat × Nat => Apart a b ∨ Apart b a ∨ Inside a b ∨ Inside b a :=
      ⟨fun _ _ h => by tauto⟩
    have hall : f.spans.Pairwise fun a b => Apart a b ∨ Apart b a ∨ Inside a b ∨ Inside b a :=
      hpair.imp fun h => by tauto
    exact hall.forall ha hb' hne
  · intro point
    refine ⟨enclosingList_eq_error_iff hspans, fun haround => ?_⟩
    obtain ⟨a, ha, -, -⟩ := exists_enclosingList hspans haround
    exact ⟨a, ha, innermost_of_enclosingList hspans hpair ha⟩

/-- Brackets in a character, a string and a comment, lists in lists and a list that touches another
one. -/
theorem enclosingList_innermost_quoted :
    ∃ s, Passage.scan "(a [?) \"x)\" ;c)\n(b)] 'd)(e)".toList = .ok s ∧ BracketsMatch s.tokens ∧
      Forms.spansOf "(a [?) \"x)\" ;c)\n(b)] 'd)(e)".toList =
        .ok [(0, 24), (3, 20), (16, 19), (24, 27)] ∧
      enclosingList "(a [?) \"x)\" ;c)\n(b)] 'd)(e)".toList 9 = .ok (3, 20) ∧
      Innermost [(0, 24), (3, 20), (16, 19), (24, 27)] 9 (3, 20) ∧
      enclosingList "(a [?) \"x)\" ;c)\n(b)] 'd)(e)".toList (-1) =
        .error (.noEnclosingList (-1)) := by
  obtain ⟨⟨f, tail⟩, hf⟩ :=
    exists_of_isOk (x := Forms.ofText "(a [?) \"x)\" ;c)\n(b)] 'd)(e)".toList) (by decide +kernel)
  have hs := Forms.ofText_eq_ok hf
  have hb := (Forms.ofText_eq_ok_iff.1 hf).2.1.bracketsMatch
  obtain ⟨spans, hspans, -, -, -, -, hpoint⟩ := enclosingList_innermost hs hb
  have hfour : Forms.spansOf "(a [?) \"x)\" ;c)\n(b)] 'd)(e)".toList =
      .ok [(0, 24), (3, 20), (16, 19), (24, 27)] := by
    decide +kernel
  obtain rfl : [(0, 24), (3, 20), (16, 19), (24, 27)] = spans :=
    Except.ok.inj (hfour.symm.trans hspans)
  obtain ⟨a, ha, hinner⟩ := (hpoint 9).2 ⟨(3, 20), by simp, by simp [Around]⟩
  obtain rfl : a = (3, 20) := by
    have hmem := hinner.mem
    have haround := hinner.around
    have hinside := hinner.inside (3, 20) (by simp) (by simp [Around])
    simp only [List.mem_cons, List.not_mem_nil, or_false] at hmem
    rcases hmem with rfl | rfl | rfl | rfl
    · simp [Inside] at hinside
    · rfl
    · simp [Around] at haround
    · simp [Around] at haround
  exact ⟨_, hs, hb, hfour, ha, hinner, (hpoint (-1)).1.2 (by simp [Around])⟩

end Buffer

end SexpLayout
