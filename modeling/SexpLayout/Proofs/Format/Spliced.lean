import SexpLayout.Proofs.Forms.Spliced
import SexpLayout.Proofs.Format.Canonical

/-!
# Formatting lists with splices

A list in which a `,` comes to touch an atom that starts with an `@` does not keep its words.  It is
still laid out as a list around the same lists, as long as the atom takes nothing that follows it.

* `staysList_of_lists` — **one level**: a list is formatted to a list if the lists in it are;
* `staysList_of_spliceSafe` — every safe list is.
-/

namespace SexpLayout

open Lexeme (spell)

section Formatting

variable (config : Config) (mode : Mode)

theorem formatted_of_length_le (context : Bool) {t : Text} {vs : List Word} (h : ListReading t vs)
    (hlen : t.length ≤ 2) : formatted config mode context t = t := by
  obtain ⟨o, inner, c, -, ho, hc, hcl, -, hread, rfl⟩ := h.exists_reading
  obtain ⟨rfl, -⟩ := eq_nil_of_length_le hread hcl hlen
  obtain ⟨b, -, hb, -, hopen, -⟩ := closes_cases hcl
  have hs : SpliceFree vs := by
    rcases hread.cons_cases with ⟨ts, -, hrest, rfl⟩ | ⟨_, _, hk, -⟩
    · rcases hrest.cons_cases with ⟨_, -, hnil, rfl⟩ | ⟨_, _, hk, -⟩
      · cases hnil
        refine List.isChain_pair.2 fun hcomma => ?_
        obtain rfl : b = ',' := by simpa [Lexeme.word, hb] using hcomma
        exact absurd hopen (by decide)
      · simp [hc] at hk
    · simp [ho] at hk
  exact (formats_of_listReading config mode context h hs).empty hlen

/-- A list can be formatted, and the result is a list that opens in the same way. -/
structure StaysList (config : Config) (mode : Mode) (context : Bool) (t : Text) : Prop where
  outcome : (formatForm config mode true (some context) t).outcome =
    .ok (formatted config mode context t)
  words : ∃ ws, ListReading (formatted config mode context t) ws
  head : (formatted config mode context t).head? = t.head?

/-- **One level of formatting**: a safe list stays a list if the lists in it do. -/
theorem staysList_of_lists {context : Bool} {t : Text} {o c : Lexeme} {inner : List Lexeme}
    {ws : List Word} (hgap : o.gap = []) (ho : o.kind = .openParen) (hc : c.kind = .closeParen)
    (hcl : Forms.closes o.text c.text = true) (hbf : BracketFree inner)
    (hp : Passage.ofExpression t = .ok ⟨o :: (inner ++ [c]), []⟩)
    (hread : Reading (o :: (inner ++ [c])) [] ws) (hs : SpliceSafe ws)
    (hf : ∀ l ∈ inner, l.kind = .compound → StaysList config mode context l.text) :
    StaysList config mode context t := by
  obtain ⟨xs, g, us, hspell, hrelaid, hfree, hmem⟩ :=
    hread.exists_respaced ho hc hbf hs (spaced_gapsOf config mode (some context) hp)
  have hq := (Passage.ofExpression_of_reading hrelaid (.list ho hc hcl hfree) (by simp)).1
  rw [List.append_nil, ← hspell, ← relaid_eq_spell config mode (some context) hp] at hq
  -- a list that is found was there before
  have hlists : ∀ x ∈ { o with gap := [] } :: (xs ++ [{ c with gap := g }]), x.kind = .compound →
      StaysList config mode context x.text := by
    intro x hx hk
    simp only [List.mem_cons, List.mem_append, List.not_mem_nil, or_false] at hx
    rcases hx with rfl | hx | rfl
    · simp [ho] at hk
    · obtain ⟨l, hl, hkind, htext⟩ := hmem x hx hk
      exact htext ▸ hf l hl hkind
    · simp [hc] at hk
  have hout :=
    outcome_formatForm_of_relaid config mode (some context) hp (by simp) hq fun l hl hk => by
    obtain ⟨x, hx, hkind, htext⟩ := Lexeme.exists_mem_of_map_word (Lexeme.map_word_placed ..) hl
    obtain ⟨vs, hvs, -⟩ := hrelaid.exists_infix_of_mem hx (hkind.trans hk)
    rw [← htext]
    exact ⟨(hlists x hx (hkind.trans hk)).outcome, formatted_of_length_le config mode context hvs⟩
  rw [contextOf_some, Passage.formatted, spell_map_retext_placed, List.append_nil] at hout
  obtain ⟨vs, hnew⟩ := hrelaid.exists_retext (f := fun l => formatted config mode context l.text)
    fun x hx hk => ⟨(hlists x hx hk).words, (hlists x hx hk).head⟩
  -- the brackets stay
  have hmap : ({ o with gap := [] } :: (xs ++ [{ c with gap := g }])).map
      (Lexeme.retext fun l => formatted config mode context l.text) =
      { o with gap := [] } ::
        (xs.map (Lexeme.retext fun l => formatted config mode context l.text) ++
          [{ c with gap := g }]) := by
    simp [Lexeme.retext_of_ne, ho, hc]
  rw [hmap] at hout hnew
  have heq := formatted_of_outcome hout
  refine ⟨by rw [hout, heq], ⟨vs, ?_⟩, ?_⟩
  · rw [heq]
    exact hnew.listReading rfl ho hc hcl (hfree.of_sameShape (forall₂_sameShape_retext _ _))
  · obtain ⟨b, e, hb, -⟩ := closes_cases hcl
    rw [heq, ← Passage.ofExpression_text hp]
    simp [Passage.text, Lexeme.source, hb, hgap]

/-- **Every safe list can be formatted**, and the result is a list. -/
theorem staysList_of_spliceSafe (context : Bool) {t : Text} {vs : List Word} (h : ListReading t vs)
    (hs : SpliceSafe vs) : StaysList config mode context t := by
  -- the lists inside have less ink
  induction hn : t.ink using Nat.strong_induction_on generalizing t vs with
  | _ n ih =>
    obtain ⟨o, inner, c, hgap, ho, hc, hcl, hbf, hp, hw⟩ := h.ofExpression
    have hread := reading_of_words hp hw
    refine staysList_of_lists config mode hgap ho hc hcl hbf hp hread hs fun l hl hk => ?_
    have hl : l ∈ o :: (inner ++ [c]) := by simp [hl]
    obtain ⟨us, hus, hin⟩ := hread.exists_infix_of_mem hl hk
    exact ih l.text.ink (hn ▸ Passage.ink_lt_of_mem_ofExpression hp hl hk) hus
      (hs.of_isInfix hin) rfl

theorem exists_outcome_of_spliceSafe (context : Option Bool) {t : Text} {vs : List Word}
    (h : ListReading t vs) (hs : SpliceSafe vs) :
    ∃ out ws, (formatForm config mode true context t).outcome = .ok out ∧ ListReading out ws := by
  obtain ⟨o, inner, c, -, -, -, -, -, hp, -⟩ := h.ofExpression
  have hstays :=
    staysList_of_spliceSafe config mode (contextOf config context ⟨o :: (inner ++ [c]), []⟩) h hs
  obtain ⟨ws, hread⟩ := hstays.words
  refine ⟨_, ws, ?_, hread⟩
  rw [← formatForm_contextOf config mode context true hp, hstays.outcome]

end Formatting

end SexpLayout
