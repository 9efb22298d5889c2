import SexpLayout.Proofs.Format.InPlace
import SexpLayout.Proofs.Format.Relaid

/-!
# The canonical form

Every list without a `,` in front of an `@` can be formatted (`formats_of_listReading`), by
induction on its ink.  So a form is formatted in one piece from its words: the words stay, blanks do
not matter, and the order of the work does not matter either.

* `formatForm_keeps_words` — the words of a form are those of the formatted form;
* `formatForm_eq_laidText` — formatting from the outside in is formatting from the inside out;
* `formatForm_eq_of_words` — forms with the same words are formatted to the same text.
-/

namespace SexpLayout

open Lexer (OpensList)
open Lexeme (spell spell_cons spell_append word)
open Token (Alike)

/-! ### expressions -/

section Expression

variable {text : Text} {p : Passage} {ws : List Word}

theorem reading_of_words (hp : Passage.ofExpression text = .ok p) (hw : wordsOf text = .ok ws) :
    Reading p.lexemes p.tail ws := by
  obtain ⟨ws', hw', hread, -⟩ := Passage.reading_of_ofExpression hp
  obtain rfl : ws = ws' := Except.ok.inj (hw.symm.trans hw')
  exact hread

theorem exists_infix_of_mem_ofExpression (hp : Passage.ofExpression text = .ok p)
    (hw : wordsOf text = .ok ws) {l : Lexeme} (hl : l ∈ p.lexemes) (hk : l.kind = .compound) :
    ∃ vs, ListReading l.text vs ∧ vs <:+: ws :=
  (reading_of_words hp hw).exists_infix_of_mem hl hk

theorem lexemes_ne_nil (hp : Passage.ofExpression text = .ok p) (hw : wordsOf text = .ok ws)
    (hne : ws ≠ []) :
    p.lexemes ≠ [] := by
  have h := reading_of_words hp hw
  intro e
  rw [e] at h
  cases h
  exact hne rfl

end Expression

theorem ListReading.ofExpression {t : Text} {vs : List Word} (h : ListReading t vs) :
    ∃ o inner c, o.gap = [] ∧ o.kind = .openParen ∧ c.kind = .closeParen ∧
      Forms.closes o.text c.text = true ∧ BracketFree inner ∧
        Passage.ofExpression t = .ok ⟨o :: (inner ++ [c]), []⟩ ∧ wordsOf t = .ok vs := by
  obtain ⟨o, inner, c, hgap, ho, hc, hcl, hf, hread, rfl⟩ := h.exists_reading
  have hexp := Passage.ofExpression_of_reading hread (.list ho hc hcl hf) (by simp)
  obtain ⟨o', inner', c', e, ho', hc', hcl', hf'⟩ :=
    exists_of_sameShape (forall₂_sameShape_placed 0 _) ho hc hcl hf
  have hgap' : o'.gap = [] := by
    rw [← (List.cons.inj e).1]
    exact hgap
  rw [List.append_nil, e] at hexp
  exact ⟨o', inner', c', hgap', ho', hc', hcl', hf', hexp.1, hexp.2⟩

theorem ListReading.words_unique {t : Text} {vs ws : List Word} (hv : ListReading t vs)
    (hw : ListReading t ws) :
    vs = ws := by
  obtain ⟨_, _, _, -, -, -, -, -, -, h1⟩ := hv.ofExpression
  obtain ⟨_, _, _, -, -, -, -, -, -, h2⟩ := hw.ofExpression
  exact Except.ok.inj (h1.symm.trans h2)

/-! ### empty lists -/

theorem gaps_pair {mode : Mode} {context : Option Bool} {table : SkipTable} {arity : Arity}
    {o c : Token} (ho : o.kind = .openParen) :
    (Layout.ofTokens mode context table [o, c]).gaps table arity = [.nothing, .nothing] := by
  have hafter : ∀ m, (Gap.afterFree m o c).1 = .nothing := by
    intro m
    simp only [Gap.afterFree, Gap.clings, ho]
    split_ifs <;> simp_all
  have hcells : (Layout.ofTokens mode context table [o, c]).cells =
      [⟨o.text, .nothing⟩, ⟨c.text, .nothing⟩] := by
    simp [Layout.ofTokens, Layout.cellsFrom, hafter, Gap.after]
  rw [Layout.gaps, hcells, Layout.fold_of_ne_soft (by simp)]
  rfl

/-! ### all lists can be formatted -/

section Formatting

variable (config : Config) (mode : Mode)

theorem reading_formatted (context : Option Bool) {text : Text} {p : Passage} {ws : List Word}
    (hp : Passage.ofExpression text = .ok p) (hw : wordsOf text = .ok ws) (hs : SpliceFree ws)
    (hf : ∀ l ∈ p.lexemes, l.kind = .compound →
      Formats config mode (contextOf config context p) l.text) :
    Reading
      (Lexeme.spaced [] (p.formatted config mode (contextOf config context p))
        (gapsOf config mode context p))
      [] ws := by
  have h := (reading_relaid config mode context hp hw hs).1.retext
    (f := fun l => formatted config mode (contextOf config context p) l.text) ?_
  · rwa [map_retext_spaced] at h
  · intro u hu hk
    obtain ⟨m, hm, hkind, htext⟩ := Lexeme.exists_mem_of_map_word (Lexeme.map_word_spaced ..) hu
    rw [← htext]
    exact (hf m hm (hkind.trans hk)).words

/-- A list with two characters is its two brackets. -/
theorem eq_nil_of_length_le {o c : Lexeme} {inner : List Lexeme} {ws : List Word}
    (h : Reading (o :: (inner ++ [c])) [] ws) (hcl : Forms.closes o.text c.text = true)
    (hlen : (spell (o :: (inner ++ [c]))).length ≤ 2) : inner = [] ∧ c.gap = [] := by
  obtain ⟨b, e, hb, he, -, -⟩ := closes_cases hcl
  have hsum : (spell inner).length + c.gap.length = 0 := by
    simp only [spell_cons, spell_append, Lexeme.source, hb, he, List.length_append,
      List.length_cons, List.length_nil, Lexeme.spell_nil] at hlen
    omega
  constructor
  · cases inner with
    | nil => rfl
    | cons l ls =>
      exfalso
      obtain ⟨vs, hread⟩ := h.exists_tail
      obtain ⟨d, s, hd, -⟩ := hread.exists_head
      simp only [spell_cons, Lexeme.source, hd, List.length_append, List.length_cons] at hsum
      omega
  · exact List.length_eq_zero_iff.1 (by omega)

theorem drawnFrom_formatted {context : Bool} {text : Text} {p : Passage}
    (hp : Passage.ofExpression text = .ok p)
    (hf : ∀ l ∈ p.lexemes, l.kind = .compound → Formats config mode context l.text)
    (gs : List Gap) :
    Text.DrawnFrom (spell (Lexeme.spaced [] (p.formatted config mode context) gs)) text := by
  refine drawnFrom_spaced ?_ (by simp [Text.DrawnFrom]) gs
  intro u hu
  obtain ⟨l, hl, rfl⟩ := List.mem_map.1 hu
  refine drawnFrom_retext ?_ fun hk => (hf l hl hk).drawn
  intro c hc
  rw [← Passage.ofExpression_text hp]
  exact List.mem_append_left _ (mem_spell_of_mem hl (List.mem_append_right _ hc))

theorem listReading_formatted {context : Bool} {o c : Lexeme} {inner : List Lexeme} {tail : Text}
    {ws : List Word} (ho : o.kind = .openParen) (hc : c.kind = .closeParen)
    (hcl : Forms.closes o.text c.text = true) (hf : BracketFree inner) {gs : List Gap}
    (h : Reading
      (Lexeme.spaced [] (Passage.formatted config mode context ⟨o :: (inner ++ [c]), tail⟩) gs)
      [] ws) :
    ListReading
      (spell (Lexeme.spaced []
        (Passage.formatted config mode context ⟨o :: (inner ++ [c]), tail⟩) gs)) ws := by
  obtain ⟨o₁, inner₁, c₁, e₁, ho₁, hc₁, hcl₁, hf₁⟩ :=
    exists_of_sameShape
      (forall₂_sameShape_retext (fun l => formatted config mode context l.text) _) ho hc hcl hf
  obtain ⟨o₂, inner₂, c₂, e₂, ho₂, hc₂, hcl₂, hf₂⟩ :=
    exists_of_sameShape (forall₂_sameShape_spaced [] _ gs) ho₁ hc₁ hcl₁ hf₁
  rw [Passage.formatted, e₁, e₂] at h ⊢
  refine h.listReading ?_ ho₂ hc₂ hcl₂ hf₂
  rw [← (List.cons.inj e₂).1]

/-- **Every list can be formatted and keeps its words.** -/
theorem formats_of_listReading (context : Bool) {t : Text} {vs : List Word} (h : ListReading t vs)
    (hs : SpliceFree vs) : Formats config mode context t := by
  -- the lists inside have less ink
  induction hn : t.ink using Nat.strong_induction_on generalizing t vs with
  | _ n ih =>
    obtain ⟨o, inner, c, hgap, ho, hc, hcl, hbf, hp, hw⟩ := h.ofExpression
    have hread := reading_of_words hp hw
    have hf : ∀ l ∈ o :: (inner ++ [c]), l.kind = .compound →
        Formats config mode context l.text := by
      intro l hl hk
      obtain ⟨us, hus, hin⟩ := hread.exists_infix_of_mem hl hk
      exact ih l.text.ink (hn ▸ Passage.ink_lt_of_mem_ofExpression hp hl hk) hus
        (hs.of_isInfix hin) rfl
    have hout := outcome_formatForm config mode (some context) hp hw hs (by simp) hf
    have hnew := reading_formatted config mode (some context) hp hw hs hf
    rw [contextOf_some] at hout hnew
    have heq := formatted_of_outcome hout
    refine ⟨by rw [hout, heq], ?_, ?_, ?_⟩
    · intro ws hws
      obtain rfl := hws.words_unique h
      rw [heq]
      exact listReading_formatted config mode ho hc hcl hbf hnew
    · rw [heq]
      exact drawnFrom_formatted config mode hp hf _
    · intro hlen
      rw [← Passage.ofExpression_text hp] at hlen
      obtain ⟨rfl, hcgap⟩ := eq_nil_of_length_le hread hcl (by simpa [Passage.text] using hlen)
      have hgaps : gapsOf config mode (some context) ⟨[o, c], []⟩ = [.nothing, .nothing] :=
        gaps_pair ho
      have htext :
          [o, c].map (Lexeme.retext fun l => formatted config mode context l.text) = [o, c] := by
        simp [Lexeme.retext_of_ne, ho, hc]
      rw [heq, ← Passage.ofExpression_text hp]
      simp [Passage.formatted, htext, hgaps, Lexeme.spaced, Lexeme.source, Gap.text,
        Passage.text, hgap, hcgap]

/-! ### forms -/

variable (context : Option Bool) {text : Text} {p : Passage} {ws : List Word}

theorem formats_of_mem (hp : Passage.ofExpression text = .ok p) (hw : wordsOf text = .ok ws)
    (hs : SpliceFree ws) (context : Bool) {l : Lexeme} (hl : l ∈ p.lexemes)
    (hk : l.kind = .compound) :
    Formats config mode context l.text := by
  obtain ⟨vs, hvs, hin⟩ := exists_infix_of_mem_ofExpression hp hw hl hk
  exact formats_of_listReading config mode context hvs (hs.of_isInfix hin)

theorem outcome_formatForm_of_words (hp : Passage.ofExpression text = .ok p)
    (hw : wordsOf text = .ok ws) (hs : SpliceFree ws) (hne : p.lexemes ≠ []) :
    (formatForm config mode true context text).outcome =
      .ok (spell (Lexeme.spaced [] (p.formatted config mode (contextOf config context p))
        (gapsOf config mode context p))) :=
  outcome_formatForm config mode context hp hw hs hne fun _ hl hk =>
    formats_of_mem config mode hp hw hs _ hl hk

theorem outcome_formatForm_of_nil (deep : Bool) (hp : Passage.ofExpression text = .ok p)
    (hnil : p.lexemes = []) :
    (formatForm config mode deep context text).outcome = .ok text := by
  rw [formatForm_eq, hp, Traced.ofExcept_ok_bind, if_pos (by simp [hnil])]
  rfl

theorem outcome_formatForm_shallow (hp : Passage.ofExpression text = .ok p) (hne : p.lexemes ≠ []) :
    (formatForm config mode false context text).outcome = .ok (relaid config mode context p) := by
  rw [formatForm_eq, hp, Traced.ofExcept_ok_bind, if_neg (by simpa using hne)]
  rfl

theorem wordsOf_relaid (hp : Passage.ofExpression text = .ok p) (hw : wordsOf text = .ok ws)
    (hs : SpliceFree ws) :
    wordsOf (relaid config mode context p) = .ok ws :=
  (ofExpression_relaid config mode context hp hw (spliceFree_top hp hw hs)).2

theorem ofExpression_formatted (hp : Passage.ofExpression text = .ok p) (hw : wordsOf text = .ok ws)
    (hs : SpliceFree ws) :
    Passage.ofExpression
      (spell (Lexeme.spaced [] (p.formatted config mode (contextOf config context p))
        (gapsOf config mode context p))) =
      .ok ⟨Lexeme.placed 0 (Lexeme.spaced [] (p.formatted config mode (contextOf config context p))
        (gapsOf config mode context p)), []⟩ ∧
    wordsOf (spell (Lexeme.spaced [] (p.formatted config mode (contextOf config context p))
      (gapsOf config mode context p))) = .ok ws := by
  have hnew := reading_formatted config mode context hp hw hs fun _ hl hk =>
    formats_of_mem config mode hp hw hs _ hl hk
  have hshape :=
    (reading_relaid config mode context hp hw hs).2.of_sameShape (forall₂_sameShape_retext
      (fun l => formatted config mode (contextOf config context p) l.text) _)
  rw [map_retext_spaced] at hshape
  simpa using Passage.ofExpression_of_reading hnew hshape (by simp)

theorem wordsOf_formatted (hp : Passage.ofExpression text = .ok p) (hw : wordsOf text = .ok ws)
    (hs : SpliceFree ws) :
    wordsOf (spell (Lexeme.spaced [] (p.formatted config mode (contextOf config context p))
      (gapsOf config mode context p))) = .ok ws :=
  (ofExpression_formatted config mode context hp hw hs).2

/-- **Formatting keeps the words.**  Every form in which no `,` is in front of an `@` is formatted,
and the formatted text is read as the same words. -/
theorem formatForm_keeps_words (deep : Bool) (hp : Passage.ofExpression text = .ok p)
    (hw : wordsOf text = .ok ws) (hs : SpliceFree ws) :
    ∃ out, (formatForm config mode deep context text).outcome = .ok out ∧ wordsOf out = .ok ws := by
  by_cases hne : p.lexemes = []
  · exact ⟨text, outcome_formatForm_of_nil config mode context deep hp hne, hw⟩
  cases deep with
  | false =>
    exact ⟨_, outcome_formatForm_shallow config mode context hp hne,
      wordsOf_relaid config mode context hp hw hs⟩
  | true =>
    exact ⟨_, outcome_formatForm_of_words config mode context hp hw hs hne,
      wordsOf_formatted config mode context hp hw hs⟩

theorem formatForm_keeps_words_marks :
    SpliceFree [(.openParen, ['(']), (.punctuation, [',']), (.symbol, ['a']),
      (.comment, [';', 'x']), (.punctuation, ['#', 's']), (.openParen, ['(']), (.other, ['?', '(']),
      (.symbol, ['1', '-']), (.closeParen, [')']), (.closeParen, [')'])] ∧
    ∃ out, (formatForm .standard .multiLine true none "( , a;x\n#s(?( 1- ))".toList).outcome =
        .ok out ∧
      wordsOf out = .ok [(.openParen, ['(']), (.punctuation, [',']), (.symbol, ['a']),
        (.comment, [';', 'x']), (.punctuation, ['#', 's']), (.openParen, ['(']),
        (.other, ['?', '(']), (.symbol, ['1', '-']), (.closeParen, [')']),
        (.closeParen, [')'])] := by
  obtain ⟨p, hp⟩ :=
    exists_of_isOk (x := Passage.ofExpression "( , a;x\n#s(?( 1- ))".toList) (by decide +kernel)
  exact ⟨by decide +kernel,
    formatForm_keeps_words _ _ _ _ hp (by decide +kernel) (by decide +kernel)⟩

/-! ### from the inside out -/

/-- A token, with its text formatted in a newline context if it is a list. -/
def formatToken (config : Config) (mode : Mode) (context : Bool) (t : Token) :
    Except ReadError Token :=
  if t.kind = .compound then
    (formatForm config mode true (some context) t.text).outcome.map fun new =>
      { t with text := new }
  else .ok t

theorem formatToken_eq {context : Bool} {l : Lexeme}
    (hf : l.kind = .compound → Formats config mode context l.text) :
    formatToken config mode context l.toToken =
      .ok (l.retext fun l => formatted config mode context l.text).toToken := by
  unfold formatToken
  by_cases hk : l.kind = .compound
  · rw [if_pos hk, (hf hk).outcome, Lexeme.retext, if_pos hk]
    rfl
  · rw [if_neg hk, Lexeme.retext_of_ne _ hk]

theorem mapM_formatToken {context : Bool} {ls : List Lexeme}
    (hf : ∀ l ∈ ls, l.kind = .compound → Formats config mode context l.text) :
    (ls.map Lexeme.toToken).mapM (formatToken config mode context) =
      .ok ((ls.map (Lexeme.retext fun l => formatted config mode context l.text)).map
        Lexeme.toToken) := by
  induction ls with
  | nil => rfl
  | cons l ls ih =>
    rw [List.map_cons, List.mapM_cons, formatToken_eq config mode (hf l (by simp)),
      ih fun m hm => hf m (by simp [hm])]
    rfl

theorem forall₂_alike_retext {context : Bool} {ls : List Lexeme} {r : Text} (h : Reading ls r ws)
    (hf : ∀ l ∈ ls, l.kind = .compound → Formats config mode context l.text) :
    List.Forall₂ Alike (ls.map Lexeme.toToken)
      ((ls.map (Lexeme.retext fun l => formatted config mode context l.text)).map
        Lexeme.toToken) := by
  rw [List.map_map, List.forall₂_map_left_iff, List.forall₂_map_right_iff, List.forall₂_same]
  intro l hl
  refine ⟨(Lexeme.retext_kind _ l).symm, fun hk => ?_, fun hk => ?_⟩
  · rw [Function.comp_apply, Lexeme.retext_of_ne _ hk]
  · obtain ⟨vs, hvs, -⟩ := h.exists_infix_of_mem hl hk
    refine ⟨hvs.opensList, ?_⟩
    rw [Function.comp_apply, Lexeme.retext_text, if_pos hk]
    exact ((hf l hl hk).words vs hvs).opensList

theorem joined_formatted (hp : Passage.ofExpression text = .ok p) (hne : p.lexemes ≠ [])
    (hf : ∀ l ∈ p.lexemes, l.kind = .compound →
      Formats config mode (contextOf config context p) l.text) :
    (Layout.ofTokens mode (some (contextOf config context p)) config.skipTable
        ((p.formatted config mode (contextOf config context p)).map Lexeme.toToken)).joined
        config.skipTable config.arity =
      spell (Lexeme.spaced [] (p.formatted config mode (contextOf config context p))
        (gapsOf config mode context p)) := by
  obtain ⟨ws, -, hread, -, -, hplaced⟩ := Passage.reading_of_ofExpression hp
  have halike := forall₂_alike_retext config mode hread hf
  have hunsplit := unsplit_of_reading hread hplaced
  have hinked : ∀ l ∈ p.lexemes, l.text ≠ [] := by
    intro l hl e
    have hpos := ((Passage.ofExpression_proper hp).1 l hl).ink_pos
    simp [e] at hpos
  have hunsplit' :=
    unsplit_retext (fun l => formatted config mode (contextOf config context p) l.text)
      hunsplit hinked
    fun l hl hk => by
      obtain ⟨vs, hvs, -⟩ := hread.exists_infix_of_mem hl hk
      exact ((hf l hl hk).words vs hvs).opensList
  have hgaps : (Layout.ofTokens mode (some (contextOf config context p)) config.skipTable
      ((p.formatted config mode (contextOf config context p)).map Lexeme.toToken)).gaps
        config.skipTable config.arity =
      gapsOf config mode context p := by
    have hcongr :=
      Layout.gaps_congr halike mode
        (some (contextOf config context p)) config.skipTable config.arity
      hunsplit hunsplit'
    rw [Passage.formatted, ← hcongr]
    exact congrArg (Layout.gaps config.skipTable config.arity)
      (ofTokens_getD mode context config.skipTable p.tokens)
  have hspaced :
      Gap.Spaced ((p.formatted config mode (contextOf config context p)).map fun u => u.kind)
      (gapsOf config mode context p) := by
    have := spaced_gapsOf config mode context hp
    simpa [Passage.formatted, Function.comp_def] using this
  rw [Layout.joined_ofTokens, hgaps, spell_spaced hspaced (by simpa [Passage.formatted] using hne)]
  simp [Function.comp_def]

theorem outcome_formatForm_inPlace (hp : Passage.ofExpression text = .ok p) (hne : p.lexemes ≠ []) :
    (formatForm config mode true context text).outcome =
      (formatInsideInPlace config mode (contextOf config context p)
        (relaid config mode context p)).outcome := by
  rw [formatForm_eq_inPlace, hp, Traced.ofExcept_ok_bind, if_neg (by simpa using hne)]
  dsimp only
  rw [Traced.outcome_bind_ok rfl, if_pos rfl, context_layoutOf config mode context hne]

/-- **Formatting from the outside in is formatting from the inside out.**  A form is laid out, and
the lists of the new text are formatted in their places, the last one first.  The lists of the form
can as well be formatted by themselves, in its newline context; laying out its tokens with these
texts gives the formatted form. -/
theorem formatForm_eq_laidText (hp : Passage.ofExpression text = .ok p) (hne : p.lexemes ≠ [])
    (hw : wordsOf text = .ok ws) (hs : SpliceFree ws) :
    (formatForm config mode true context text).outcome =
      (formatInsideInPlace config mode (contextOf config context p)
        (relaid config mode context p)).outcome ∧
    ∃ ts out, p.tokens.mapM (formatToken config mode (contextOf config context p)) = .ok ts ∧
      (Layout.ofTokens mode (some (contextOf config context p)) config.skipTable ts).laidText.joined
        config.skipTable config.arity = .ok out ∧
      (formatForm config mode true context text).outcome = .ok out := by
  have hf :=
    fun l hl hk => formats_of_mem config mode hp hw hs (contextOf config context p) (l := l) hl hk
  refine ⟨outcome_formatForm_inPlace config mode context hp hne, _, _,
    mapM_formatToken config mode hf, ?_, outcome_formatForm config mode context hp hw hs hne hf⟩
  rw [Layout.laidText_joined, ← joined_formatted config mode context hp hne hf]
  rfl

theorem formatForm_eq_laidText_nested :
    ∃ p, Passage.ofExpression "(f ( :k 'v)[1 . (x)])".toList = .ok p ∧ p.lexemes.length = 5 ∧
      (formatForm .standard .multiLine true none "(f ( :k 'v)[1 . (x)])".toList).outcome =
        (formatInsideInPlace .standard .multiLine (contextOf .standard none p)
          (relaid .standard .multiLine none p)).outcome ∧
      ∃ ts out, p.tokens.mapM (formatToken .standard .multiLine (contextOf .standard none p)) =
          .ok ts ∧
        (Layout.ofTokens .multiLine (some (contextOf .standard none p))
          SkipTable.standard ts).laidText.joined SkipTable.standard Arity.standard = .ok out ∧
        (formatForm .standard .multiLine true none "(f ( :k 'v)[1 . (x)])".toList).outcome =
          .ok out := by
  obtain ⟨p, hp⟩ :=
    exists_of_isOk (x := Passage.ofExpression "(f ( :k 'v)[1 . (x)])".toList) (by decide +kernel)
  have hlen : p.lexemes.length = 5 := by
    have h :
        (Passage.ofExpression "(f ( :k 'v)[1 . (x)])".toList).map (fun p => p.lexemes.length) =
          .ok 5 := by
      decide +kernel
    rw [hp] at h
    exact Except.ok.inj h
  obtain ⟨ws, hw⟩ :=
    exists_of_isOk (x := wordsOf "(f ( :k 'v)[1 . (x)])".toList) (by decide +kernel)
  have hs : SpliceFree ws := by
    have h : (wordsOf "(f ( :k 'v)[1 . (x)])".toList).map (fun ws => decide (SpliceFree ws)) =
        .ok true := by
      decide +kernel
    rw [hw] at h
    exact of_decide_eq_true (Except.ok.inj h)
  exact ⟨p, hp, hlen,
    formatForm_eq_laidText .standard .multiLine none hp
    (by simp [← List.length_pos_iff, hlen]) hw hs⟩

/-! ### blanks do not matter -/

theorem spell_spaced_congr {us vs : List Lexeme}
    (h : us.map (fun u => u.text) = vs.map fun v => v.text) (lead : Text) (gs : List Gap) :
    spell (Lexeme.spaced lead us gs) = spell (Lexeme.spaced lead vs gs) := by
  induction us generalizing vs lead gs with
  | nil =>
    obtain rfl : vs = [] := by simpa using h.symm
    rfl
  | cons u us ih =>
    obtain ⟨v, vs, rfl, hv, h⟩ := List.map_eq_cons_iff.1 h.symm
    simp only [Lexeme.spaced, spell_cons, Lexeme.source, ih h.symm, hv]

theorem forall₂_alike_of_similar {us vs : List Lexeme} (h : List.Forall₂ Similar us vs) :
    List.Forall₂ Alike (us.map Lexeme.toToken) (vs.map Lexeme.toToken) := by
  rw [List.forall₂_map_left_iff, List.forall₂_map_right_iff]
  refine h.imp fun u v huv => ⟨huv.kind, huv.text, fun hk => ?_⟩
  obtain ⟨ws, h1, h2⟩ := huv.words hk
  exact ⟨h1.opensList, h2.opensList⟩

theorem map_text_retext_congr {us vs : List Lexeme} {f : Text → Text}
    (h : List.Forall₂ Similar us vs)
    (hlists : ∀ u ∈ us, u.kind = .compound → ∀ v ws, ListReading u.text ws → ListReading v ws →
      f u.text = f v) :
    (us.map (Lexeme.retext fun l => f l.text)).map (fun u => u.text) =
      (vs.map (Lexeme.retext fun l => f l.text)).map fun v => v.text := by
  induction h with
  | nil => rfl
  | @cons u v us vs huv _ ih =>
    have htext : (u.retext fun l => f l.text).text = (v.retext fun l => f l.text).text := by
      rw [Lexeme.retext_text, Lexeme.retext_text, ← huv.kind]
      by_cases hk : u.kind = .compound
      · obtain ⟨ws, h1, h2⟩ := huv.words hk
        rw [if_pos hk, if_pos hk, hlists u (by simp) hk _ ws h1 h2]
      · rw [if_neg hk, if_neg hk, huv.text hk]
    simp only [List.map_cons, htext, ih fun w hw => hlists w (by simp [hw])]

/-- One level of formatting gives the same text for similar forms, if it does so for their lists. -/
theorem spell_formatted_congr {a b : Text} {p q : Passage} (hp : Passage.ofExpression a = .ok p)
    (hq : Passage.ofExpression b = .ok q) (h : List.Forall₂ Similar p.lexemes q.lexemes)
    (hlists : ∀ u ∈ p.lexemes, u.kind = .compound → ∀ v vs, ListReading u.text vs →
      ListReading v vs → formatted config mode (contextOf config context p) u.text =
      formatted config mode (contextOf config context p) v) :
    spell (Lexeme.spaced [] (p.formatted config mode (contextOf config context p))
      (gapsOf config mode context p)) =
      spell (Lexeme.spaced [] (q.formatted config mode (contextOf config context q))
        (gapsOf config mode context q)) := by
  have halike := forall₂_alike_of_similar h
  obtain ⟨_, -, hreadp, -, -, hplacedp⟩ := Passage.reading_of_ofExpression hp
  obtain ⟨_, -, hreadq, -, -, hplacedq⟩ := Passage.reading_of_ofExpression hq
  have hcontext : contextOf config context p = contextOf config context q :=
    congrArg context.getD (Layout.newlineContext_congr halike config.skipTable)
  have hgaps : gapsOf config mode context p = gapsOf config mode context q :=
    Layout.gaps_congr halike mode context config.skipTable config.arity
      (unsplit_of_reading hreadp hplacedp)
      (unsplit_of_reading hreadq hplacedq)
  rw [← hcontext, ← hgaps]
  exact spell_spaced_congr (map_text_retext_congr h hlists) _ _

theorem formatted_eq_of_words (context : Bool) {a b : Text} {vs : List Word} (ha : ListReading a vs)
    (hb : ListReading b vs) (hs : SpliceFree vs) :
    formatted config mode context a = formatted config mode context b := by
  induction hn : a.ink using Nat.strong_induction_on generalizing a b vs with
  | _ n ih =>
    obtain ⟨_, _, _, -, -, -, -, -, hp, hwa⟩ := ha.ofExpression
    obtain ⟨_, _, _, -, -, -, -, -, hq, hwb⟩ := hb.ofExpression
    have houta := outcome_formatForm_of_words config mode (some context) hp hwa hs (by simp)
    have houtb := outcome_formatForm_of_words config mode (some context) hq hwb hs (by simp)
    rw [formatted_of_outcome houta, formatted_of_outcome houtb]
    refine spell_formatted_congr config mode (some context) hp hq
      (similar_of_ofExpression hp hq (hwa.trans hwb.symm)) ?_
    intro u hu hk v ws hus hvs
    obtain ⟨ws', hus', hin⟩ := exists_infix_of_mem_ofExpression hp hwa hu hk
    obtain rfl := hus.words_unique hus'
    exact ih u.text.ink (hn ▸ Passage.ink_lt_of_mem_ofExpression hp hu hk) hus hvs
      (hs.of_isInfix hin) rfl

theorem outcome_formatForm_congr {a b : Text} {p q : Passage} {ws : List Word}
    (ha : Passage.ofExpression a = .ok p) (hb : Passage.ofExpression b = .ok q)
    (hwa : wordsOf a = .ok ws) (hwb : wordsOf b = .ok ws) (hne : ws ≠ []) (hs : SpliceFree ws) :
    (formatForm config mode true context a).outcome =
      (formatForm config mode true context b).outcome := by
  have hsim := similar_of_ofExpression ha hb (hwa.trans hwb.symm)
  have heq := spell_formatted_congr config mode context ha hb hsim fun u hu hk v vs hus hvs => by
    obtain ⟨vs', hus', hin⟩ := exists_infix_of_mem_ofExpression ha hwa hu hk
    obtain rfl := hus.words_unique hus'
    exact formatted_eq_of_words config mode _ hus hvs (hs.of_isInfix hin)
  rw [outcome_formatForm_of_words config mode context ha hwa hs (lexemes_ne_nil ha hwa hne), heq,
    outcome_formatForm_of_words config mode context hb hwb hs (lexemes_ne_nil hb hwb hne)]

/-- **Forms with the same words are formatted to the same text.** -/
theorem formatForm_eq_of_words {a b : Text} {p q : Passage} {ws : List Word}
    (ha : Passage.ofExpression a = .ok p) (hb : Passage.ofExpression b = .ok q)
    (hwa : wordsOf a = .ok ws) (hwb : wordsOf b = .ok ws) (hne : ws ≠ []) (hs : SpliceFree ws) :
    ∃ out, (formatForm config mode true context a).outcome = .ok out ∧
      (formatForm config mode true context b).outcome = .ok out := by
  have hout := outcome_formatForm_of_words config mode context ha hwa hs (lexemes_ne_nil ha hwa hne)
  refine ⟨_, hout, ?_⟩
  rw [← outcome_formatForm_congr config mode context ha hb hwa hwb hne hs]
  exact hout

theorem formatForm_eq_of_words_blanks :
    wordsOf "(a( ;x\n)( ))".toList =
      .ok [(.openParen, ['(']), (.symbol, ['a']), (.openParen, ['(']), (.comment, [';', 'x']),
        (.closeParen, [')']), (.openParen, ['(']), (.closeParen, [')']), (.closeParen, [')'])] ∧
    ∃ out, (formatForm .standard .multiLine true none "(a( ;x\n)( ))".toList).outcome = .ok out ∧
      (formatForm .standard .multiLine true none "( a\n(;x \n) ())".toList).outcome = .ok out := by
  obtain ⟨p, hp⟩ :=
    exists_of_isOk (x := Passage.ofExpression "(a( ;x\n)( ))".toList) (by decide +kernel)
  obtain ⟨q, hq⟩ :=
    exists_of_isOk (x := Passage.ofExpression "( a\n(;x \n) ())".toList) (by decide +kernel)
  have hw : wordsOf "(a( ;x\n)( ))".toList =
      .ok [(.openParen, ['(']), (.symbol, ['a']), (.openParen, ['(']), (.comment, [';', 'x']),
        (.closeParen, [')']), (.openParen, ['(']), (.closeParen, [')']), (.closeParen, [')'])] := by
    decide +kernel
  exact ⟨hw,
    formatForm_eq_of_words _ _ _ hp hq hw (by decide +kernel) (by simp) (by decide +kernel)⟩

/-! ### lists in their own newline context -/

/-- A form that is given its own newline context is formatted as without. -/
theorem formatForm_contextOf (deep : Bool) (hp : Passage.ofExpression text = .ok p) :
    formatForm config mode deep (some (contextOf config context p)) text =
      formatForm config mode deep context text := by
  have hlayout : layoutOf config mode (some (contextOf config context p)) p =
      layoutOf config mode context p :=
    ofTokens_getD mode context config.skipTable p.tokens
  rw [formatForm_eq, formatForm_eq, hp]
  simp only [Traced.ofExcept_ok_bind, relaid, hlayout]

theorem exists_outcome_of_listReading {t : Text} {vs : List Word} (h : ListReading t vs)
    (hs : SpliceFree vs) :
    ∃ out, (formatForm config mode true context t).outcome = .ok out ∧ ListReading out vs ∧
      out.DrawnFrom t := by
  obtain ⟨o, inner, c, -, -, -, -, -, hp, -⟩ := h.ofExpression
  have hf :=
    formats_of_listReading config mode (contextOf config context ⟨o :: (inner ++ [c]), []⟩) h hs
  refine ⟨_, ?_, hf.words vs h, hf.drawn⟩
  rw [← formatForm_contextOf config mode context true hp, hf.outcome]

theorem outcome_eq_of_listReading {a b : Text} {vs : List Word} (ha : ListReading a vs)
    (hb : ListReading b vs) (hs : SpliceFree vs) :
    (formatForm config mode true context a).outcome =
      (formatForm config mode true context b).outcome := by
  obtain ⟨_, _, _, -, -, -, -, -, hp, hwa⟩ := ha.ofExpression
  obtain ⟨_, _, _, -, -, -, -, -, hq, hwb⟩ := hb.ofExpression
  obtain ⟨b, s, us, -, -, rfl⟩ := ha.exists_cons
  exact outcome_formatForm_congr config mode context hp hq hwa hwb (by simp) hs

end Formatting

end SexpLayout
