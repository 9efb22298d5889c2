import SexpLayout.Format.Form
import SexpLayout.Proofs.Forms.Respaced

/-!
# Laying out and reading again

Formatting lays a form out from the outside in: the text of a form is laid out with its lists as
they are, is read again, and the lists found are formatted in place.  Here this is compared with
formatting from the inside out, where the lists are formatted first.

* `reading_relaid` — a laid-out expression is read as the same lexemes with the gaps of the layout;
* `outcome_formatForm` — **one level**: if all lists of a form can be formatted, formatting the form
  is laying out its tokens with the formatted lists.
-/

namespace SexpLayout

open Lexeme (spell spell_cons spell_append)
open Gap (Spaced)

/-! ### spelling a layout -/

theorem spell_spaced {us : List Lexeme} {gs : List Gap} (hg : Spaced (us.map fun u => u.kind) gs)
    (hne : us ≠ []) (lead : Text) :
    spell (Lexeme.spaced lead us gs) =
      lead ++ Cell.spell (List.zipWith Cell.mk (us.map fun u => u.text) gs) := by
  induction us generalizing lead gs with
  | nil => exact absurd rfl hne
  | cons u us ih =>
    cases us with
    | nil =>
      obtain rfl : gs = [.nothing] := hg
      simp [Lexeme.spaced, Lexeme.source, Cell.spell, Gap.text]
    | cons v us =>
      obtain ⟨g, gs, rfl, -, hg⟩ := hg
      rw [Lexeme.spaced, spell_cons, List.headD_cons, List.tail_cons, ih hg (by simp)]
      simp [Lexeme.source, Cell.spell]

theorem map_retext_spaced (f : Text → Text) (lead : Text) (us : List Lexeme) (gs : List Gap) :
    (Lexeme.spaced lead us gs).map (Lexeme.retext fun l => f l.text) =
      Lexeme.spaced lead (us.map (Lexeme.retext fun l => f l.text)) gs := by
  induction us generalizing lead gs with
  | nil => rfl
  | cons u us ih =>
    simp only [Lexeme.spaced, List.map_cons, ih]
    congr 1
    unfold Lexeme.retext
    split <;> rfl

theorem spell_map_retext_placed (f : Text → Text) (offset : Nat) (us : List Lexeme) :
    spell ((Lexeme.placed offset us).map (Lexeme.retext fun l => f l.text)) =
      spell (us.map (Lexeme.retext fun l => f l.text)) := by
  induction us generalizing offset with
  | nil => rfl
  | cons u us ih =>
    have hu : ((u.moved (offset + u.gap.length)).retext fun l => f l.text).source =
        (u.retext fun l => f l.text).source := by
      simp only [Lexeme.source, Lexeme.retext_gap, Lexeme.retext_text, Lexeme.moved_gap]
      rfl
    simp only [Lexeme.placed, List.map_cons, spell_cons, ih, hu]

/-- Every character is one of the other text, a space or a line end. -/
def Text.DrawnFrom (s t : Text) : Prop := ∀ c ∈ s, c ∈ t ∨ c = ' ' ∨ c = '\n'

theorem mem_spell_of_mem {c : Char} {l : Lexeme} {ls : List Lexeme} (hl : l ∈ ls)
    (hc : c ∈ l.source) : c ∈ spell ls :=
  List.mem_flatMap.2 ⟨l, hl, hc⟩

theorem Gap.drawnFrom (g : Gap) (t : Text) : g.text.DrawnFrom t := by
  intro c hc
  cases g with
  | nothing => simp [Gap.text] at hc
  | space => exact .inr (.inl (List.mem_singleton.1 hc))
  | line => exact .inr (.inr (List.mem_singleton.1 hc))
  | soft => exact .inr (.inr (List.mem_singleton.1 hc))

theorem drawnFrom_retext {f : Lexeme → Text} {l : Lexeme} {t : Text} (hl : ∀ c ∈ l.text, c ∈ t)
    (hf : l.kind = .compound → (f l).DrawnFrom l.text) : (l.retext f).text.DrawnFrom t := by
  intro c hc
  rw [Lexeme.retext_text] at hc
  split at hc
  · next hk =>
    exact (hf hk c hc).imp_left (hl c)
  · exact .inl (hl c hc)

theorem drawnFrom_spaced {us : List Lexeme} {t : Text} (h : ∀ u ∈ us, u.text.DrawnFrom t)
    {lead : Text} (hl : lead.DrawnFrom t) (gs : List Gap) :
    Text.DrawnFrom (spell (Lexeme.spaced lead us gs)) t := by
  induction us generalizing lead gs with
  | nil => simp [Lexeme.spaced, Text.DrawnFrom]
  | cons u us ih =>
    intro c hc
    simp only [Lexeme.spaced, spell_cons, Lexeme.source, List.mem_append] at hc
    rcases hc with (hc | hc) | hc
    · exact hl c hc
    · exact h u (by simp) c hc
    · exact ih (fun v hv => h v (by simp [hv])) (Gap.drawnFrom _ t) _ c hc

theorem ofTokens_getD (mode : Mode) (context : Option Bool) (table : SkipTable) (ts : List Token) :
    Layout.ofTokens mode (some (context.getD (newlineContext table ts))) table ts =
      Layout.ofTokens mode context table ts := by
  cases ts <;> rfl

/-! ### reading a layout -/

def gapsOf (config : Config) (mode : Mode) (context : Option Bool) (p : Passage) : List Gap :=
  (layoutOf config mode context p).gaps config.skipTable config.arity

section Expression

variable (config : Config) (mode : Mode) (context : Option Bool) {text : Text} {p : Passage}
  {ws : List Word}

theorem spaced_gapsOf (hp : Passage.ofExpression text = .ok p) :
    Spaced (p.lexemes.map fun u => u.kind) (gapsOf config mode context p) := by
  obtain ⟨ws, -, hread, -, -, hplaced⟩ := Passage.reading_of_ofExpression hp
  have h :=
    Layout.spaced_gaps mode context config.skipTable config.arity (unsplit_of_reading hread hplaced)
  rw [List.map_map] at h
  exact h

theorem relaid_eq_spell (hp : Passage.ofExpression text = .ok p) :
    relaid config mode context p =
      spell (Lexeme.spaced [] p.lexemes (gapsOf config mode context p)) := by
  by_cases hnil : p.lexemes = []
  · have hcells : (layoutOf config mode context p).cells = [] := by
      simp [layoutOf, Layout.ofTokens, Passage.tokens, hnil]
    rw [relaid, Layout.joined, hcells, Layout.fold_of_ne_soft (by simp), hnil]
    rfl
  · rw [spell_spaced (spaced_gapsOf config mode context hp) hnil, relaid, layoutOf,
      Layout.joined_ofTokens]
    simp [Passage.tokens, gapsOf, layoutOf, Function.comp_def]

/-- **A laid-out expression is read as the same lexemes**, with the gaps of the layout, if there is
no splice at its top. -/
theorem reading_relaid_of_top (hp : Passage.ofExpression text = .ok p) (hw : wordsOf text = .ok ws)
    (hs : SpliceFree (p.lexemes.map Lexeme.word)) :
    Reading (Lexeme.spaced [] p.lexemes (gapsOf config mode context p)) [] ws ∧
      IsExpression (Lexeme.spaced [] p.lexemes (gapsOf config mode context p)) := by
  obtain ⟨ws', hw', hread, hexp, htail, -⟩ := Passage.reading_of_ofExpression hp
  obtain rfl : ws = ws' := Except.ok.inj (hw.symm.trans hw')
  exact ⟨hread.spaced htail hs (spaced_gapsOf config mode context hp) (by simp),
    hexp.of_sameShape (forall₂_sameShape_spaced ..)⟩

theorem ofExpression_relaid (hp : Passage.ofExpression text = .ok p) (hw : wordsOf text = .ok ws)
    (hs : SpliceFree (p.lexemes.map Lexeme.word)) :
    Passage.ofExpression (relaid config mode context p) =
        .ok ⟨Lexeme.placed 0 (Lexeme.spaced [] p.lexemes (gapsOf config mode context p)), []⟩ ∧
      wordsOf (relaid config mode context p) = .ok ws := by
  obtain ⟨hread, hexp⟩ := reading_relaid_of_top config mode context hp hw hs
  rw [relaid_eq_spell config mode context hp]
  simpa using Passage.ofExpression_of_reading hread hexp (by simp)

theorem spliceFree_top (hp : Passage.ofExpression text = .ok p) (hw : wordsOf text = .ok ws)
    (hs : SpliceFree ws) :
    SpliceFree (p.lexemes.map Lexeme.word) := by
  obtain ⟨ws', hw', hread, -⟩ := Passage.reading_of_ofExpression hp
  obtain rfl : ws = ws' := Except.ok.inj (hw.symm.trans hw')
  exact hs.of_reading hread

theorem reading_relaid (hp : Passage.ofExpression text = .ok p) (hw : wordsOf text = .ok ws)
    (hs : SpliceFree ws) :
    Reading (Lexeme.spaced [] p.lexemes (gapsOf config mode context p)) [] ws ∧
      IsExpression (Lexeme.spaced [] p.lexemes (gapsOf config mode context p)) :=
  reading_relaid_of_top config mode context hp hw (spliceFree_top hp hw hs)

end Expression

/-! ### formatting in place -/

theorem Traced.outcome_bind_ok {ε α β : Type} {x : Traced ε α} {a : α} (h : x.outcome = .ok a)
    (f : α → Traced ε β) : (x >>= f).outcome = (f a).outcome := by
  rw [Traced.outcome_bind, h]
  rfl

theorem outcome_replaceFrom {ε : Type} {tail : Text} {ls : List Lexeme}
    {f : (l : Lexeme) → l ∈ ls → l.kind = .compound → Traced ε Text} {g : Lexeme → Text}
    (h : ∀ l hl hk, (f l hl hk).outcome = .ok (g l)) :
    (Passage.replaceFrom tail ls f).outcome = .ok (spell (ls.map (Lexeme.retext g)) ++ tail) := by
  induction ls with
  | nil => rfl
  | cons l ls ih =>
    have hrest := ih (f := fun m hm => f m (List.mem_cons_of_mem l hm)) fun m hm hk => h m _ hk
    rw [Passage.replaceFrom, Traced.outcome_bind_ok hrest]
    by_cases hk : l.kind = .compound
    · rw [dif_pos hk, Traced.outcome_bind_ok (h l List.mem_cons_self hk)]
      simp [hk, Lexeme.source, Lexeme.retext_text]
    · rw [dif_neg hk]
      simp [hk, Lexeme.source, Lexeme.retext_text]

/-- The text of a list formatted in a newline context, or the list itself if it cannot be. -/
def formatted (config : Config) (mode : Mode) (context : Bool) (t : Text) : Text :=
  match (formatForm config mode true (some context) t).outcome with
  | .ok new => new
  | .error _ => t

theorem formatted_of_outcome {config : Config} {mode : Mode} {context : Bool} {t out : Text}
    (h : (formatForm config mode true (some context) t).outcome = .ok out) :
    formatted config mode context t = out := by
  rw [formatted, h]

def contextOf (config : Config) (context : Option Bool) (p : Passage) : Bool :=
  context.getD (newlineContext config.skipTable p.tokens)

@[simp] theorem contextOf_some (config : Config) (context : Bool) (p : Passage) :
    contextOf config (some context) p = context := rfl

/-- A list can be formatted, keeps its words, gets no other characters, and is left alone if it is
empty. -/
structure Formats (config : Config) (mode : Mode) (context : Bool) (t : Text) : Prop where
  outcome : (formatForm config mode true (some context) t).outcome =
    .ok (formatted config mode context t)
  words : ∀ vs, ListReading t vs → ListReading (formatted config mode context t) vs
  drawn : (formatted config mode context t).DrawnFrom t
  empty : t.length ≤ 2 → formatted config mode context t = t

def Passage.formatted (config : Config) (mode : Mode) (context : Bool) (p : Passage) :
    List Lexeme :=
  p.lexemes.map (Lexeme.retext fun l => SexpLayout.formatted config mode context l.text)

section Expression

variable (config : Config) (mode : Mode) (context : Option Bool) {text : Text} {p : Passage}
  {ws : List Word}

theorem context_layoutOf (hne : p.lexemes ≠ []) :
    (layoutOf config mode context p).context = contextOf config context p := by
  obtain ⟨l, ls, hl⟩ := List.exists_cons_of_ne_nil hne
  simp [layoutOf, Layout.ofTokens, contextOf, Passage.tokens, hl]

/-- Formatting a form is formatting the lists that are found once it is laid out. -/
theorem outcome_formatForm_of_relaid (hp : Passage.ofExpression text = .ok p) (hne : p.lexemes ≠ [])
    {q : Passage} (hq : Passage.ofExpression (relaid config mode context p) = .ok q)
    (hf : ∀ l ∈ q.lexemes, l.kind = .compound →
      (formatForm config mode true (some (contextOf config context p)) l.text).outcome = .ok
      (formatted config mode (contextOf config context p) l.text) ∧
      (l.text.length ≤ 2 → formatted config mode (contextOf config context p) l.text = l.text)) :
    (formatForm config mode true context text).outcome =
      .ok (spell (q.formatted config mode (contextOf config context p)) ++ q.tail) := by
  rw [formatForm_eq, hp, Traced.ofExcept_ok_bind, if_neg (by simpa using hne)]
  dsimp only
  rw [Traced.outcome_bind_ok rfl, if_pos rfl, context_layoutOf config mode context hne,
    formatInside, hq, Traced.ofExcept_ok_bind, Passage.replaceLists]
  refine outcome_replaceFrom fun l hl hk => ?_
  split
  · next hlen =>
    rw [(hf l hl hk).2 hlen]
    rfl
  · exact (hf l hl hk).1

/-- **One level of formatting**: if all lists of a form can be formatted, the form is laid out
around the formatted lists, with the gaps it has around the lists as they were. -/
theorem outcome_formatForm (hp : Passage.ofExpression text = .ok p) (hw : wordsOf text = .ok ws)
    (hs : SpliceFree ws) (hne : p.lexemes ≠ [])
    (hf : ∀ l ∈ p.lexemes, l.kind = .compound →
      Formats config mode (contextOf config context p) l.text) :
    (formatForm config mode true context text).outcome =
      .ok (spell (Lexeme.spaced [] (p.formatted config mode (contextOf config context p))
        (gapsOf config mode context p))) := by
  have hagain := (ofExpression_relaid config mode context hp hw (spliceFree_top hp hw hs)).1
  rw [outcome_formatForm_of_relaid config mode context hp hne hagain]
  · rw [Passage.formatted, spell_map_retext_placed, map_retext_spaced, List.append_nil]
    rfl
  · intro l hl hk
    -- the list was there before the text was laid out
    obtain ⟨m, hm, hkind, htext⟩ :=
      Lexeme.exists_mem_of_map_word
        ((Lexeme.map_word_placed ..).trans (Lexeme.map_word_spaced ..)) hl
    rw [← htext]
    have hformats := hf m hm (hkind.trans hk)
    exact ⟨hformats.outcome, hformats.empty⟩

end Expression

end SexpLayout
