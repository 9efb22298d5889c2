import SexpLayout.Format.Form

/-!
# What formatting respects

Formatting is laying out, reading again and replacing lists, and indenting.  A relation between
texts that these respect holds between a text and the formatted text.  This is so for every text for
which there is a result, also where a laid-out list is read as other tokens than before.

* `Respected` — a relation that every step respects; `Respected.formatForm`, `Respected.formatText`
  — then **formatting respects it**;
* `nonBlank_formatAt`, `nonBlank_formatText` — formatting moves blanks only: no step takes ink from
  a gap or puts ink into one.
-/

namespace SexpLayout

open Lexeme (spell spell_cons)

theorem Traced.outcome_bind_eq_ok {ε α β : Type} {x : Traced ε α} {f : α → Traced ε β} {b : β} :
    (x >>= f).outcome = .ok b ↔ ∃ a, x.outcome = .ok a ∧ (f a).outcome = .ok b := by
  rw [Traced.outcome_bind]
  cases x.outcome with
  | ok a => simp [bind, Except.bind]
  | error e => simp [bind, Except.bind]

/-! ### formatting -/

/-- A relation between texts that laying out, indenting and putting texts together respect. -/
structure Respected (R : Text → Text → Prop) : Prop where
  refl (t : Text) : R t t
  trans {s t u : Text} : R s t → R t u → R s u
  append {s s' t t' : Text} : R s s' → R t t' → R (s ++ t) (s' ++ t')
  relaid {text : Text} {p : Passage} (config : Config) (mode : Mode) (context : Option Bool) :
    Passage.ofExpression text = .ok p → p.lexemes ≠ [] → R text (relaid config mode context p)
  indentText {width base : Int} {text out : Text} : indentText width base text =
    .ok out → R text out

namespace Respected

variable {R : Text → Text → Prop} {config : Config} {mode : Mode} {text out : Text}

theorem replaceFrom (hR : Respected R) {ε : Type} {tail : Text} {ls : List Lexeme}
    {f : (l : Lexeme) → l ∈ ls → l.kind = .compound → Traced ε Text}
    (hf : ∀ l hl hk new, (f l hl hk).outcome = .ok new → R l.text new)
    (h : (Passage.replaceFrom tail ls f).outcome = .ok out) : R (spell ls ++ tail) out := by
  induction ls generalizing out with
  | nil =>
    obtain rfl : tail = out := Except.ok.inj h
    exact hR.refl tail
  | cons l ls ih =>
    rw [Passage.replaceFrom] at h
    obtain ⟨rest, hrest, h⟩ := Traced.outcome_bind_eq_ok.1 h
    have hkept := ih (fun m hm hk => hf m (List.mem_cons_of_mem l hm) hk) hrest
    rw [spell_cons, List.append_assoc]
    split at h
    · next hk =>
      obtain ⟨new, hnew, h⟩ := Traced.outcome_bind_eq_ok.1 h
      obtain rfl : l.gap ++ new ++ rest = out := Except.ok.inj h
      exact hR.append (hR.append (hR.refl l.gap) (hf l List.mem_cons_self hk new hnew)) hkept
    · obtain rfl : l.source ++ rest = out := Except.ok.inj h
      exact hR.append (hR.refl l.source) hkept

/-- **A form is related to the formatted form.** -/
theorem formatForm (hR : Respected R) {deep : Bool} {context : Option Bool}
    (h : (formatForm config mode deep context text).outcome = .ok out) : R text out := by
  -- the lists found in the laid-out text have less ink, whatever is read there
  induction hn : text.ink using Nat.strongRecOn generalizing deep context text out with
  | _ n ih =>
    rw [formatForm_eq] at h
    obtain ⟨p, hp, h⟩ := Traced.outcome_bind_eq_ok.1 h
    rw [Traced.outcome_ofExcept] at hp
    by_cases hnil : p.lexemes.isEmpty = true
    · rw [if_pos hnil] at h
      obtain rfl : text = out := Except.ok.inj h
      exact hR.refl text
    rw [if_neg hnil] at h
    have hlaid := hR.relaid config mode context hp (by simpa using hnil)
    dsimp only at h
    obtain ⟨_, -, h⟩ := Traced.outcome_bind_eq_ok.1 h
    cases deep with
    | false =>
      obtain rfl : SexpLayout.relaid config mode context p = out := Except.ok.inj h
      exact hlaid
    | true =>
      rw [if_pos rfl, formatInside] at h
      obtain ⟨q, hq, h⟩ := Traced.outcome_bind_eq_ok.1 h
      rw [Traced.outcome_ofExcept] at hq
      have hread : spell q.lexemes ++ q.tail = SexpLayout.relaid config mode context p :=
        Passage.ofExpression_text hq
      refine hR.trans hlaid (hread ▸ hR.replaceFrom (fun l hl hk new hnew => ?_) h)
      split at hnew
      · obtain rfl : l.text = new := Except.ok.inj hnew
        exact hR.refl l.text
      · exact ih l.text.ink (hn ▸ ink_lt_of_mem_relaid hp hq hl hk) hnew rfl

theorem formatAt (hR : Respected R) {deep : Bool} {column : Int}
    (h : (formatAt config mode deep column text).outcome = .ok out) : R text out := by
  rw [SexpLayout.formatAt] at h
  obtain ⟨new, hnew, h⟩ := Traced.outcome_bind_eq_ok.1 h
  refine hR.trans (hR.formatForm hnew) ?_
  split at h
  · exact hR.indentText h
  · obtain rfl : new = out := Except.ok.inj h
    exact hR.refl new

/-- **A document is related to the formatted document.** -/
theorem formatText (hR : Respected R) (h : (formatText config mode text).outcome = .ok out) :
    R text out := by
  rw [SexpLayout.formatText] at h
  obtain ⟨p, hp, h⟩ := Traced.outcome_bind_eq_ok.1 h
  obtain ⟨new, hnew, h⟩ := Traced.outcome_bind_eq_ok.1 h
  obtain ⟨_, -, h⟩ := Traced.outcome_bind_eq_ok.1 h
  obtain rfl : new = out := Except.ok.inj h
  rw [← Passage.ofDocument_text hp]
  exact hR.replaceFrom (fun l _ _ new hnew => hR.formatAt hnew) hnew

end Respected

/-! ### indentation -/

namespace Indent

theorem isBlank_of_mem_lineEnds {fresh : Bool} {gap : Text} (hg : ∀ c ∈ gap, isBlank c = true)
    {c : Char} (hc : c ∈ lineEnds fresh gap) : isBlank c = true := by
  rcases List.mem_append.1 hc with hc | hc
  · split at hc
    · simp at hc
    · exact hg c ((List.takeWhile_sublist _).subset hc)
  · obtain rfl := List.eq_of_mem_replicate hc
    exact isBlank_newline

theorem isBlank_of_mem_indentGap {width base : Int} {cursor : Cursor} {kind : Kind} {gap : Text}
    (hg : ∀ c ∈ gap, isBlank c = true) {c : Char}
    (hc : c ∈ (indentGap width base cursor kind gap).1) :
    isBlank c = true := by
  unfold indentGap at hc
  split at hc
  · rcases List.mem_append.1 hc with hc | hc
    · exact isBlank_of_mem_lineEnds hg hc
    · obtain rfl := List.eq_of_mem_replicate hc
      exact isBlank_space
  · exact hg c hc

theorem isBlank_of_mem_indentTail {fresh : Bool} {tail : Text} (ht : ∀ c ∈ tail, isBlank c = true)
    {c : Char} (hc : c ∈ indentTail fresh tail) : isBlank c = true := by
  unfold indentTail at hc
  split at hc
  · exact isBlank_of_mem_lineEnds ht hc
  · exact ht c hc

theorem nonBlank_indentLexemes (width base : Int) {cursor : Cursor} {ls : List Lexeme}
    (h : ∀ l ∈ ls, l.Proper) :
    (spell (indentLexemes width base cursor ls).1).nonBlank = (spell ls).nonBlank := by
  induction ls generalizing cursor with
  | nil => rfl
  | cons l ls ih =>
    have hl := (h l (by simp)).gap_blank
    have hgap : (indentGap width base cursor l.kind l.gap).1.nonBlank = [] :=
      Text.nonBlank_of_blank fun _ hc => isBlank_of_mem_indentGap hl hc
    simp only [indentLexemes, spell_cons, Lexeme.source, Text.nonBlank_append, hgap,
      Text.nonBlank_of_blank hl, ih fun m hm => h m (by simp [hm])]

end Indent

/-- **An indented text has the ink of the text.** -/
theorem nonBlank_indentText {width base : Int} {text out : Text}
    (h : indentText width base text = .ok out) :
    out.nonBlank = text.nonBlank := by
  cases hp : Passage.scan text with
  | error e => simp [indentText, hp, bind, Except.bind] at h
  | ok p =>
    obtain rfl : (Indent.indentPassage width base p).text = out := by
      simpa [indentText, hp, bind, Except.bind, pure, Except.pure] using h
    obtain ⟨hproper, htail⟩ := Passage.scan_proper hp
    have hnew : ∀ fresh, (Indent.indentTail fresh p.tail).nonBlank = [] :=
      fun fresh => Text.nonBlank_of_blank fun c hc => Indent.isBlank_of_mem_indentTail htail hc
    rw [← Passage.scan_text hp]
    simp only [Passage.text, Indent.indentPassage, Text.nonBlank_append, hnew,
      Text.nonBlank_of_blank htail, Indent.nonBlank_indentLexemes width base hproper]

/-! ### ink -/

theorem respected_nonBlank : Respected fun text out => out.nonBlank = text.nonBlank where
  refl _ := rfl
  trans h h' := h'.trans h
  append h h' := by rw [Text.nonBlank_append, Text.nonBlank_append, h, h']
  relaid config mode context hp _ := nonBlank_relaid config mode context hp
  indentText := nonBlank_indentText

theorem nonBlank_formatAt {config : Config} {mode : Mode} {deep : Bool} {column : Int}
    {form out : Text} (h : (formatAt config mode deep column form).outcome = .ok out) :
    out.nonBlank = form.nonBlank :=
  respected_nonBlank.formatAt h

/-- **A formatted document has the ink of the document.** -/
theorem nonBlank_formatText {config : Config} {mode : Mode} {text out : Text}
    (h : (formatText config mode text).outcome = .ok out) : out.nonBlank = text.nonBlank :=
  respected_nonBlank.formatText h

end SexpLayout
