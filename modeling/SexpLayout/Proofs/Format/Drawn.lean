import SexpLayout.Proofs.Format.Ink
import SexpLayout.Proofs.Format.Relaid

/-!
# The characters of a formatted text

Formatting writes spaces and line ends and takes all other characters from the text, a carriage
return too (`drawnFrom_formatText`).  So a text without carriage returns is formatted to one without
them.
-/

namespace SexpLayout

open Lexeme (spell spell_cons)

namespace Text.DrawnFrom

variable {s s' t t' u : Text}

theorem of_subset (h : ∀ c ∈ s, c ∈ t) : s.DrawnFrom t := fun c hc => .inl (h c hc)

theorem trans (h : s.DrawnFrom t) (h' : t.DrawnFrom u) : s.DrawnFrom u := by
  intro c hc
  rcases h c hc with hc | hc
  · exact h' c hc
  · exact .inr hc

theorem append (h : s'.DrawnFrom s) (h' : t'.DrawnFrom t) : Text.DrawnFrom (s' ++ t') (s ++ t) := by
  intro c hc
  rcases List.mem_append.1 hc with hc | hc
  · exact (h c hc).imp_left (List.mem_append_left t)
  · exact (h' c hc).imp_left (List.mem_append_right s)

theorem not_mem (h : s.DrawnFrom t) (ht : '\r' ∉ t) : '\r' ∉ s := by
  intro hs
  rcases h _ hs with hc | hc | hc
  · exact ht hc
  · cases hc
  · cases hc

end Text.DrawnFrom

theorem drawnFrom_relaid (config : Config) (mode : Mode) (context : Option Bool) {text : Text}
    {p : Passage} (hp : Passage.ofExpression text = .ok p) :
    (relaid config mode context p).DrawnFrom text := by
  rw [relaid_eq_spell config mode context hp]
  refine drawnFrom_spaced (fun l hl => .of_subset fun c hc => ?_) (by simp [Text.DrawnFrom]) _
  rw [← Passage.ofExpression_text hp]
  exact List.mem_append_left _ (mem_spell_of_mem hl (List.mem_append_right _ hc))

/-! ### indentation -/

namespace Indent

theorem drawnFrom_lineEnds (fresh : Bool) (gap : Text) : (lineEnds fresh gap).DrawnFrom gap := by
  intro c hc
  rcases List.mem_append.1 hc with hc | hc
  · split at hc
    · simp at hc
    · exact .inl ((List.takeWhile_sublist _).subset hc)
  · exact .inr (.inr (List.eq_of_mem_replicate hc))

theorem drawnFrom_indentGap (width base : Int) (cursor : Cursor) (kind : Kind) (gap : Text) :
    (indentGap width base cursor kind gap).1.DrawnFrom gap := by
  unfold indentGap
  split
  · intro c hc
    rcases List.mem_append.1 hc with hc | hc
    · exact drawnFrom_lineEnds _ _ c hc
    · exact .inr (.inl (List.eq_of_mem_replicate hc))
  · exact .of_subset fun _ hc => hc

theorem drawnFrom_indentLexemes (width base : Int) (cursor : Cursor) (ls : List Lexeme) :
    Text.DrawnFrom (spell (indentLexemes width base cursor ls).1) (spell ls) := by
  induction ls generalizing cursor with
  | nil => exact .of_subset fun _ hc => hc
  | cons l ls ih =>
    exact .append
      (.append (drawnFrom_indentGap width base cursor l.kind l.gap) (.of_subset fun _ hc => hc))
      (ih _)

theorem drawnFrom_indentTail (fresh : Bool) (tail : Text) :
    (indentTail fresh tail).DrawnFrom tail := by
  unfold indentTail
  split
  · exact drawnFrom_lineEnds fresh tail
  · exact .of_subset fun _ hc => hc

end Indent

theorem drawnFrom_indentText {width base : Int} {text out : Text}
    (h : indentText width base text = .ok out) :
    out.DrawnFrom text := by
  cases hp : Passage.scan text with
  | error e => simp [indentText, hp, bind, Except.bind] at h
  | ok p =>
    obtain rfl : (Indent.indentPassage width base p).text = out := by
      simpa [indentText, hp, bind, Except.bind, pure, Except.pure] using h
    rw [← Passage.scan_text hp]
    exact .append (Indent.drawnFrom_indentLexemes width base _ p.lexemes)
      (Indent.drawnFrom_indentTail _ p.tail)

/-! ### documents -/

theorem respected_drawnFrom : Respected fun text out => out.DrawnFrom text where
  refl _ := .of_subset fun _ hc => hc
  trans h h' := h'.trans h
  append h h' := h.append h'
  relaid config mode context hp _ := drawnFrom_relaid config mode context hp
  indentText := drawnFrom_indentText

/-- **A formatted document has the characters of the document, spaces and line ends.** -/
theorem drawnFrom_formatText {config : Config} {mode : Mode} {text out : Text}
    (h : (formatText config mode text).outcome = .ok out) : out.DrawnFrom text :=
  respected_drawnFrom.formatText h

end SexpLayout
