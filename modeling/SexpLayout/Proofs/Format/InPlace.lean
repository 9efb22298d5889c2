import SexpLayout.Format.Form
import SexpLayout.Proofs.Forms.Reading

/-!
# Lists replaced in their places

A document is formatted by formatting its lists in their places, the last one first, and so are the
lists inside a form.  A list that is replaced moves what stands behind it only, so the lists in
front of it are still where they were read, at their old columns.

* `Fills` — lexemes that stand in a text where their offsets say;
* `foldrM_splice` — **replacing list by list**, in a text that changes, is replacing every list as
  it was read;
* `formatText_eq_inPlace` — so for the lists at the top of a document;
* `formatInside_eq_inPlace` — and for the lists inside a form.
-/

namespace SexpLayout

open Lexeme (spell spell_cons spell_append)

/-! ### lists in their text -/

/-- Lexemes in order fill the text behind another one. -/
structure Fills (text pre : Text) (ls : List Lexeme) (tail : Text) : Prop where
  text_eq : text = pre ++ (spell ls ++ tail)
  placed : Lexeme.placed pre.length ls = ls

theorem Fills.cons {text pre tail : Text} {l : Lexeme} {ls : List Lexeme}
    (h : Fills text pre (l :: ls) tail) :
    Fills text (pre ++ l.source) ls tail := by
  obtain ⟨htext, hplaced⟩ := h
  refine ⟨by simp [htext], ?_⟩
  rw [List.length_append]
  exact (List.cons.inj hplaced).2

theorem Fills.offsets {text pre tail : Text} {l : Lexeme} {ls : List Lexeme}
    (h : Fills text pre (l :: ls) tail) :
    l.start = (pre ++ l.gap).length ∧ l.stop = (pre ++ l.gap).length + l.text.length := by
  have hmoved := (List.cons.inj h.placed).1
  rw [← hmoved, List.length_append]
  exact ⟨rfl, rfl⟩

theorem Fills.cut {text pre tail : Text} {as bs : List Lexeme} {l : Lexeme}
    (h : Fills text pre (as ++ l :: bs) tail) :
    text = (pre ++ spell as ++ l.gap) ++ (l.text ++ (spell bs ++ tail)) ∧
      l.start = (pre ++ spell as ++ l.gap).length ∧
        l.stop = (pre ++ spell as ++ l.gap).length + l.text.length := by
  induction as generalizing pre with
  | nil =>
    rw [Lexeme.spell_nil, List.append_nil]
    exact ⟨by simpa [Lexeme.source] using h.text_eq, h.offsets⟩
  | cons m as ih => simpa using ih h.cons

theorem Fills.columnAt {text pre tail : Text} {as bs : List Lexeme} {l : Lexeme}
    (h : Fills text pre (as ++ l :: bs) tail) :
    text.columnAt l.start = Text.lastColumn (pre ++ spell as ++ l.gap) := by
  obtain ⟨htext, hstart, -⟩ := h.cut
  rw [htext, hstart, Text.columnAt_length]

theorem Fills.slice {text pre tail : Text} {ls : List Lexeme} {l : Lexeme}
    (h : Fills text pre ls tail) (hl : l ∈ ls) :
    text.slice l.start l.stop = l.text := by
  obtain ⟨as, bs, rfl⟩ := List.append_of_mem hl
  obtain ⟨htext, hstart, hstop⟩ := h.cut
  rw [htext, hstart, hstop]
  exact Text.slice_region ..

theorem fills_ofDocument {text : Text} {p : Passage} (hp : Passage.ofDocument text = .ok p) :
    Fills text [] p.lexemes p.tail := by
  obtain ⟨-, -, -, -, -, hplaced⟩ := Passage.reading_of_ofDocument hp
  exact ⟨(Passage.ofDocument_text hp).symm, hplaced⟩

theorem fills_ofExpression {text : Text} {p : Passage} (hp : Passage.ofExpression text = .ok p) :
    Fills text [] p.lexemes p.tail := by
  obtain ⟨-, -, -, -, -, hplaced⟩ := Passage.reading_of_ofExpression hp
  exact ⟨(Passage.ofExpression_text hp).symm, hplaced⟩

/-! ### one list after the other -/

/-- A text with the region of a list replaced by what is made of the list there. -/
def splice (make : Lexeme → Text → Traced ReadError Text) (l : Lexeme) (staged : Text) :
    Traced ReadError Text := do
  let new ← make l staged
  return staged.before l.start ++ new ++ staged.since l.stop

/-- What is made of a list does not depend on the text behind it. -/
def ReadsNoFurther (make : Lexeme → Text → Traced ReadError Text) : Prop :=
  ∀ (l : Lexeme) (pre post post' : Text), l.start = pre.length →
    l.stop = pre.length + l.text.length →
    make l (pre ++ (l.text ++ post)) = make l (pre ++ (l.text ++ post'))

/-- **One list**: the text may have changed behind it; what is made of it is put in its place. -/
theorem Fills.splice_eq {make : Lexeme → Text → Traced ReadError Text} (hmake : ReadsNoFurther make)
    {text pre tail : Text} {l : Lexeme} {ls : List Lexeme} (h : Fills text pre (l :: ls) tail)
    (rest : Text) :
    splice make l (pre ++ (l.source ++ rest)) = do
      let new ← make l text
      return pre ++ (l.gap ++ (new ++ rest)) := by
  obtain ⟨hstart, hstop⟩ := h.offsets
  have htext : text = (pre ++ l.gap) ++ (l.text ++ (spell ls ++ tail)) := by
    simpa [Lexeme.source] using h.text_eq
  have hsplit : pre ++ (l.source ++ rest) = (pre ++ l.gap) ++ (l.text ++ rest) := by
    simp [Lexeme.source]
  rw [splice, hsplit, hmake l _ rest (spell ls ++ tail) hstart hstop, ← htext, hstart, hstop,
    Text.before_append, Text.since_region]
  simp only [List.append_assoc]

/-- **Replacing list by list.**  The lists that are chosen are replaced one after the other, the
last one first, each in the text that the ones behind it left. -/
theorem foldrM_splice {make : Lexeme → Text → Traced ReadError Text} (hmake : ReadsNoFurther make)
    (chosen : Lexeme → Bool) {text pre tail : Text} {ls : List Lexeme}
    (h : Fills text pre ls tail) :
    ((ls.filter fun l => l.kind = .compound).filter chosen).foldrM (splice make) text = do
      let rest ← Passage.replaceFrom tail ls fun l _ _ =>
        if chosen l then make l text else pure l.text
      return pre ++ rest := by
  induction ls generalizing pre with
  | nil => simp [Passage.replaceFrom, h.text_eq]
  | cons l ls ih =>
    -- the lists behind this one are replaced first, and leave the text up to its end alone
    have hrest := ih h.cons
    by_cases hk : l.kind = .compound
    · rw [List.filter_cons_of_pos (by simpa using hk), Passage.replaceFrom]
      by_cases hc : chosen l = true
      · rw [List.filter_cons_of_pos hc, List.foldrM_cons, hrest]
        simp [hk, hc, h.splice_eq hmake]
      · rw [List.filter_cons_of_neg hc, hrest]
        simp [hk, hc, Lexeme.source]
    · rw [List.filter_cons_of_neg (by simpa using hk), hrest, Passage.replaceFrom]
      simp [hk]

section Formatting

variable (config : Config) (mode : Mode)

/-- A text with the list at a region formatted in its place. -/
def formatRegion (config : Config) (mode : Mode) : Lexeme → Text → Traced ReadError Text :=
  splice fun l staged =>
    formatAt config mode true (staged.columnAt l.start) (staged.slice l.start l.stop)

/-- The text of a document with its lists formatted one after the other, the last one first: each is
looked up in the text that the ones behind it left. -/
def formatInPlace (config : Config) (mode : Mode) (text : Text) : Traced ReadError Text := do
  let p ← .ofExcept (Passage.ofDocument text)
  let new ← p.lists.reverse.foldlM (fun staged l => formatRegion config mode l staged) text
  Traced.emit (.formatted p.lists.length)
  return new

/-- **Formatting list by list**: every list at the top is formatted as it was read. -/
theorem formatText_eq_inPlace (text : Text) :
    formatText config mode text = formatInPlace config mode text := by
  rw [formatText, formatInPlace]
  cases hp : Passage.ofDocument text with
  | error e => rfl
  | ok p =>
    have hmake : ReadsNoFurther fun l staged =>
        formatAt config mode true (staged.columnAt l.start) (staged.slice l.start l.stop) := by
      intro l pre post post' hstart hstop
      simp only [hstart, hstop, Text.columnAt_length, Text.slice_region]
    have hread : (fun l (_ : l ∈ p.lexemes) (_ : l.kind = .compound) =>
          formatAt config mode true (text.columnAt l.start) l.text) =
        fun l _ _ =>
          formatAt config mode true (text.columnAt l.start) (text.slice l.start l.stop) := by
      funext l hl _
      rw [(fills_ofDocument hp).slice hl]
    have hfold := foldrM_splice hmake (fun _ => true) (fills_ofDocument hp)
    simp only [List.nil_append, bind_pure, List.filter_true, if_true] at hfold
    rw [Traced.ofExcept_ok_bind, Traced.ofExcept_ok_bind, List.foldlM_reverse, Passage.replaceLists,
      hread, ← hfold]
    rfl

/-- The text with the lists in it formatted one after the other, the last one first, and put back at
the offsets where they were read.  Empty lists are passed over. -/
def formatInsideInPlace (config : Config) (mode : Mode) (context : Bool) (text : Text) :
    Traced ReadError Text := do
  let p ← .ofExcept (Passage.ofExpression text)
  (p.lists.filter fun l => 2 < l.text.length).reverse.foldlM
    (fun staged l => splice (fun l _ => formatForm config mode true (some context) l.text) l staged)
    text

/-- **Formatting inside a form list by list**: the offsets of a single reading stay valid. -/
theorem formatInside_eq_inPlace (context : Bool) (text : Text) :
    formatInside config mode context text = formatInsideInPlace config mode context text := by
  rw [formatInside, formatInsideInPlace]
  cases hp : Passage.ofExpression text with
  | error e => rfl
  | ok p =>
    have hmake : ReadsNoFurther fun l _ => formatForm config mode true (some context) l.text :=
      fun _ _ _ _ _ _ => rfl
    have hfold := foldrM_splice hmake (fun l => 2 < l.text.length) (fills_ofExpression hp)
    simp only [List.nil_append, bind_pure] at hfold
    rw [Traced.ofExcept_ok_bind, Traced.ofExcept_ok_bind, List.foldlM_reverse, Passage.lists, hfold,
      Passage.replaceLists]
    congr 1
    funext l _ _
    by_cases hempty : l.text.length ≤ 2
    · rw [if_pos hempty, if_neg (by simpa using hempty)]
    · rw [if_neg hempty, if_pos (by simpa using hempty)]

/-- So a form is laid out, and the lists in the new text are formatted in their places. -/
theorem formatForm_eq_inPlace (deep : Bool) (context : Option Bool) (text : Text) :
    formatForm config mode deep context text = (do
      let p ← .ofExcept (Passage.ofExpression text)
      if p.lexemes.isEmpty then pure text
      else do
        let laid := layoutOf config mode context p
        Traced.emit (.laidOut laid.mode laid.head laid.breaks.length)
        if deep then formatInsideInPlace config mode laid.context (relaid config mode context p)
        else pure (relaid config mode context p)) := by
  rw [formatForm_eq]
  simp only [formatInside_eq_inPlace]

end Formatting

end SexpLayout
