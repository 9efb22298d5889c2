import SexpLayout.Format.Form
import SexpLayout.Proofs.Format.Drawn
import SexpLayout.Proofs.Format.Indentation
import SexpLayout.Proofs.Format.Spliced

/-!
# Formatting a document twice

A document is formatted list by list, and a formatted list is indented from the column where the
list stood before any list was formatted.  A list behind another one on its line can move, and is
then indented from another column when the document is formatted again.

* `outcome_formatText` — a document is formatted, and what stands between its lists is kept;
* `formatText_again_iff` — formatting again changes nothing exactly if every list at the top is
  formatted at its new column as at its old one;
* `columns_eq_of_listsApart` — the columns stay if there is a line end between any two lists.
-/

namespace SexpLayout

open Lexeme (spell spell_cons spell_append word)

/-- The words can be formatted: no `,` is in front of an `@`, and no word ends a line that is
indented. -/
structure Formattable (config : Config) (ws : List Word) : Prop where
  spliceFree : SpliceFree ws
  lineEnds : config.indent = true → ∀ w ∈ ws, w.2.getLast? ≠ some '\n'

theorem Formattable.of_isInfix {config : Config} {vs ws : List Word} (h : Formattable config ws)
    (hin : vs <:+: ws) :
    Formattable config vs :=
  ⟨h.spliceFree.of_isInfix hin, fun hi w hw => h.lineEnds hi w (hin.subset hw)⟩

section Documents

variable (config : Config) (mode : Mode)

/-! ### one list -/

theorem exists_formatAt {t : Text} {vs : List Word} (h : ListReading t vs)
    (hv : Formattable config vs) (column : Int) :
    ∃ out, (formatAt config mode true column t).outcome = .ok out ∧ ListReading out vs ∧
      out.DrawnFrom t := by
  obtain ⟨new, hnew, hread, hdrawn⟩ :=
    exists_outcome_of_listReading config mode none h hv.spliceFree
  rw [formatAt, Traced.outcome_bind_ok hnew]
  by_cases hi : config.indent = true
  · obtain ⟨out, hout, hread', hdrawn'⟩ :=
      exists_indentText hread (hv.lineEnds hi) config.indentWidth column
    exact ⟨out, by simp [hi, hout], hread', hdrawn'.trans hdrawn⟩
  · exact ⟨new, by simp [hi], hread, hdrawn⟩

theorem outcome_formatAt_congr {a b : Text} {vs : List Word} (ha : ListReading a vs)
    (hb : ListReading b vs) (hs : SpliceFree vs) (column : Int) :
    (formatAt config mode true column a).outcome =
      (formatAt config mode true column b).outcome := by
  rw [formatAt, formatAt, Traced.outcome_bind, Traced.outcome_bind,
    outcome_eq_of_listReading config mode none ha hb hs]

/-- The text of a list formatted at a column, or the list itself if it cannot be. -/
def formattedAt (config : Config) (mode : Mode) (column : Int) (t : Text) : Text :=
  match (formatAt config mode true column t).outcome with
  | .ok new => new
  | .error _ => t

theorem outcome_formatAt {t : Text} {vs : List Word} (h : ListReading t vs) (hs : SpliceSafe vs)
    (column : Int) :
    (formatAt config mode true column t).outcome = .ok (formattedAt config mode column t) := by
  obtain ⟨new, ws, hnew, hread⟩ := exists_outcome_of_spliceSafe config mode none h hs
  obtain ⟨out, hout⟩ : ∃ out, (formatAt config mode true column t).outcome = .ok out := by
    rw [formatAt, Traced.outcome_bind_ok hnew]
    by_cases hi : config.indent = true
    · -- the formatted list is a list, so it can be read again and indented
      obtain ⟨_, _, _, -, -, -, -, -, -, hw⟩ := hread.ofExpression
      obtain ⟨q, hq⟩ := exists_scan_of_wordsOf hw
      rw [if_pos hi, Traced.outcome_ofExcept, indentText, hq]
      exact ⟨_, rfl⟩
    · rw [if_neg hi]
      exact ⟨new, rfl⟩
  rw [formattedAt, hout]

/-- What `formattedAt` stands for. -/
theorem formattedAt_spec {t : Text} {vs : List Word} (h : ListReading t vs)
    (hv : Formattable config vs) (column : Int) :
    (formatAt config mode true column t).outcome = .ok (formattedAt config mode column t) ∧
      ListReading (formattedAt config mode column t) vs ∧
        (formattedAt config mode column t).DrawnFrom t := by
  obtain ⟨out, hout, hread, hdrawn⟩ := exists_formatAt config mode h hv column
  have heq : formattedAt config mode column t = out := by rw [formattedAt, hout]
  rw [heq]
  exact ⟨hout, hread, hdrawn⟩

/-! ### all lists -/

/-- The lexemes of a document with its lists formatted at their columns. -/
def Passage.tidied (config : Config) (mode : Mode) (src : Text) (p : Passage) : List Lexeme :=
  p.lexemes.map (Lexeme.retext fun l => formattedAt config mode (src.columnAt l.start) l.text)

variable {text : Text} {p : Passage} {ws : List Word}

theorem exists_words_of_mem (hp : Passage.ofDocument text = .ok p) (hw : wordsOf text = .ok ws)
    (hf : Formattable config ws) {l : Lexeme} (hl : l ∈ p.lexemes) (hk : l.kind = .compound) :
    ∃ vs, ListReading l.text vs ∧ Formattable config vs := by
  obtain ⟨ws', hw', hread, -⟩ := Passage.reading_of_ofDocument hp
  obtain rfl : ws = ws' := Except.ok.inj (hw.symm.trans hw')
  obtain ⟨vs, hvs, hin⟩ := hread.exists_infix_of_mem hl hk
  exact ⟨vs, hvs, hf.of_isInfix hin⟩

/-- **A document is formatted**, and what stands between its lists is kept. -/
theorem outcome_formatText_of_spliceSafe (hp : Passage.ofDocument text = .ok p)
    (hw : wordsOf text = .ok ws) (hs : SpliceSafe ws) :
    (formatText config mode text).outcome = .ok (spell (p.tidied config mode text) ++ p.tail) := by
  obtain ⟨ws', hw', hread, -⟩ := Passage.reading_of_ofDocument hp
  obtain rfl : ws = ws' := Except.ok.inj (hw.symm.trans hw')
  have hlists :
      (p.replaceLists fun l _ _ =>
        formatAt config mode true (text.columnAt l.start) l.text).outcome =
      .ok (spell (p.tidied config mode text) ++ p.tail) := by
    refine outcome_replaceFrom fun l hl hk => ?_
    obtain ⟨vs, hvs, hin⟩ := hread.exists_infix_of_mem hl hk
    exact outcome_formatAt config mode hvs (hs.of_isInfix hin) _
  rw [formatText, hp, Traced.ofExcept_ok_bind, Traced.outcome_bind_ok hlists,
    Traced.outcome_bind_ok rfl]
  rfl

theorem outcome_formatText (hp : Passage.ofDocument text = .ok p) (hw : wordsOf text = .ok ws)
    (hf : Formattable config ws) :
    (formatText config mode text).outcome = .ok (spell (p.tidied config mode text) ++ p.tail) :=
  outcome_formatText_of_spliceSafe config mode hp hw hf.spliceFree.spliceSafe

theorem formattedAt_words (hp : Passage.ofDocument text = .ok p) (hw : wordsOf text = .ok ws)
    (hf : Formattable config ws) {l : Lexeme} (hl : l ∈ p.lexemes) (hk : l.kind = .compound)
    (column : Int) {vs : List Word} (hvs : ListReading l.text vs) :
    ListReading (formattedAt config mode column l.text) vs := by
  obtain ⟨vs', hvs', hv⟩ := exists_words_of_mem config hp hw hf hl hk
  obtain rfl := hvs.words_unique hvs'
  exact (formattedAt_spec config mode hvs hv column).2.1

theorem ofDocument_retext (hp : Passage.ofDocument text = .ok p) {f : Lexeme → Text}
    (hf : ∀ l ∈ p.lexemes, l.kind = .compound → ∀ vs, ListReading l.text vs →
      ListReading (f l) vs) :
    Passage.ofDocument (spell (p.lexemes.map (Lexeme.retext f)) ++ p.tail) =
        .ok ⟨Lexeme.placed 0 (p.lexemes.map (Lexeme.retext f)), p.tail⟩ ∧
      wordsOf (spell (p.lexemes.map (Lexeme.retext f)) ++ p.tail) = wordsOf text := by
  obtain ⟨ws, hw, hread, hfree, htail, -⟩ := Passage.reading_of_ofDocument hp
  rw [hw]
  exact Passage.ofDocument_of_reading (hread.retext hf)
    (hfree.of_sameShape (forall₂_sameShape_retext _ _)) htail

theorem ofDocument_tidied (hp : Passage.ofDocument text = .ok p) (hw : wordsOf text = .ok ws)
    (hf : Formattable config ws) :
    Passage.ofDocument (spell (p.tidied config mode text) ++ p.tail) =
        .ok ⟨Lexeme.placed 0 (p.tidied config mode text), p.tail⟩ ∧
      wordsOf (spell (p.tidied config mode text) ++ p.tail) = .ok ws := by
  rw [← hw]
  exact ofDocument_retext hp fun l hl hk vs hvs =>
    formattedAt_words config mode hp hw hf hl hk _ hvs

/-! ### formatting again -/

theorem map_eq_map_iff_forall₂ {α β γ : Type} {T P : α → β → Prop} {f : β → γ} {g : α → γ}
    {ls : List α} {ms : List β} (h : List.Forall₂ T ls ms)
    (hiff : ∀ l ∈ ls, ∀ m, T l m → (f m = g l ↔ P l m)) :
    ms.map f = ls.map g ↔ List.Forall₂ P ls ms := by
  induction h with
  | nil => simp
  | @cons l m ls ms hlm _ ih =>
    rw [List.map_cons, List.map_cons, List.cons.injEq, List.forall₂_cons, hiff l (by simp) m hlm,
      ih fun k hk => hiff k (by simp [hk])]

theorem map_text_placed (offset : Nat) (us : List Lexeme) :
    (Lexeme.placed offset us).map (fun u => u.text) = us.map fun u => u.text :=
  Lexeme.map_placed Lexeme.moved_text offset us

theorem forall₂_word_placed (offset : Nat) (us : List Lexeme) :
    List.Forall₂ (fun u v => v.word = u.word) us (Lexeme.placed offset us) := by
  induction us generalizing offset with
  | nil => exact .nil
  | cons u us ih => exact .cons rfl (ih _)

theorem spell_eq_of_map {us vs : List Lexeme} (hg : us.map (fun u => u.gap) = vs.map fun v => v.gap)
    (ht : us.map (fun u => u.text) = vs.map fun v => v.text) : spell us = spell vs := by
  induction us generalizing vs with
  | nil =>
    obtain rfl : vs = [] := by simpa using ht.symm
    rfl
  | cons u us ih =>
    obtain ⟨v, vs, rfl, hv, ht⟩ := List.map_eq_cons_iff.1 ht.symm
    obtain ⟨hg, hgs⟩ := List.cons.inj hg
    simp only [spell_cons, Lexeme.source, hg, hv, ih hgs ht.symm]

theorem forall₂_word_tidied (text : Text) (p : Passage) :
    List.Forall₂ (fun l m => m.word =
      (l.retext fun l => formattedAt config mode (text.columnAt l.start) l.text).word) p.lexemes
      (Lexeme.placed 0 (p.tidied config mode text)) :=
  List.forall₂_map_left_iff.1 (forall₂_word_placed 0 (p.tidied config mode text))

/-- A list at the top is formatted at its new column as at its old one. -/
def KeepsIndent (config : Config) (mode : Mode) (old new : Text) (l m : Lexeme) : Prop :=
  l.kind = .compound → (formatAt config mode true (new.columnAt m.start) l.text).outcome =
    (formatAt config mode true (old.columnAt l.start) l.text).outcome

theorem text_retext_again (hp : Passage.ofDocument text = .ok p) (hw : wordsOf text = .ok ws)
    (hf : Formattable config ws) {out : Text} {l m : Lexeme} (hl : l ∈ p.lexemes)
    (hkind : m.kind = l.kind)
    (htext : m.text =
      (l.retext fun l => formattedAt config mode (text.columnAt l.start) l.text).text) :
    (m.retext fun m => formattedAt config mode (out.columnAt m.start) m.text).text =
      (l.retext fun l => formattedAt config mode (text.columnAt l.start) l.text).text ↔
    KeepsIndent config mode text out l m := by
  rw [← htext, Lexeme.retext_text, hkind]
  rw [Lexeme.retext_text] at htext
  by_cases hk : l.kind = .compound
  · rw [if_pos hk] at htext
    obtain ⟨vs, hvs, hv⟩ := exists_words_of_mem config hp hw hf hl hk
    obtain ⟨hold, hread, -⟩ := formattedAt_spec config mode hvs hv (text.columnAt l.start)
    have hnew := (formattedAt_spec config mode hread hv (out.columnAt m.start)).1
    rw [outcome_formatAt_congr config mode hread hvs hv.spliceFree] at hnew
    rw [if_pos hk, KeepsIndent, hold, hnew, htext, Except.ok.injEq]
    exact ⟨fun h _ => h, fun h => h hk⟩
  · rw [if_neg hk, KeepsIndent]
    exact ⟨fun _ h => absurd h hk, fun _ => rfl⟩

/-- **Formatting again changes nothing exactly if every list at the top keeps its indentation.** -/
theorem formatText_again_iff (hp : Passage.ofDocument text = .ok p) (hw : wordsOf text = .ok ws)
    (hf : Formattable config ws) {out : Text}
    (hout : (formatText config mode text).outcome = .ok out) {q : Passage}
    (hq : Passage.ofDocument out = .ok q) :
    (formatText config mode out).outcome = .ok out ↔
      List.Forall₂ (KeepsIndent config mode text out) p.lexemes q.lexemes := by
  obtain ⟨hdoc, hwords⟩ := ofDocument_tidied config mode hp hw hf
  have hsrc : spell (p.tidied config mode text) ++ p.tail = out :=
    Except.ok.inj ((outcome_formatText config mode hp hw hf).symm.trans hout)
  rw [hsrc] at hdoc hwords
  obtain rfl : (⟨Lexeme.placed 0 (p.tidied config mode text), p.tail⟩ : Passage) = q :=
    Except.ok.inj (hdoc.symm.trans hq)
  -- the gaps and the tokens between the lists stay, so the texts of the lists decide
  have hspell : (formatText config mode out).outcome = .ok out ↔
      spell (Passage.tidied config mode out ⟨Lexeme.placed 0 (p.tidied config mode text), p.tail⟩) =
        spell (p.tidied config mode text) := by
    rw [outcome_formatText config mode hdoc hwords hf, Except.ok.injEq]
    constructor
    · intro h
      exact List.append_cancel_right (h.trans hsrc.symm)
    · intro h
      rw [h]
      exact hsrc
  have htexts :
      spell (Passage.tidied config mode out ⟨Lexeme.placed 0 (p.tidied config mode text), p.tail⟩) =
        spell (p.tidied config mode text) ↔
      (Passage.tidied config mode out ⟨Lexeme.placed 0 (p.tidied config mode text), p.tail⟩).map
        (fun u => u.text) =
        (p.tidied config mode text).map fun u => u.text := by
    constructor
    · intro h
      have hagain := (ofDocument_tidied config mode hdoc hwords hf).1
      rw [h, hsrc, hdoc, Except.ok.injEq, Passage.mk.injEq] at hagain
      rw [← map_text_placed 0, ← hagain.1, map_text_placed]
    · intro h
      refine spell_eq_of_map ?_ h
      rw [← Lexeme.map_gap_placed 0 (p.tidied config mode text)]
      simp [Passage.tidied]
  rw [hspell, htexts]
  simp only [Passage.tidied, List.map_map]
  refine map_eq_map_iff_forall₂ (forall₂_word_tidied config mode text p) fun l hl m hm => ?_
  obtain ⟨hkind, htext⟩ : m.kind = l.kind ∧ m.text = _ := by simpa [word] using hm
  exact text_retext_again config mode hp hw hf hl hkind htext

end Documents

/-! ### columns -/

namespace Text

theorem columnAfter_length_append (a b : Text) (column : Nat) :
    columnAfter (a ++ b).length column (a ++ b) =
      columnAfter b.length (columnAfter a.length column a) b := by
  induction a generalizing column with
  | nil => rfl
  | cons c a ih => exact ih _

/-- Behind a line end it does not matter where the text started. -/
theorem columnAfter_of_newline {b : Text} (h : '\n' ∈ b) (m n : Nat) :
    columnAfter b.length m b = columnAfter b.length n b := by
  induction b generalizing m n with
  | nil => simp at h
  | cons c b ih =>
    by_cases hc : c = '\n'
    · simp [columnAfter, hc]
    · exact ih (List.mem_of_ne_of_mem (Ne.symm hc) h) _ _

theorem lastColumn_append_congr {a b : Text} (g : Text)
    (h : a.lastColumn = b.lastColumn ∨ '\n' ∈ g) :
    Text.lastColumn (a ++ g) = Text.lastColumn (b ++ g) := by
  unfold lastColumn at *
  rw [columnAfter_length_append, columnAfter_length_append]
  rcases h with h | h
  · rw [h]
  · exact columnAfter_of_newline h _ _

end Text

/-- There is a line end between any two lists; `shared` says that a list stands before the first
lexeme on its line. -/
def listsApart : (shared : Bool) → List Lexeme → Bool
  | _, [] => true
  | shared, l :: ls =>
    if l.kind = .compound then (!shared || l.gap.contains '\n') && listsApart true ls
    else listsApart (shared && !l.source.contains '\n') ls

/-- **The columns of lists stay** if there is a line end between any two of them. -/
theorem columns_eq_of_listsApart {f : Lexeme → Text} {old new r s : Text} {shared : Bool}
    {ls : List Lexeme} (h : listsApart shared ls = true) (a b : Text)
    (hold : old = a ++ (spell ls ++ r)) (hnew : new = b ++ (spell (ls.map (Lexeme.retext f)) ++ s))
    (hab : shared = false → a.lastColumn = b.lastColumn) :
    List.Forall₂ (fun l m => l.kind = .compound → new.columnAt m.start = old.columnAt l.start)
      (Lexeme.placed a.length ls) (Lexeme.placed b.length (ls.map (Lexeme.retext f))) := by
  induction ls generalizing shared a b with
  | nil => exact .nil
  | cons l ls ih =>
    have hold' : old = (a ++ l.source) ++ (spell ls ++ r) := by simp [hold]
    have hnew' : new = (b ++ (l.retext f).source) ++ (spell (ls.map (Lexeme.retext f)) ++ s) := by
      simp [hnew]
    have hlen : a.length + l.source.length = (a ++ l.source).length := by simp
    have hlen' : b.length + (l.retext f).source.length = (b ++ (l.retext f).source).length := by
      simp
    rw [List.map_cons, Lexeme.placed, Lexeme.placed, hlen, hlen']
    by_cases hk : l.kind = .compound
    · simp only [listsApart, hk, if_true, Bool.and_eq_true, Bool.or_eq_true, Bool.not_eq_true',
        List.contains_iff_mem] at h
      refine .cons (fun _ => ?_) (ih h.2 _ _ hold' hnew' (by simp))
      have hcol := Text.lastColumn_append_congr l.gap (h.1.imp_left hab)
      have hstart : ∀ (x y : Text), x.length + y.length = (x ++ y : Text).length := by simp
      have h1 : old.columnAt (a.length + l.gap.length : Nat) = Text.lastColumn (a ++ l.gap) := by
        rw [hstart, hold', Lexeme.source, ← List.append_assoc a, List.append_assoc (a ++ l.gap)]
        exact Text.columnAt_length _ _
      have h2 : new.columnAt (b.length + l.gap.length : Nat) = Text.lastColumn (b ++ l.gap) := by
        rw [hstart, hnew', Lexeme.source, Lexeme.retext_gap, ← List.append_assoc b,
          List.append_assoc (b ++ l.gap)]
        exact Text.columnAt_length _ _
      simp only [Lexeme.moved, Lexeme.retext_gap]
      rw [h1, h2, hcol]
    · have hsame : (l.retext f).source = l.source := by rw [Lexeme.retext_of_ne f hk]
      simp only [listsApart, hk, if_false] at h
      refine .cons (fun hk' => absurd hk' hk) (ih h _ _ hold' hnew' fun hshared => ?_)
      rw [hsame]
      refine Text.lastColumn_append_congr l.source ?_
      -- the line is the same as before, or the lexeme starts a new one
      cases shared with
      | false => exact .inl (hab rfl)
      | true => exact .inr (by simpa using hshared)

section Documents

variable (config : Config) (mode : Mode) {text : Text} {p : Passage} {ws : List Word}

/-- **Lists keep their indentation** if nothing is indented, or there is a line end between any two
of them. -/
theorem keepsIndent_of_listsApart (hp : Passage.ofDocument text = .ok p)
    (h : config.indent = true → listsApart false p.lexemes = true) :
    List.Forall₂
      (KeepsIndent config mode text (spell (p.tidied config mode text) ++ p.tail)) p.lexemes
      (Lexeme.placed 0 (p.tidied config mode text)) := by
  by_cases hi : config.indent = true
  · obtain ⟨-, -, -, -, -, hplaced⟩ := Passage.reading_of_ofDocument hp
    have hcols := columns_eq_of_listsApart (r := p.tail) (s := p.tail)
      (f := fun l => formattedAt config mode (text.columnAt l.start) l.text) (h hi) [] []
      (Passage.ofDocument_text hp).symm rfl fun _ => rfl
    rw [List.length_nil, hplaced] at hcols
    refine hcols.imp fun l m hlm hk => ?_
    exact congrArg (fun column => (formatAt config mode true column l.text).outcome) (hlm hk)
  · -- without indentation the column does not matter
    refine (forall₂_word_tidied config mode text p).imp fun l m _ _ => ?_
    simp [formatAt, hi]

theorem drawnFrom_tidied (hp : Passage.ofDocument text = .ok p) (hw : wordsOf text = .ok ws)
    (hf : Formattable config ws) :
    Text.DrawnFrom (spell (p.tidied config mode text) ++ p.tail) text :=
  drawnFrom_formatText (outcome_formatText config mode hp hw hf)

end Documents

end SexpLayout
