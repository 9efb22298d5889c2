import Mathlib.Data.List.Nodup
import SexpLayout.Proofs.Buffer.Selection
import SexpLayout.Proofs.Buffer.Session
import SexpLayout.Proofs.Format.SpliceFree

/-!
# Lists formatted in any order

The lists at the top of a document can be formatted one by one, each from a point inside it.  A
document with some of its lists formatted is read as the same lexemes with these lists replaced, so
the other lists and the text between them stay as they are, and the order does not matter.

* `Passage.partlyTidied` — the lexemes of a document with some of its lists formatted;
* `exists_formatCurrentForm` — **one command** formats one more list;
* `formatCurrentForm_any_order` — in every order the lists end up as if they were formatted all at
  once.
-/

namespace SexpLayout

open Lexeme (spell spell_cons spell_append)

/-- The member of a filtered list at an index: so many members before it are kept. -/
theorem getElem?_filter_eq_some_iff {α : Type} {f : α → Bool} {xs : List α} {i : Nat} {x : α} :
    (xs.filter f)[i]? = some x ↔ ∃ as bs, xs = as ++ x :: bs ∧ f x = true ∧ as.countP f = i := by
  constructor
  · induction xs generalizing i with
    | nil => simp
    | cons y xs ih =>
      intro h
      by_cases hy : f y = true
      · rw [List.filter_cons_of_pos hy] at h
        cases i with
        | zero =>
          obtain rfl : y = x := by simpa using h
          exact ⟨[], xs, rfl, hy, rfl⟩
        | succ i =>
          obtain ⟨as, bs, rfl, hx, hi⟩ := ih (by simpa using h)
          exact ⟨y :: as, bs, rfl, hx, by rw [List.countP_cons_of_pos hy, hi]⟩
      · rw [List.filter_cons_of_neg hy] at h
        obtain ⟨as, bs, rfl, hx, hi⟩ := ih h
        exact ⟨y :: as, bs, rfl, hx, by rw [List.countP_cons_of_neg hy, hi]⟩
  · rintro ⟨as, bs, rfl, hx, rfl⟩
    rw [List.filter_append, List.filter_cons_of_pos hx, List.countP_eq_length_filter]
    simp

section Documents

variable (config : Config) {text : Text} {p : Passage} {ws : List Word}

/-! ### some lists formatted -/

/-- The text of a list that may be formatted already. -/
def tidiedText (config : Config) (done : List Lexeme) (l : Lexeme) : Text :=
  if l ∈ done then formattedAt config .multiLine 0 l.text else l.text

/-- The lexemes of a document with some of its lists formatted. -/
def Passage.partlyTidied (config : Config) (done : List Lexeme) (p : Passage) : List Lexeme :=
  p.lexemes.map (Lexeme.retext (tidiedText config done))

theorem partlyTidied_nil (p : Passage) : p.partlyTidied config [] = p.lexemes := by
  have hself : ∀ l : Lexeme, l.retext (tidiedText config []) = l := by
    intro l
    unfold Lexeme.retext
    split
    · simp [tidiedText]
    · rfl
  exact List.map_id'' hself p.lexemes

theorem formattedAt_column (hi : config.indent = false) (mode : Mode) (column column' : Int)
    (t : Text) :
    formattedAt config mode column t = formattedAt config mode column' t := by
  simp [formattedAt, formatAt, hi]

theorem partlyTidied_of_all (hi : config.indent = false) {done : List Lexeme}
    (h : ∀ l ∈ p.lists, l ∈ done) (text : Text) :
    p.partlyTidied config done = p.tidied config .multiLine text := by
  refine List.map_congr_left fun l hl => ?_
  by_cases hk : l.kind = .compound
  · have hdone : l ∈ done := h l (by simp [Passage.lists, hl, hk])
    simp only [Lexeme.retext, if_pos hk, tidiedText, if_pos hdone]
    rw [formattedAt_column config hi _ 0 (text.columnAt l.start)]
  · rw [Lexeme.retext_of_ne _ hk, Lexeme.retext_of_ne _ hk]

theorem tidiedText_words (hp : Passage.ofDocument text = .ok p) (hw : wordsOf text = .ok ws)
    (hf : Formattable config ws) (done : List Lexeme) {l : Lexeme} (hl : l ∈ p.lexemes)
    (hk : l.kind = .compound) {vs : List Word} (hvs : ListReading l.text vs) :
    ListReading (tidiedText config done l) vs := by
  unfold tidiedText
  split
  · exact formattedAt_words config .multiLine hp hw hf hl hk 0 hvs
  · exact hvs

theorem ofDocument_partlyTidied (hp : Passage.ofDocument text = .ok p) (hw : wordsOf text = .ok ws)
    (hf : Formattable config ws) (done : List Lexeme) :
    Passage.ofDocument (spell (p.partlyTidied config done) ++ p.tail) =
      .ok ⟨Lexeme.placed 0 (p.partlyTidied config done), p.tail⟩ :=
  (ofDocument_retext hp fun _ hl hk _ hvs => tidiedText_words config hp hw hf done hl hk hvs).1

/-- A list is formatted to the same text whether or not it has been formatted before. -/
theorem outcome_formatAt_tidiedText (hi : config.indent = false)
    (hp : Passage.ofDocument text = .ok p) (hw : wordsOf text = .ok ws) (hf : Formattable config ws)
    {l : Lexeme} (hl : l ∈ p.lexemes) (hk : l.kind = .compound) (done : List Lexeme)
    (column : Int) :
    (formatAt config .multiLine true column (tidiedText config done l)).outcome =
      .ok (formattedAt config .multiLine 0 l.text) := by
  obtain ⟨vs, hvs, hv⟩ := exists_words_of_mem config hp hw hf hl hk
  have hread := tidiedText_words config hp hw hf done hl hk hvs
  rw [outcome_formatAt_congr config .multiLine hread hvs hv.spliceFree,
    (formattedAt_spec config .multiLine hvs hv column).1, formattedAt_column config hi _ column 0]

theorem ListReading.two_le_length {t : Text} {vs : List Word} (h : ListReading t vs) :
    2 ≤ t.length := by
  obtain ⟨-, -, -, -⟩ := h
  simp only [List.length_cons, List.length_append, List.length_nil]
  omega

theorem nodup_of_ofDocument (hp : Passage.ofDocument text = .ok p) : p.lexemes.Nodup := by
  obtain ⟨f, hf, e⟩ := Passage.exists_of_ofDocument hp
  have hproper := Forms.grouped_proper (Passage.scan_proper (Forms.ofText_eq_ok hf)).1
  rw [← e] at hproper
  obtain ⟨-, -, -, -, -, hplaced⟩ := Passage.reading_of_ofDocument hp
  refine (Buffer.pairwise_ofDocument hp).imp_of_mem fun {l m} hl _ hlm heq => ?_
  -- a lexeme is not empty, so it does not stop before it starts
  have hpos : l.text ≠ [] := by
    intro hnil
    have := (hproper l hl).ink_pos
    simp [hnil] at this
  rw [← hplaced] at hl
  have hstop := Lexeme.stop_of_mem_placed hl
  have := List.length_pos_iff.2 hpos
  rw [← heq] at hlm
  omega

end Documents

namespace Buffer

theorem exists_replace_text {b : Buffer} (h : b.InText) (start stop : Int) (new : Text) :
    ∃ b', (replaceRegion start stop new).on b = (.ok (), b') ∧
      b'.text = b.text.before start ++ new ++ b.text.since stop := by
  simp only [on_replaceRegion, anchor?_eq_some h]
  exact ⟨_, rfl, rfl⟩

theorem exists_formatAll {config : Config} {b : Buffer} {out : Text} (h : b.InText)
    (hout : (formatText config .multiLine b.text).outcome = .ok out) :
    ∃ b', b.run (.ok config) .formatBuffer = .ok b' ∧ b'.text = out := by
  obtain ⟨b', hb, htext⟩ := exists_replace_text h 0 b.text.length out
  have hbefore : b.text.before 0 = [] := by simpa using Text.before_append [] b.text
  have hsince : b.text.since b.text.length = [] := by simpa using Text.since_append b.text []
  refine ⟨b', ?_, by rw [htext, hbefore, hsince, List.nil_append, List.append_nil]⟩
  have hrun : (perform (.ok config) .formatBuffer).on b = (.ok (), b') := by
    show (formatAll config).on b = _
    rw [on_formatAll, hout]
    exact hb
  rw [run, hrun]
  rfl

theorem exists_formatSpan (config : Config) (mode : Mode) (deep : Bool) {pre mid post new : Text}
    {point : Int} (h : InText ⟨pre ++ (mid ++ post), point⟩)
    (hnew : ∀ column, (formatAt config mode deep column mid).outcome = .ok new) :
    ∃ b, (formatSpan config mode deep (pre.length, pre.length + mid.length)).on
        ⟨pre ++ (mid ++ post), point⟩ = (.ok (), b) ∧ b.text = pre ++ (new ++ post) := by
  obtain ⟨b, hb, htext⟩ :=
    exists_replace_text h (pre.length : Nat) (pre.length + mid.length : Nat) new
  refine ⟨b, ?_, by rw [htext, Text.before_append, Text.since_region, List.append_assoc]⟩
  rw [on_formatSpan]
  dsimp only
  rw [Text.slice_region, hnew]
  exact hb

section Documents

variable (config : Config) {text : Text} {p : Passage} {ws : List Word}

/-- A document cut at one of its lists, with some of its lists formatted: the list is one that may
be formatted already, and formatting it leaves the parts before and behind it as they are. -/
theorem partlyTidied_cut (hp : Passage.ofDocument text = .ok p) {as bs : List Lexeme} {l : Lexeme}
    (hcut : p.lexemes = as ++ l :: bs) (hk : l.kind = .compound) (done : List Lexeme) :
    p.partlyTidied config done = as.map (Lexeme.retext (tidiedText config done)) ++
        { l with text := tidiedText config done l } ::
          bs.map (Lexeme.retext (tidiedText config done)) ∧
      p.partlyTidied config (l :: done) = as.map (Lexeme.retext (tidiedText config done)) ++
        { l with text := formattedAt config .multiLine 0 l.text } ::
          bs.map (Lexeme.retext (tidiedText config done)) := by
  have hnodup := nodup_of_ofDocument hp
  rw [hcut] at hnodup
  have hnew : l ∉ as ++ bs := (List.nodup_cons.1 (List.nodup_middle.1 hnodup)).1
  have hother : ∀ m ∈ as ++ bs,
      m.retext (tidiedText config (l :: done)) = m.retext (tidiedText config done) := by
    intro m hm
    have hne : m ≠ l := fun e => hnew (e ▸ hm)
    simp [Lexeme.retext, tidiedText, hne]
  have has : as.map (Lexeme.retext (tidiedText config (l :: done))) =
      as.map (Lexeme.retext (tidiedText config done)) :=
    List.map_congr_left fun m hm => hother m (List.mem_append_left _ hm)
  have hbs : bs.map (Lexeme.retext (tidiedText config (l :: done))) =
      bs.map (Lexeme.retext (tidiedText config done)) :=
    List.map_congr_left fun m hm => hother m (List.mem_append_right _ hm)
  unfold Passage.partlyTidied
  rw [hcut, List.map_append, List.map_cons, List.map_append, List.map_cons, has, hbs]
  simp [Lexeme.retext, hk, tidiedText]

theorem countP_compound_placed (f : Lexeme → Text) (offset : Nat) (ls : List Lexeme) :
    (Lexeme.placed offset (ls.map (Lexeme.retext f))).countP (fun l => l.kind = .compound) =
      ls.countP fun l => l.kind = .compound := by
  induction ls generalizing offset with
  | nil => rfl
  | cons l ls ih => simp [Lexeme.placed, List.countP_cons, ih]

theorem exists_region (hp : Passage.ofDocument text = .ok p) (done : List Lexeme) {i : Nat}
    {l : Lexeme} (hl : p.lists[i]? = some l) :
    ∃ m pre post,
      (Passage.lists ⟨Lexeme.placed 0 (p.partlyTidied config done), p.tail⟩)[i]? = some m ∧
      m.start = pre.length ∧ m.stop = pre.length + (tidiedText config done l).length ∧
      spell (p.partlyTidied config done) ++ p.tail = pre ++ (tidiedText config done l ++ post) ∧
      spell (p.partlyTidied config (l :: done)) ++ p.tail =
        pre ++ (formattedAt config .multiLine 0 l.text ++ post) := by
  obtain ⟨as, bs, hcut, hk, hcount⟩ := getElem?_filter_eq_some_iff.1 hl
  obtain ⟨hnow, hnext⟩ := partlyTidied_cut config hp hcut (by simpa using hk) done
  generalize has : as.map (Lexeme.retext (tidiedText config done)) = before at hnow hnext
  generalize bs.map (Lexeme.retext (tidiedText config done)) = behind at hnow hnext
  refine ⟨Lexeme.moved (0 + (spell before).length + l.gap.length)
    { l with text := tidiedText config done l }, spell before ++ l.gap, spell behind ++ p.tail,
    ?_, by simp [Lexeme.moved], by simp [Lexeme.moved], ?_, ?_⟩
  · rw [Passage.lists, hnow, Lexeme.placed_append, Lexeme.placed]
    refine getElem?_filter_eq_some_iff.2 ⟨_, _, rfl, hk, ?_⟩
    rw [← has, countP_compound_placed, hcount]
  · simp [hnow, Lexeme.source]
  · simp [hnext, Lexeme.source]

/-- **One command formats one more list**, from every point inside it. -/
theorem exists_formatCurrentForm (hi : config.indent = false) (hp : Passage.ofDocument text = .ok p)
    (hw : wordsOf text = .ok ws) (hf : Formattable config ws) (done : List Lexeme) {i : Nat}
    {l : Lexeme} (hl : p.lists[i]? = some l) :
    ∃ m, (Passage.lists ⟨Lexeme.placed 0 (p.partlyTidied config done), p.tail⟩)[i]? = some m ∧
      m.start + 1 < m.stop ∧ ∀ point : Int, m.start < point → point < m.stop →
        ∃ b, run (.ok config) ⟨spell (p.partlyTidied config done) ++ p.tail,
          point⟩ .formatCurrentForm = .ok b ∧
          b.text = spell (p.partlyTidied config (l :: done)) ++ p.tail := by
  obtain ⟨hmem, hk⟩ : l ∈ p.lexemes ∧ l.kind = .compound := by
    simpa [Passage.lists] using List.mem_of_getElem? hl
  have hdoc := ofDocument_partlyTidied config hp hw hf done
  have houtcome := outcome_formatAt_tidiedText config hi hp hw hf hmem hk done
  obtain ⟨m, pre, post, hm, hstart, hstop, hnow, hnext⟩ := exists_region config hp done hl
  obtain ⟨hmmem, hmk⟩ : m ∈ Lexeme.placed 0 (p.partlyTidied config done) ∧ m.kind = .compound := by
    simpa [Passage.lists] using List.mem_of_getElem? hm
  have hroom : 2 ≤ (tidiedText config done l).length := by
    obtain ⟨vs, hvs, -⟩ := exists_words_of_mem config hp hw hf hmem hk
    exact (tidiedText_words config hp hw hf done hmem hk hvs).two_le_length
  refine ⟨m, hm, by omega, fun point h1 h2 => ?_⟩
  obtain ⟨n, -, -, htaken, hor⟩ :=
    topLevelForm_of_mem hdoc hmmem hmk (Int.le_of_lt h1) (Int.le_of_lt h2)
  obtain rfl : n = m := hor.resolve_right (by omega)
  rw [hnow, hstart, hstop] at htaken
  rw [hnow, hnext]
  have hin : InText ⟨pre ++ (tidiedText config done l ++ post), point⟩ := by
    unfold InText
    simp only [List.length_append]
    omega
  obtain ⟨b, hb, hbtext⟩ := exists_formatSpan config .multiLine true hin houtcome
  refine ⟨b, ?_, hbtext⟩
  have hrun : (perform (.ok config) .formatCurrentForm).on
      ⟨pre ++ (tidiedText config done l ++ post), point⟩ = (.ok (), b) := by
    show (liftM (topLevelForm _ _) >>= formatSpan config .multiLine true).on _ = _
    rw [htaken]
    exact hb
  rw [run, hrun]
  rfl

/-! ### all lists -/

/-- Formatting the lists at the top with these numbers, one after the other and each from any point
inside it, always succeeds, and leaves the text `out`. -/
def FormatsEachTo (config : Config) (out : Text) : List Nat → Text → Prop
  | [], text => text = out
  | i :: order, text =>
    ∃ p l, Passage.ofDocument text = .ok p ∧ p.lists[i]? = some l ∧ l.start + 1 < l.stop ∧
      ∀ point : Int, l.start < point → point < l.stop →
        ∃ b, run (.ok config) ⟨text, point⟩ .formatCurrentForm = .ok b ∧
          FormatsEachTo config out order b.text

theorem formatsEachTo_of_mem (hi : config.indent = false) (hp : Passage.ofDocument text = .ok p)
    (hw : wordsOf text = .ok ws) (hf : Formattable config ws) {order : List Nat}
    {done : List Lexeme} (hlt : ∀ i ∈ order, i < p.lists.length)
    (hall : ∀ l ∈ p.lists, l ∈ done ∨ ∃ i ∈ order, p.lists[i]? = some l) :
    FormatsEachTo config (spell (p.tidied config .multiLine text) ++ p.tail) order
      (spell (p.partlyTidied config done) ++ p.tail) := by
  induction order generalizing done with
  | nil =>
    have hdone : ∀ l ∈ p.lists, l ∈ done := fun l hl => (hall l hl).resolve_right (by simp)
    rw [FormatsEachTo, partlyTidied_of_all config hi hdone text]
  | cons i order ih =>
    have hlen : i < p.lists.length := hlt i (by simp)
    have hl : p.lists[i]? = some p.lists[i] := List.getElem?_eq_getElem hlen
    obtain ⟨m, hm, hroom, hstep⟩ := exists_formatCurrentForm config hi hp hw hf done hl
    refine ⟨_, m, ofDocument_partlyTidied config hp hw hf done, hm, hroom, fun point h1 h2 => ?_⟩
    obtain ⟨b, hb, htext⟩ := hstep point h1 h2
    refine ⟨b, hb, htext ▸ ih (fun j hj => hlt j (by simp [hj])) fun k hk => ?_⟩
    rcases hall k hk with hk | ⟨j, hj, hk⟩
    · exact .inl (List.mem_cons_of_mem _ hk)
    · rcases List.mem_cons.1 hj with rfl | hj
      · rw [hl] at hk
        exact .inl (Option.some.inj hk ▸ List.mem_cons_self ..)
      · exact .inr ⟨j, hj, hk⟩

/-- **The lists of a document can be formatted in any order.**  Without indentation and without a
`,` in front of an `@`, formatting the list around the point once for every list, from any point
inside it, leaves the text that formatting the whole buffer leaves. -/
theorem formatCurrentForm_any_order (hi : config.indent = false)
    (hp : Passage.ofDocument text = .ok p) (hw : wordsOf text = .ok ws) (hs : SpliceFree ws)
    {order : List Nat} (ho : order.Perm (List.range p.lists.length)) :
    ∃ out, (∀ b : Buffer, b.text = text → b.InText →
        ∃ b', b.run (.ok config) .formatBuffer = .ok b' ∧ b'.text = out) ∧
      FormatsEachTo config out order text := by
  have hf : Formattable config ws := ⟨hs, by simp [hi]⟩
  refine ⟨spell (p.tidied config .multiLine text) ++ p.tail, ?_, ?_⟩
  · rintro b rfl hin
    exact exists_formatAll hin (outcome_formatText config .multiLine hp hw hf)
  · have hstart : spell (p.partlyTidied config []) ++ p.tail = text := by
      rw [partlyTidied_nil]
      exact Passage.ofDocument_text hp
    have hlt : ∀ i ∈ order, i < p.lists.length := fun i h => List.mem_range.1 (ho.mem_iff.1 h)
    have hall : ∀ l ∈ p.lists, l ∈ ([] : List Lexeme) ∨ ∃ i ∈ order, p.lists[i]? = some l := by
      intro l hl
      obtain ⟨i, hlen, hget⟩ := List.getElem_of_mem hl
      exact .inr ⟨i, ho.mem_iff.2 (List.mem_range.2 hlen), List.getElem?_eq_some_iff.2 ⟨hlen, hget⟩⟩
    have heach := formatsEachTo_of_mem config hi hp hw hf hlt hall
    rwa [hstart] at heach

/-- Three lists, one behind a mark and two that touch, the last one first. -/
theorem formatCurrentForm_any_order_touching :
    [2, 0, 1].Perm (List.range 3) ∧
      ∃ out, (∀ b : Buffer, b.text = ";x\n(a (b) (c))\x27(d\n(e;y\n) , f)(g (h) [i ])".toList →
          b.InText →
            ∃ b', b.run (.ok .standard) .formatBuffer = .ok b' ∧ b'.text = out) ∧
        FormatsEachTo .standard out [2, 0,
          1] ";x\n(a (b) (c))\x27(d\n(e;y\n) , f)(g (h) [i ])".toList := by
  have ho : [2, 0, 1].Perm (List.range 3) := by decide
  obtain ⟨p, hp⟩ := exists_of_isOk
    (x := Passage.ofDocument ";x\n(a (b) (c))\x27(d\n(e;y\n) , f)(g (h) [i ])".toList)
      (by decide +kernel)
  obtain ⟨ws, hw⟩ := exists_of_isOk
    (x := wordsOf ";x\n(a (b) (c))\x27(d\n(e;y\n) , f)(g (h) [i ])".toList) (by decide +kernel)
  have hcount : (Passage.ofDocument ";x\n(a (b) (c))\x27(d\n(e;y\n) , f)(g (h) [i ])".toList).map
      (fun p => p.lists.length) = .ok 3 := by decide +kernel
  have hfree : (wordsOf ";x\n(a (b) (c))\x27(d\n(e;y\n) , f)(g (h) [i ])".toList).map
      (fun ws => decide (SpliceFree ws)) = .ok true := by decide +kernel
  rw [hp] at hcount
  rw [hw] at hfree
  have hlen : p.lists.length = 3 := Except.ok.inj hcount
  have hs : SpliceFree ws := of_decide_eq_true (Except.ok.inj hfree)
  exact ⟨ho, formatCurrentForm_any_order .standard rfl hp hw hs (hlen ▸ ho)⟩

end Documents

end Buffer


end SexpLayout
