import SexpLayout.Proofs.Buffer.AnyOrder
import SexpLayout.Proofs.Format.InPlace

/-!
# The text between lists

A document is formatted by formatting its lists in their places, so the text between the lists is
kept.

* `outcome_formatText_iff` — a formatted document is the text between its lists with the formatted
  lists put into it;
* `exists_replaceList` — **a list may be put in place of a list**: all else is read as before;
* `formatText_between` — so a list that is replaced changes its own part of the formatted document
  only.
-/

namespace SexpLayout

open Lexer (isOpener isDelimiter Follows EndsLine EndsAtom OpensList)
open Lexeme (spell spell_cons spell_append)

/-! ### lists in their text -/

namespace Text

/-- The text in front of the lists, between each of them and the next one, and behind the last
one. -/
def between (text : Text) : (offset : Nat) → List Lexeme → List Text
  | offset, [] => [text.since offset]
  | offset, l :: ls => text.slice offset l.start :: text.between l.stop ls

def regions (text : Text) (lists : List Lexeme) : List (Int × Text) :=
  lists.map fun l => (text.columnAt l.start, text.slice l.start l.stop)

end Text

/-- The texts around lists with the new texts of the lists put between them. -/
def weave : (around news : List Text) → Text
  | gap :: gaps, new :: news => gap ++ (new ++ weave gaps news)
  | gaps, _ => gaps.flatten

section Formatting

variable (config : Config) (mode : Mode)

/-! ### the text around the lists -/

/-- What stands around the lists among some lexemes, with a text in front of them and one behind
them. -/
def around (tail : Text) : (lead : Text) → List Lexeme → List Text
  | lead, [] => [lead ++ tail]
  | lead, l :: ls =>
    if l.kind = .compound then (lead ++ l.gap) :: around tail [] ls
      else around tail (lead ++ l.source) ls

/-- **The text between lists is what stands around them.** -/
theorem between_eq_around {text pre lead tail : Text} {ls : List Lexeme}
    (h : Fills text (pre ++ lead) ls tail) :
    text.between pre.length (ls.filter fun l => l.kind = .compound) = around tail lead ls := by
  induction ls generalizing pre lead with
  | nil =>
    have htext : text = pre ++ (lead ++ tail) := by simpa using h.text_eq
    simpa [Text.between, around, htext] using Text.since_append pre (lead ++ tail)
  | cons l ls ih =>
    by_cases hk : l.kind = .compound
    · obtain ⟨hstart, hstop⟩ := h.offsets
      have htext : text = pre ++ ((lead ++ l.gap) ++ (l.text ++ (spell ls ++ tail))) := by
        simpa [Lexeme.source] using h.text_eq
      have hslice : text.slice pre.length l.start = lead ++ l.gap := by
        have hlen : l.start = pre.length + (lead ++ l.gap).length := by simp [hstart]
        rw [htext, hlen, Text.slice_region]
      have hrest : text.between l.stop (ls.filter fun l => l.kind = .compound) =
          around tail [] ls := by
        have hlen : l.stop = (pre ++ lead ++ l.source).length := by
          simp [hstop, Lexeme.source]; omega
        rw [hlen]
        refine ih ?_
        rw [List.append_nil]
        exact h.cons
      rw [List.filter_cons_of_pos (by simpa using hk), Text.between, hslice, hrest,
        around, if_pos hk]
    · rw [List.filter_cons_of_neg (by simpa using hk), around, if_neg hk]
      refine ih ?_
      rw [← List.append_assoc]
      exact h.cons

theorem weave_around (tail lead : Text) (ls : List Lexeme) (news : List Text) :
    weave (around tail lead ls) news = lead ++ weave (around tail [] ls) news := by
  induction ls generalizing lead with
  | nil => cases news <;> simp [around, weave]
  | cons l ls ih =>
    by_cases hk : l.kind = .compound
    · cases news <;> simp [around, weave, hk]
    · simp only [around, if_neg hk]
      rw [ih, ih ([] ++ l.source), List.nil_append, List.append_assoc]

/-- **Lists replaced among lexemes**: the new texts stand in what stands around the lists. -/
theorem outcome_replaceFrom_iff {ε : Type} {f : Lexeme → Traced ε Text} {tail out : Text}
    {ls : List Lexeme} :
    (Passage.replaceFrom tail ls fun l _ _ => f l).outcome = .ok out ↔
      ∃ news, List.Forall₂ (fun l new => (f l).outcome = .ok new)
        (ls.filter fun l => l.kind = .compound) news ∧ out = weave (around tail [] ls) news := by
  induction ls generalizing out with
  | nil => simp [Passage.replaceFrom, around, weave, eq_comm]
  | cons l ls ih =>
    rw [Passage.replaceFrom, Traced.outcome_bind_eq_ok]
    by_cases hk : l.kind = .compound
    · rw [List.filter_cons_of_pos (by simpa using hk), around, if_pos hk]
      simp only [dif_pos hk, Traced.outcome_bind_eq_ok, ih, List.forall₂_cons_left_iff]
      constructor
      · rintro ⟨rest, ⟨news, hnews, rfl⟩, new, hnew, hout⟩
        refine ⟨new :: news, ⟨new, news, hnew, hnews, rfl⟩, ?_⟩
        simpa [weave] using hout.symm
      · rintro ⟨_, ⟨new, news, hnew, hnews, rfl⟩, rfl⟩
        exact ⟨_, ⟨news, hnews, rfl⟩, new, hnew, by simp [weave]⟩
    · rw [List.filter_cons_of_neg (by simpa using hk), around, if_neg hk]
      simp only [dif_neg hk, ih, weave_around tail ([] ++ l.source)]
      constructor
      · rintro ⟨rest, ⟨news, hnews, rfl⟩, hout⟩
        exact ⟨news, hnews, by simpa using hout.symm⟩
      · rintro ⟨news, hnews, rfl⟩
        exact ⟨_, ⟨news, hnews, rfl⟩, by simp⟩

/-- A list is formatted to a text at a column: it is laid out by itself, and then indented from the
column if lists are indented. -/
def FormatsTo (config : Config) (mode : Mode) (column : Int) (form new : Text) : Prop :=
  ∃ laid, (formatForm config mode true none form).outcome = .ok laid ∧
    if config.indent then indentText config.indentWidth column laid = .ok new else laid = new

theorem formatsTo_iff {column : Int} {form new : Text} :
    FormatsTo config mode column form new ↔
      (formatAt config mode true column form).outcome = .ok new := by
  rw [FormatsTo, formatAt, Traced.outcome_bind_eq_ok]
  refine exists_congr fun laid => and_congr_right fun _ => ?_
  by_cases hi : config.indent = true <;> simp [hi]

theorem FormatsTo.unique {config : Config} {mode : Mode} {column : Int} {form new new' : Text}
    (h : FormatsTo config mode column form new) (h' : FormatsTo config mode column form new') :
    new = new' := by
  rw [formatsTo_iff] at h h'
  exact Except.ok.inj (h.symm.trans h')

variable {text : Text} {p : Passage}

theorem between_lists (hp : Passage.ofDocument text = .ok p) :
    text.between 0 p.lists = around p.tail [] p.lexemes := by
  have h : Fills text ([] ++ []) p.lexemes p.tail := fills_ofDocument hp
  exact between_eq_around h

theorem regions_lists (hp : Passage.ofDocument text = .ok p) :
    text.regions p.lists = p.lists.map fun l => (text.columnAt l.start, l.text) :=
  List.map_congr_left fun _ hl => by rw [(fills_ofDocument hp).slice (List.mem_filter.1 hl).1]

/-- **A formatted document is the text between its lists with the formatted lists put into it.** -/
theorem outcome_formatText_iff (hp : Passage.ofDocument text = .ok p) {out : Text} :
    (formatText config mode text).outcome = .ok out ↔
      ∃ news, List.Forall₂ (fun r new => FormatsTo config mode r.1 r.2 new)
        (text.regions p.lists) news ∧ out = weave (text.between 0 p.lists) news := by
  have hlists : (formatText config mode text).outcome = .ok out ↔
      (p.replaceLists fun l _ _ =>
        formatAt config mode true (text.columnAt l.start) l.text).outcome = .ok out := by
    rw [formatText, hp, Traced.ofExcept_ok_bind, Traced.outcome_bind_eq_ok]
    constructor
    · rintro ⟨new, hnew, h⟩
      obtain rfl : new = out := Except.ok.inj h
      exact hnew
    · exact fun h => ⟨out, h, rfl⟩
  rw [hlists, Passage.replaceLists, outcome_replaceFrom_iff, between_lists hp, regions_lists hp]
  simp only [List.forall₂_map_left_iff, formatsTo_iff, Passage.lists]

end Formatting

/-! ### another list in the place of a list -/

theorem Lexer.Follows.opener_congr {k : Kind} {t u x : Text} {b c : Char} (hb : isOpener b = true)
    (hc : isOpener c = true) (h : Follows k t (u ++ b :: x)) (y : Text) :
    Follows k t (u ++ c :: y) := by
  have hline : EndsLine (u ++ b :: x) → EndsLine (u ++ c :: y) := by
    intro hx
    have hn : '\n' ∈ u ++ [b] :=
      newline_mem_of_endsLine (by simpa using hx) ⟨b, by simp, isBlank_of_isOpener hb⟩
    have hn : '\n' ∈ u := by
      rcases List.mem_append.1 hn with hn | hn
      · exact hn
      · obtain rfl : '\n' = b := by simpa using hn
        simp [isOpener] at hb
    rwa [EndsLine, takeWhile_line_append_of_mem hn] at hx ⊢
  cases u with
  | cons d u =>
    -- only the first character counts, unless the token is a comment
    cases k with
    | comment => exact hline h
    | _ => exact h
  | nil =>
    have hopens : ∀ {d : Char} {z : Text}, isOpener d = true → OpensList (d :: z) := by
      intro d z hd
      simpa [OpensList] using hd
    have hends : EndsAtom (c :: y) := by simp [EndsAtom, isDelimiter, hc]
    have hat : c ≠ '@' := by
      rintro rfl
      simp [isOpener] at hc
    cases k with
    | comment => exact hline h
    | punctuation =>
      exact h.imp (fun h => ⟨h.1, fun _ => by simpa using hat⟩) fun h => ⟨h.1, hopens hc⟩
    | symbol => exact ⟨hends, fun ht => absurd (hopens hb) (h.2 ht)⟩
    | number | other => exact hends
    | openParen | closeParen | string | compound => trivial

theorem Lexeme.Stands.opener_congr {l : Lexeme} {u x : Text} {b c : Char} (hb : isOpener b = true)
    (hc : isOpener c = true) (h : l.Stands (u ++ b :: x)) (y : Text) : l.Stands (u ++ c :: y) :=
  h.of_follows (by simp) ((Lexer.follows_of_cut h.cut).opener_congr hb hc y)

theorem Reading.opener_congr {us : List Lexeme} {g x : Text} {b c : Char} {ws : List Word}
    (hb : isOpener b = true) (hc : isOpener c = true) (h : Reading us (g ++ b :: x) ws) (y : Text) :
    Reading us (g ++ c :: y) ws := by
  induction us generalizing ws with
  | nil =>
    cases h
    exact .nil
  | cons l ls ih =>
    rcases h.cons_cases with ⟨us, hl, hls, rfl⟩ | ⟨vs, us, hk, hgap, hlist, hls, rfl⟩
    · refine .token ?_ (ih hls)
      rw [← List.append_assoc] at hl ⊢
      exact hl.opener_congr hb hc y
    · exact .of_list hk hgap hlist (ih hls)

/-- **A list may be put in the place of a list**: what stands around it is read as before. -/
theorem Reading.exists_replace {as bs : List Lexeme} {l : Lexeme} {r other : Text}
    {ws vs : List Word} (h : Reading (as ++ l :: bs) r ws) (hk : l.kind = .compound)
    (hother : ListReading other vs) :
    ∃ us, Reading (as ++ { l with text := other } :: bs) r us := by
  obtain ⟨ws₁, ws₂, has, hlbs, -⟩ := append_iff.1 h
  rcases hlbs.cons_cases with ⟨-, hl, -⟩ | ⟨_, us, -, hgap, hlist, hbs, -⟩
  · exact absurd hk hl.kind_ne_compound
  · obtain ⟨b, s, -, htext, hb, -⟩ := hlist.exists_cons
    obtain ⟨c, t, -, rfl, hc, -⟩ := hother.exists_cons
    have has' : Reading as (l.gap ++ b :: (s ++ (spell bs ++ r))) ws₁ := by
      simpa [Lexeme.source, htext] using has
    have hnew := has'.opener_congr hb hc (t ++ (spell bs ++ r))
    exact ⟨_,
      append_iff.2 ⟨_, _, by simpa [Lexeme.source] using hnew, .of_list hk hgap hother hbs, rfl⟩⟩

theorem around_placed (tail lead : Text) (offset : Nat) (ls : List Lexeme) :
    around tail lead (Lexeme.placed offset ls) = around tail lead ls := by
  induction ls generalizing lead offset with
  | nil => rfl
  | cons l ls ih => simp [around, Lexeme.placed, ih]

theorem around_replace (tail lead other : Text) (as bs : List Lexeme) {l : Lexeme}
    (hk : l.kind = .compound) :
    around tail lead (as ++ { l with text := other } :: bs) = around tail lead (as ++ l :: bs) := by
  induction as generalizing lead with
  | nil => simp [around, hk]
  | cons m as ih => simp [around, ih]

theorem map_text_filter_placed (offset : Nat) (ls : List Lexeme) :
    ((Lexeme.placed offset ls).filter fun l => l.kind = .compound).map (fun l => l.text) =
      (ls.filter fun l => l.kind = .compound).map fun l => l.text := by
  induction ls generalizing offset with
  | nil => rfl
  | cons l ls ih => by_cases hk : l.kind = .compound <;> simp [Lexeme.placed, hk, ih]

/-- The text is one list and nothing else. -/
def IsList (t : Text) : Prop := Passage.ofDocument t = .ok ⟨[⟨⟨.compound, t, 0, t.length⟩, []⟩], []⟩

theorem IsList.exists_listReading {t : Text} (h : IsList t) : ∃ vs, ListReading t vs := by
  obtain ⟨ws, -, hread, -⟩ := Passage.reading_of_ofDocument h
  obtain ⟨vs, hvs, -⟩ := hread.exists_infix_of_mem (List.mem_singleton_self _) rfl
  exact ⟨vs, hvs⟩

def Text.replaceList (text : Text) (l : Lexeme) (other : Text) : Text :=
  text.before l.start ++ (other ++ text.since l.stop)

section Replacing

variable {text other : Text} {p : Passage} {l : Lexeme}

theorem replaceList_eq (hp : Passage.ofDocument text = .ok p) {as bs : List Lexeme}
    (hcut : p.lexemes = as ++ l :: bs) (other : Text) :
    text.replaceList l other = spell (as ++ { l with text := other } :: bs) ++ p.tail := by
  obtain ⟨htext, hstart, hstop⟩ := (hcut ▸ fills_ofDocument hp).cut
  rw [Text.replaceList, htext, hstart, hstop, Text.before_append, Text.since_region]
  simp [Lexeme.source]

theorem ofDocument_replaceList (hp : Passage.ofDocument text = .ok p) {as bs : List Lexeme}
    (hcut : p.lexemes = as ++ l :: bs) (hk : l.kind = .compound) (hother : IsList other) :
    Passage.ofDocument (text.replaceList l other) =
      .ok ⟨Lexeme.placed 0 (as ++ { l with text := other } :: bs), p.tail⟩ := by
  obtain ⟨ws, -, hread, hfree, htail, -⟩ := Passage.reading_of_ofDocument hp
  rw [hcut] at hread hfree
  obtain ⟨vs, hvs⟩ := hother.exists_listReading
  obtain ⟨us, hus⟩ := hread.exists_replace hk hvs
  have hfree' : BracketFree (as ++ { l with text := other } :: bs) := by
    intro u hu
    rcases List.mem_append.1 hu with hu | hu
    · exact hfree u (by simp [hu])
    · rcases List.mem_cons.1 hu with rfl | hu
      · exact hfree l (by simp)
      · exact hfree u (by simp [hu])
  rw [replaceList_eq hp hcut other]
  exact (Passage.ofDocument_of_reading hus hfree' htail).1

/-- **With another list in the place of a list** a document has the same text between its lists, the
other lists are as they were, and the new one stands at the column of the old one. -/
theorem exists_replaceList {i : Nat} (hp : Passage.ofDocument text = .ok p)
    (hl : p.lists[i]? = some l) (hother : IsList other) :
    ∃ q, Passage.ofDocument (text.replaceList l other) = .ok q ∧
      (text.replaceList l other).between 0 q.lists = text.between 0 p.lists ∧
      ((text.replaceList l other).regions q.lists).map Prod.snd =
        ((text.regions p.lists).map Prod.snd).set i other ∧
      ((text.replaceList l other).regions q.lists)[i]? = some (text.columnAt l.start, other) := by
  obtain ⟨as, bs, hcut, hk, hcount⟩ := getElem?_filter_eq_some_iff.1 hl
  simp only [decide_eq_true_eq] at hk
  have hq := ofDocument_replaceList hp hcut hk hother
  refine ⟨_, hq, ?_, ?_, ?_⟩
  · rw [between_lists hq, between_lists hp, around_placed, around_replace _ _ _ _ _ hk, hcut]
  · have htexts : p.lists.map (fun l => l.text) =
        (as.filter fun l => l.kind = .compound).map (fun l => l.text) ++
          l.text :: (bs.filter fun l => l.kind = .compound).map fun l => l.text := by
      simp [Passage.lists, hcut, hk]
    have hlen : i = ((as.filter fun l => l.kind = .compound).map fun l => l.text).length := by
      rw [← hcount, List.length_map, List.countP_eq_length_filter]
    rw [regions_lists hq, regions_lists hp, List.map_map, List.map_map]
    show (Passage.lists _).map (fun l => l.text) = (p.lists.map fun l => l.text).set i other
    rw [htexts, hlen, Passage.lists, map_text_filter_placed]
    simp [hk]
  · -- the new list is found behind as many lists as the old one
    obtain ⟨m, hm, hmtext, hmcolumn⟩ : ∃ m, (Passage.lists
        ⟨Lexeme.placed 0 (as ++ { l with text := other } :: bs), p.tail⟩)[i]? = some m ∧
          m.text = other ∧ (text.replaceList l other).columnAt m.start = text.columnAt l.start := by
      rw [Lexeme.placed_append, Lexeme.placed] at hq ⊢
      refine ⟨_, getElem?_filter_eq_some_iff.2 ⟨_, _, rfl, by simpa using hk, ?_⟩, rfl, ?_⟩
      · have hlen := congrArg List.length (map_text_filter_placed 0 as)
        rw [List.length_map, List.length_map] at hlen
        rw [← hcount, List.countP_eq_length_filter, List.countP_eq_length_filter, hlen]
      · have hfills : Fills text [] (as ++ l :: bs) p.tail := hcut ▸ fills_ofDocument hp
        rw [(fills_ofDocument hq).columnAt, hfills.columnAt, Lexeme.spell_placed]
        rfl
    rw [regions_lists hq, List.getElem?_map, hm, Option.map_some, hmcolumn, hmtext]

theorem exists_set_of_forall₂ {α β : Type} {R : α → β → Prop} (hR : Relator.RightUnique R)
    {as : List α} {bs bs' : List β} {i : Nat} {a : α} (hi : i < as.length)
    (h : List.Forall₂ R as bs) (h' : List.Forall₂ R (as.set i a) bs') :
    ∃ b, R a b ∧ bs' = bs.set i b := by
  induction h generalizing i bs' with
  | nil => simp at hi
  | @cons c d cs ds hcd hs ih =>
    cases i with
    | zero =>
      obtain ⟨b, es, hab, hes, rfl⟩ := List.forall₂_cons_left_iff.1 h'
      obtain rfl : ds = es := List.right_unique_forall₂' hR hs hes
      exact ⟨b, hab, rfl⟩
    | succ i =>
      obtain ⟨e, es, hce, hes, rfl⟩ := List.forall₂_cons_left_iff.1 h'
      obtain ⟨b, hab, rfl⟩ := ih (by simpa using hi) hes
      exact ⟨b, hab, by rw [hR hce hcd, List.set_cons_succ]⟩

theorem eq_set_of_map {α β : Type} {xs ys : List (α × β)} {i : Nat} {a : α} {b : β}
    (hi : ys[i]? = some (a, b)) (hsnd : ys.map Prod.snd = (xs.map Prod.snd).set i b)
    (hfst : ∀ j, j ≠ i → (ys[j]?).map Prod.fst = (xs[j]?).map Prod.fst) : ys = xs.set i (a, b) := by
  refine List.ext_getElem? fun j => ?_
  have hlen : ys.length = xs.length := by simpa using congrArg List.length hsnd
  by_cases hj : j = i
  · obtain ⟨hlt, -⟩ := List.getElem?_eq_some_iff.1 hi
    rw [hj, hi, List.getElem?_set_self (hlen ▸ hlt)]
  · have h1 := hfst j hj
    have h2 : (ys[j]?).map Prod.snd = (xs[j]?).map Prod.snd := by
      rw [← List.getElem?_map, ← List.getElem?_map, hsnd, List.getElem?_set_ne (Ne.symm hj)]
    rw [List.getElem?_set_ne (Ne.symm hj)]
    cases hx : xs[j]? <;> cases hy : ys[j]? <;> simp_all [Prod.ext_iff]

end Replacing

/-! ### documents with a list replaced -/

section Changing

variable (config : Config) (mode : Mode) {text : Text} {p : Passage}

/-- **Formatting a document keeps the text between its lists.**  The lists can be formatted one by
one in the text that changes, the last one first.  If all of them can be formatted, and only then,
there is a result: the text between the lists with the new texts of the lists put into it, where the
new text of a list is made from its own text and its column in the document.  With another list in
the place of a list the document is read with the same text between its lists and with the same
other lists, and if the columns of these stay, only its own part of the result changes. -/
theorem formatText_between (hp : Passage.ofDocument text = .ok p) :
    formatText config mode text = formatInPlace config mode text ∧
    (∀ out, (formatText config mode text).outcome = .ok out ↔
      ∃ news, List.Forall₂ (fun r new => FormatsTo config mode r.1 r.2 new)
        (text.regions p.lists) news ∧ out = weave (text.between 0 p.lists) news) ∧
    ∀ i l other, p.lists[i]? = some l → IsList other →
      ∃ q, Passage.ofDocument (text.replaceList l other) = .ok q ∧
        (text.replaceList l other).between 0 q.lists = text.between 0 p.lists ∧
        ((text.replaceList l other).regions q.lists).map Prod.snd =
          ((text.regions p.lists).map Prod.snd).set i other ∧
        ((∀ j, j ≠ i → (((text.replaceList l other).regions q.lists)[j]?).map Prod.fst =
            ((text.regions p.lists)[j]?).map Prod.fst) →
          ∀ out out', (formatText config mode text).outcome = .ok out →
            (formatText config mode (text.replaceList l other)).outcome = .ok out' →
            ∃ news new,
              List.Forall₂ (fun r new => FormatsTo config mode r.1 r.2 new)
                (text.regions p.lists) news ∧
              FormatsTo config mode (text.columnAt l.start) other new ∧
              out = weave (text.between 0 p.lists) news ∧
              out' = weave (text.between 0 p.lists) (news.set i new)) := by
  refine ⟨formatText_eq_inPlace config mode text,
    fun _ => outcome_formatText_iff config mode hp, ?_⟩
  intro i l other hl hother
  obtain ⟨q, hq, hbetween, htexts, hself⟩ := exists_replaceList hp hl hother
  refine ⟨q, hq, hbetween, htexts, fun hcolumns out out' hout hout' => ?_⟩
  obtain ⟨news, hnews, rfl⟩ := (outcome_formatText_iff config mode hp).1 hout
  obtain ⟨news', hnews', rfl⟩ := (outcome_formatText_iff config mode hq).1 hout'
  rw [eq_set_of_map hself htexts hcolumns] at hnews'
  have hlt : i < (text.regions p.lists).length := by
    obtain ⟨hlt, -⟩ := List.getElem?_eq_some_iff.1 hl
    simpa [Text.regions] using hlt
  obtain ⟨new, hnew, rfl⟩ := exists_set_of_forall₂ (fun _ _ _ h h' => h.unique h') hlt hnews hnews'
  exact ⟨news, new, hnews, hnew, rfl, by rw [hbetween]⟩

/-- Three lists, one of them at a column of its own, and a comment between them. -/
theorem formatText_between_lines :
    ∃ p l, Passage.ofDocument "(a) ;x\n [b\n(c) (d)]\n(e)".toList = .ok p ∧ p.lists[1]? = some l ∧
      IsList "(f (g\n))".toList ∧
      Text.replaceList "(a) ;x\n [b\n(c) (d)]\n(e)".toList l "(f (g\n))".toList =
        "(a) ;x\n (f (g\n))\n(e)".toList ∧
      ∃ news new,
        "(a) ;x\n [b (c)\n   (d)]\n(e)".toList =
          weave (Text.between "(a) ;x\n [b\n(c) (d)]\n(e)".toList 0 p.lists) news ∧
        "(a) ;x\n (f (g))\n(e)".toList =
          weave (Text.between "(a) ;x\n [b\n(c) (d)]\n(e)".toList 0 p.lists) (news.set 1 new) := by
  obtain ⟨p, hp⟩ :=
    exists_of_isOk (x := Passage.ofDocument "(a) ;x\n [b\n(c) (d)]\n(e)".toList) (by decide +kernel)
  have hother : IsList "(f (g\n))".toList := by
    unfold IsList
    decide +kernel
  have hl : (Passage.ofDocument "(a) ;x\n [b\n(c) (d)]\n(e)".toList).map (fun p => p.lists[1]?) =
      .ok (some ⟨⟨.compound, "[b\n(c) (d)]".toList, 8, 19⟩, "\n ".toList⟩) := by
    decide +kernel
  have hnew : Text.replaceList "(a) ;x\n [b\n(c) (d)]\n(e)".toList
      ⟨⟨.compound, "[b\n(c) (d)]".toList, 8, 19⟩, "\n ".toList⟩ "(f (g\n))".toList =
        "(a) ;x\n (f (g\n))\n(e)".toList := by
    decide +kernel
  have hold : (Passage.ofDocument "(a) ;x\n [b\n(c) (d)]\n(e)".toList).map (fun p =>
      (Text.regions "(a) ;x\n [b\n(c) (d)]\n(e)".toList p.lists).map Prod.fst) = .ok [0, 1, 0] := by
    decide +kernel
  have hkept : (Passage.ofDocument "(a) ;x\n (f (g\n))\n(e)".toList).map (fun p =>
      (Text.regions "(a) ;x\n (f (g\n))\n(e)".toList p.lists).map Prod.fst) = .ok [0, 1, 0] := by
    decide +kernel
  rw [hp] at hl hold
  obtain ⟨-, -, hreplace⟩ :=
    formatText_between { Config.standard with indent := true } .multiLine hp
  obtain ⟨q, hq, -, -, hchange⟩ := hreplace 1 _ _ (Except.ok.inj hl) hother
  rw [hnew] at hq hchange
  rw [hq] at hkept
  have hcolumns := (Except.ok.inj hkept).trans (Except.ok.inj hold).symm
  obtain ⟨news, new, -, -, hout, hout'⟩ := hchange
    (fun j _ => by
      simpa only [List.getElem?_map] using congrArg (fun columns => columns[j]?) hcolumns)
    "(a) ;x\n [b (c)\n   (d)]\n(e)".toList "(a) ;x\n (f (g))\n(e)".toList
    (by decide +kernel) (by decide +kernel)
  exact ⟨p, _, hp, Except.ok.inj hl, hother, hnew, news, new, hout, hout'⟩

end Changing

end SexpLayout
