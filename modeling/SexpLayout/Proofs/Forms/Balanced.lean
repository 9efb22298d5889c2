import Mathlib.Tactic.Tauto
import SexpLayout.Forms.Reader
import SexpLayout.Proofs.Token.Legible

/-!
# Balanced forms

A sequence of forms is balanced if its atoms are no brackets and the brackets of its lists match.
Reading lexemes gives balanced forms (`balanced_of_read`), and the lexemes of balanced forms are
read as these forms (`read_of_balanced`); so the forms of a text are the balanced and legible ones
that spell it (`ofText_eq_ok_iff`), and the words of a text alone decide how its brackets match
(`map_bare_eq_of_words`).
-/

namespace SexpLayout

open Lexeme (spell Legible word)

namespace Forms

/-- The atoms are no brackets, and the brackets of every list match. -/
def Balanced : Forms → Prop
  | nil => True
  | atom x rest => (x.kind ≠ .openParen ∧ x.kind ≠ .closeParen) ∧ rest.Balanced
  | list o inner c rest =>
    (o.kind = .openParen ∧ c.kind = .closeParen ∧ closes o.text c.text = true) ∧
      inner.Balanced ∧ rest.Balanced

/-! ### reversal -/

theorem reverseOnto_reverseOnto (f g h : Forms) :
    (f.reverseOnto g).reverseOnto h = g.reverseOnto (f.reverse.reverseOnto h) := by
  induction f generalizing g h with
  | nil => rfl
  | atom x rest ih =>
    have e : (atom x rest).reverse.reverseOnto h = atom x (rest.reverse.reverseOnto h) :=
      ih (atom x nil) h
    rw [reverseOnto, ih, e, reverseOnto]
  | list o inner c rest _ ih =>
    have e : (list o inner c rest).reverse.reverseOnto h =
        list o inner c (rest.reverse.reverseOnto h) :=
      ih (list o inner c nil) h
    rw [reverseOnto, ih, e, reverseOnto]

theorem reverse_reverse (f : Forms) : f.reverse.reverse = f := by
  induction f with
  | nil => rfl
  | atom x rest ih =>
    have h := reverseOnto_reverseOnto rest (atom x nil) nil
    exact h.trans (congrArg (atom x) ih)
  | list o inner c rest _ ih =>
    have h := reverseOnto_reverseOnto rest (list o inner c nil) nil
    exact h.trans (congrArg (list o inner c) ih)

theorem balanced_reverseOnto {f g : Forms} :
    (f.reverseOnto g).Balanced ↔ f.Balanced ∧ g.Balanced := by
  induction f generalizing g with
  | nil => simp [reverseOnto, Balanced]
  | atom x rest ih =>
    rw [reverseOnto, ih, Balanced, Balanced]
    tauto
  | list o inner c rest _ ih =>
    rw [reverseOnto, ih, Balanced, Balanced]
    tauto

theorem balanced_reverse {f : Forms} : f.reverse.Balanced ↔ f.Balanced := by
  simp [reverse, balanced_reverseOnto, Balanced]

/-! ### reading -/

theorem readOn_openParen {l : Lexeme} (h : l.kind = .openParen) (stack : List Frame) (done : Forms)
    (ls : List Lexeme) : readOn stack done (l :: ls) = readOn (⟨done, l⟩ :: stack) nil ls := by
  cases stack <;> simp [readOn, h]

theorem readOn_closeParen {l : Lexeme} {frame : Frame} (h : l.kind = .closeParen)
    (hc : closes frame.opener.text l.text = true) (stack : List Frame) (done : Forms)
    (ls : List Lexeme) :
    readOn (frame :: stack) done (l :: ls) =
      readOn stack (list frame.opener done.reverse l frame.before) ls := by
  rw [readOn]
  simp [h, hc]

theorem readOn_atom {l : Lexeme} (ho : l.kind ≠ .openParen) (hc : l.kind ≠ .closeParen)
    (stack : List Frame) (done : Forms) (ls : List Lexeme) :
    readOn stack done (l :: ls) = readOn stack (atom l done) ls := by
  cases stack <;> rw [readOn] <;> split <;> first | contradiction | rfl

/-- Reading balanced forms puts them in front of the forms read so far. -/
theorem readOn_lexemes_append {f : Forms} (hf : f.Balanced) (stack : List Frame) (done : Forms)
    (ls : List Lexeme) :
    readOn stack done (f.lexemes ++ ls) = readOn stack (f.reverseOnto done) ls := by
  induction f generalizing stack done ls with
  | nil => rfl
  | atom x rest ih =>
    rw [lexemes, List.cons_append, readOn_atom hf.1.1 hf.1.2, ih hf.2, reverseOnto]
  | list o inner c rest ihi ihr =>
    obtain ⟨⟨ho, hc, hcl⟩, hi, hr⟩ := hf
    rw [lexemes, List.cons_append, List.append_assoc, List.cons_append, readOn_openParen ho, ihi hi,
      readOn_closeParen hc hcl, ihr hr, reverseOnto]
    have hrev : (inner.reverseOnto nil).reverse = inner := reverse_reverse inner
    rw [hrev]

/-- **The lexemes of balanced forms are read as these forms.** -/
theorem read_of_balanced {f : Forms} (hf : f.Balanced) : read f.lexemes = .ok f := by
  have h := readOn_lexemes_append hf [] nil []
  rw [List.append_nil] at h
  rw [read, h, readOn]
  exact congrArg _ (reverse_reverse f)

/-- What has been read so far is balanced. -/
structure FrameBalanced (frame : Frame) : Prop where
  before : frame.before.Balanced
  opener : frame.opener.kind = .openParen

theorem balanced_of_readOn {stack : List Frame} {done : Forms} {ls : List Lexeme} {f : Forms}
    (h : readOn stack done ls = .ok f) (hs : ∀ frame ∈ stack, FrameBalanced frame)
    (hd : done.Balanced) :
    f.Balanced := by
  fun_induction readOn stack done ls with
  | case1 done =>
    cases h
    exact balanced_reverse.2 hd
  | case2 => cases h
  | case3 stack done l ls hk ih =>
    refine ih h ?_ trivial
    intro frame hframe
    rcases List.mem_cons.1 hframe with rfl | hframe
    · exact ⟨hd, hk⟩
    · exact hs frame hframe
  | case4 => cases h
  | case5 done l ls hk frame stack hc ih =>
    have hframe := hs frame (by simp)
    refine ih h (fun fr hfr => hs fr (by simp [hfr])) ?_
    exact ⟨⟨hframe.opener, hk, hc⟩, balanced_reverse.2 hd, hframe.before⟩
  | case6 => cases h
  | case7 stack done l ls ho hc ih => exact ih h hs ⟨⟨ho, hc⟩, hd⟩

theorem balanced_of_read {ls : List Lexeme} {f : Forms} (h : read ls = .ok f) : f.Balanced :=
  balanced_of_readOn h (by simp) trivial

/-! ### forms by their words -/

def map (g : Lexeme → Lexeme) : Forms → Forms
  | nil => nil
  | atom x rest => atom (g x) (rest.map g)
  | list o inner c rest => list (g o) (inner.map g) (g c) (rest.map g)

theorem lexemes_map (g : Lexeme → Lexeme) (f : Forms) : (f.map g).lexemes = f.lexemes.map g := by
  induction f with
  | nil => rfl
  | atom x rest ih => simp [map, lexemes, ih]
  | list o inner c rest ihi ihr => simp [map, lexemes, ihi, ihr]

/-- The lexeme without its blanks and offsets. -/
def bare (l : Lexeme) : Lexeme := ⟨⟨l.kind, l.text, 0, 0⟩, []⟩

theorem bare_eq_bare_iff {l m : Lexeme} : bare l = bare m ↔ l.word = m.word := by
  simp [bare, word]

theorem balanced_map_bare {f : Forms} : (f.map bare).Balanced ↔ f.Balanced := by
  induction f with
  | nil => rfl
  | atom x rest ih => simp only [map, Balanced, ih, bare]
  | list o inner c rest ihi ihr => simp only [map, Balanced, ihi, ihr, bare]

theorem map_bare_eq_map_bare {ls ms : List Lexeme} (h : ls.map word = ms.map word) :
    ls.map bare = ms.map bare := by
  have key : ∀ ls : List Lexeme, ls.map bare = (ls.map word).map fun w =>
      ⟨⟨w.1, w.2, 0, 0⟩, []⟩ := by
    intro ls
    rw [List.map_map]
    rfl
  rw [key, key, h]

/-- **How brackets match is decided by the words.** -/
theorem map_bare_eq_of_words {f g : Forms} (hf : f.Balanced) (hg : g.Balanced)
    (h : f.lexemes.map word = g.lexemes.map word) : f.map bare = g.map bare := by
  have hf' := read_of_balanced (balanced_map_bare.2 hf)
  have hg' := read_of_balanced (balanced_map_bare.2 hg)
  rw [lexemes_map, map_bare_eq_map_bare h, ← lexemes_map, hg'] at hf'
  exact (Except.ok.inj hf').symm

theorem words_eq_of_map_bare {f g : Forms} (h : f.map bare = g.map bare) :
    f.lexemes.map word = g.lexemes.map word := by
  have key : ∀ f : Forms, f.lexemes.map word = (f.map bare).lexemes.map word := by
    intro f
    rw [lexemes_map, List.map_map]
    rfl
  rw [key, key g, h]

theorem exists_refilled {f : Forms} {ms : List Lexeme} (h : ms.map word = f.lexemes.map word) :
    ∃ g : Forms, g.lexemes = ms ∧ g.map bare = f.map bare := by
  induction f generalizing ms with
  | nil => exact ⟨nil, (List.map_eq_nil_iff.1 h).symm, rfl⟩
  | atom x rest ih =>
    obtain ⟨m, ms, rfl, hm, hms⟩ := List.map_eq_cons_iff.1 h
    obtain ⟨g, rfl, hg⟩ := ih hms
    exact ⟨atom m g, rfl, by simp only [map, hg, bare_eq_bare_iff.2 hm]⟩
  | list o inner c rest ihi ihr =>
    rw [lexemes, List.map_cons, List.map_append, List.map_cons] at h
    obtain ⟨m, ms, rfl, hm, hms⟩ := List.map_eq_cons_iff.1 h
    obtain ⟨is, ms, rfl, his, hms⟩ := List.map_eq_append_iff.1 hms
    obtain ⟨n, ns, rfl, hn, hns⟩ := List.map_eq_cons_iff.1 hms
    obtain ⟨gi, rfl, hgi⟩ := ihi his
    obtain ⟨gr, rfl, hgr⟩ := ihr hns
    refine ⟨list m gi n gr, rfl, ?_⟩
    simp only [map, hgi, hgr, bare_eq_bare_iff.2 hm, bare_eq_bare_iff.2 hn]

/-! ### offsets -/

/-- The forms with the offsets they have in a text that they spell from an offset on. -/
def placed (offset : Nat) : Forms → Forms
  | nil => nil
  | atom x rest => atom (x.moved (offset + x.gap.length)) (rest.placed (offset + x.source.length))
  | list o inner c rest =>
    let first := offset + o.source.length
    let last := first + (spell inner.lexemes).length
    list (o.moved (offset + o.gap.length)) (inner.placed first) (c.moved (last + c.gap.length))
      (rest.placed (last + c.source.length))

theorem lexemes_placed (offset : Nat) (f : Forms) :
    (f.placed offset).lexemes = Lexeme.placed offset f.lexemes := by
  induction f generalizing offset with
  | nil => rfl
  | atom x rest ih => simp [placed, lexemes, Lexeme.placed, ih]
  | list o inner c rest ihi ihr =>
    simp [placed, lexemes, Lexeme.placed, Lexeme.placed_append, ihi, ihr]

theorem grouped_placed (offset : Nat) (f : Forms) :
    (f.placed offset).grouped = Lexeme.placed offset f.grouped := by
  induction f generalizing offset with
  | nil => rfl
  | atom x rest ih => simp [placed, grouped, Lexeme.placed, ih]
  | list o inner c rest ihi ihr =>
    have hhead :
        compound (o.moved (offset + o.gap.length)) (inner.placed (offset + o.source.length))
        (c.moved (offset + o.source.length + (spell inner.lexemes).length + c.gap.length)) =
        (compound o inner c).moved (offset + o.gap.length) := by
      simp only [compound, Lexeme.moved, lexemes_placed, Lexeme.spell_placed, Lexeme.source,
        List.length_append, Lexeme.mk.injEq, Token.mk.injEq, true_and, and_true]
      omega
    have hlen : offset + o.source.length + (spell inner.lexemes).length + c.source.length =
        offset + (compound o inner c).source.length := by
      rw [source_compound, List.length_append, List.length_append]
      omega
    simp only [placed, grouped, Lexeme.placed, ihr, hhead, hlen]
    rfl

theorem opened_placed (offset : Nat) (f : Forms) :
    (f.placed offset).opened = Lexeme.placed offset f.opened := by
  cases f with
  | nil => rfl
  | atom x rest => exact grouped_placed offset (atom x rest)
  | list o inner c rest =>
    cases rest with
    | nil =>
      simp [placed, opened, grouped_placed, Lexeme.placed, Lexeme.placed_append, source_grouped]
    | atom x rest => exact grouped_placed offset (list o inner c (atom x rest))
    | list o' inner' c' rest =>
      exact grouped_placed offset (list o inner c (list o' inner' c' rest))

theorem balanced_placed {offset : Nat} {f : Forms} : (f.placed offset).Balanced ↔ f.Balanced := by
  induction f generalizing offset with
  | nil => rfl
  | atom x rest ih => simp [placed, Balanced, ih]
  | list o inner c rest ihi ihr => simp [placed, Balanced, ihi, ihr]

theorem placed_eq_self {f : Forms} (hf : f.Balanced) (h : Lexeme.placed 0 f.lexemes = f.lexemes) :
    f.placed 0 = f := by
  have hr := read_of_balanced (balanced_placed.2 hf : (f.placed 0).Balanced)
  rw [lexemes_placed, h, read_of_balanced hf] at hr
  exact (Except.ok.inj hr).symm

/-- **The forms of a text** are the balanced forms with legible lexemes that spell it. -/
theorem ofText_eq_ok_iff {src : Text} {f : Forms} {tail : Text} :
    ofText src = .ok (f, tail) ↔ spell f.lexemes ++ tail = src ∧ f.Balanced ∧
      Legible f.lexemes tail ∧
      (∀ c ∈ tail, isBlank c = true) ∧ Lexeme.placed 0 f.lexemes = f.lexemes := by
  constructor
  · intro h
    have hs := ofText_eq_ok h
    obtain ⟨h1, h2, h3, h4⟩ := Passage.scan_eq_ok_iff.1 hs
    have hr : read f.lexemes = .ok f := by
      simp only [ofText, hs, bind, Except.bind, pure, Except.pure] at h
      split at h
      · cases h
      · next g hg =>
        cases h
        exact hg
    exact ⟨h1, balanced_of_read hr, h2, h3, h4⟩
  · rintro ⟨rfl, hb, hl, ht, hp⟩
    have hs : Passage.scan (spell f.lexemes ++ tail) = .ok ⟨f.lexemes, tail⟩ :=
      Passage.scan_eq_ok_iff.2 ⟨rfl, hl, ht, hp⟩
    simp only [ofText, hs, bind, Except.bind, pure, Except.pure, read_of_balanced hb]

end Forms

end SexpLayout
