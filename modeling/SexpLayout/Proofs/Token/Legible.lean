import SexpLayout.Proofs.Token.Follow

/-!
# Legible lexemes

`Lexeme.Legible ls r` says that the lexemes `ls` are read off one by one in front of the text `r`.
The lexer accepts exactly the texts that are spelled by legible lexemes (`Passage.scan_eq_ok_iff`),
so that a text with moved blanks is read as the lexemes it was spelled from.

* `Lexeme.placed` — the lexemes with the offsets they have in the text that they spell;
* `wordsOf` — the tokens of a text by kind and characters, without their offsets.
-/

namespace SexpLayout

open Lexer (Cut Follows)

/-- A token without its offsets: its kind and its characters. -/
abbrev Word := Kind × Text

namespace Lexeme

def word (l : Lexeme) : Word := (l.kind, l.text)

/-- The lexeme is read off in front of the text `y`. -/
structure Stands (l : Lexeme) (y : Text) : Prop where
  gap_blank : ∀ c ∈ l.gap, isBlank c = true
  inked : ∃ c s, l.text = c :: s ∧ isBlank c = false
  cut : Cut l.kind l.text y

/-- The lexemes are read off one by one in front of the text. -/
def Legible : List Lexeme → Text → Prop
  | [], _ => True
  | l :: ls, r => l.Stands (spell ls ++ r) ∧ Legible ls r

theorem Stands.ne_nil {l : Lexeme} {y : Text} (h : l.Stands y) : l.text ≠ [] := by
  obtain ⟨c, s, e, -⟩ := h.inked
  simp [e]

theorem Stands.exists_inked {l : Lexeme} {y : Text} (h : l.Stands y) :
    ∃ c ∈ l.source, isBlank c = false := by
  obtain ⟨c, s, e, hc⟩ := h.inked
  exact ⟨c, by simp [source, e], hc⟩

theorem Stands.kind_ne_compound {l : Lexeme} {y : Text} (h : l.Stands y) : l.kind ≠ .compound :=
  Lexer.split?_kind (Lexer.split?_of_cut h.cut)

theorem Stands.of_follows {l : Lexeme} {x y : Text} (h : l.Stands x) (hx : x = [] → y = [])
    (hy : Follows l.kind l.text y) : l.Stands y :=
  ⟨h.gap_blank, h.inked, Lexer.cut_of_follows h.cut hx hy⟩

theorem Stands.append_congr {l : Lexeme} {u x : Text} (h : l.Stands (u ++ x))
    (hu : ∃ c ∈ u, isBlank c = false) (y : Text) : l.Stands (u ++ y) := by
  refine h.of_follows ?_ ((Lexer.follows_of_cut h.cut).append_congr hu y)
  intro e
  obtain ⟨c, hc, -⟩ := hu
  simp [(List.append_eq_nil_iff.1 e).1] at hc

theorem legible_append {ls ms : List Lexeme} {r : Text} :
    Legible (ls ++ ms) r ↔ Legible ls (spell ms ++ r) ∧ Legible ms r := by
  induction ls with
  | nil => simp [Legible]
  | cons l ls ih =>
    simp only [List.cons_append, Legible, ih, spell_append, List.append_assoc, and_assoc]

theorem Legible.text_ne_nil {ls : List Lexeme} {r : Text} (h : Legible ls r) {l : Lexeme}
    (hl : l ∈ ls) : l.text ≠ [] := by
  obtain ⟨before, after, rfl⟩ := List.append_of_mem hl
  exact (legible_append.1 h).2.1.ne_nil

/-- Whether lexemes are legible is decided by what stands up to the first inked character behind
them. -/
theorem Legible.append_congr {ls : List Lexeme} {u x : Text} (h : Legible ls (u ++ x))
    (hu : ∃ c ∈ u, isBlank c = false) (y : Text) : Legible ls (u ++ y) := by
  induction ls with
  | nil => trivial
  | cons l ls ih =>
    obtain ⟨h1, h2⟩ := h
    obtain ⟨c, hcu, hc⟩ := hu
    refine ⟨?_, ih h2⟩
    rw [← List.append_assoc] at h1 ⊢
    exact h1.append_congr ⟨c, List.mem_append_right _ hcu, hc⟩ y

theorem Legible.append {ls : List Lexeme} {u : Text} (h : Legible ls u)
    (hu : ∃ c ∈ u, isBlank c = false) (y : Text) : Legible ls (u ++ y) := by
  rw [← List.append_nil u] at h
  exact h.append_congr hu y

/-! ### offsets -/

/-- The lexeme with the offsets of a token that starts at an offset. -/
def moved (start : Nat) (l : Lexeme) : Lexeme :=
  { l with start := start, stop := start + l.text.length }

/-- The lexemes with the offsets they have in a text that they spell from an offset on. -/
def placed (offset : Nat) : List Lexeme → List Lexeme
  | [] => []
  | l :: ls => l.moved (offset + l.gap.length) :: placed (offset + l.source.length) ls

@[simp] theorem moved_kind (n : Nat) (l : Lexeme) : (l.moved n).kind = l.kind := rfl
@[simp] theorem moved_text (n : Nat) (l : Lexeme) : (l.moved n).text = l.text := rfl
@[simp] theorem moved_gap (n : Nat) (l : Lexeme) : (l.moved n).gap = l.gap := rfl
@[simp] theorem moved_word (n : Nat) (l : Lexeme) : (l.moved n).word = l.word := rfl
@[simp] theorem moved_source (n : Nat) (l : Lexeme) : (l.moved n).source = l.source := rfl
@[simp] theorem moved_moved (m n : Nat) (l : Lexeme) : (l.moved m).moved n = l.moved n := rfl

theorem placed_append (offset : Nat) (ls ms : List Lexeme) :
    placed offset (ls ++ ms) = placed offset ls ++ placed (offset + (spell ls).length) ms := by
  induction ls generalizing offset with
  | nil => simp [placed]
  | cons l ls ih => simp [placed, ih, Nat.add_assoc]

@[simp] theorem spell_placed (offset : Nat) (ls : List Lexeme) :
    spell (placed offset ls) = spell ls := by
  induction ls generalizing offset with
  | nil => rfl
  | cons l ls ih => simp [placed, ih]

theorem map_placed {α : Type} {f : Lexeme → α} (hf : ∀ n l, f (moved n l) = f l) (offset : Nat)
    (ls : List Lexeme) :
    (placed offset ls).map f = ls.map f := by
  induction ls generalizing offset with
  | nil => rfl
  | cons l ls ih => rw [placed, List.map_cons, List.map_cons, hf, ih]

@[simp] theorem map_word_placed (offset : Nat) (ls : List Lexeme) :
    (placed offset ls).map word = ls.map word :=
  map_placed moved_word offset ls

theorem map_gap_placed (offset : Nat) (ls : List Lexeme) :
    (placed offset ls).map (fun l => l.gap) = ls.map fun l => l.gap :=
  map_placed moved_gap offset ls

@[simp] theorem length_placed (offset : Nat) (ls : List Lexeme) :
    (placed offset ls).length = ls.length := by
  rw [← List.length_map (f := word), map_word_placed, List.length_map]

theorem exists_mem_of_map_word {ls ms : List Lexeme} (h : ls.map word = ms.map word) {l : Lexeme}
    (hl : l ∈ ls) :
    ∃ m ∈ ms, m.kind = l.kind ∧ m.text = l.text := by
  have hmem : l.word ∈ ms.map word := h ▸ List.mem_map_of_mem hl
  obtain ⟨m, hm, e⟩ := List.mem_map.1 hmem
  exact ⟨m, hm, by simpa [word] using e⟩

theorem placed_placed (m n : Nat) (ls : List Lexeme) : placed m (placed n ls) = placed m ls := by
  induction ls generalizing m n with
  | nil => rfl
  | cons l ls ih => simp [placed, ih]

theorem stop_of_mem_placed {ls : List Lexeme} {offset : Nat} {l : Lexeme}
    (h : l ∈ placed offset ls) :
    l.stop = l.start + l.text.length := by
  induction ls generalizing offset with
  | nil => simp [placed] at h
  | cons m ms ih =>
    rcases List.mem_cons.1 h with rfl | h
    · rfl
    · exact ih h

theorem le_start_of_mem_placed {ls : List Lexeme} {offset : Nat} {l : Lexeme}
    (h : l ∈ placed offset ls) :
    offset ≤ l.start := by
  induction ls generalizing offset with
  | nil => simp [placed] at h
  | cons m ms ih =>
    rcases List.mem_cons.1 h with rfl | h
    · exact Nat.le_add_right ..
    · have := ih h
      omega

theorem pairwise_placed (offset : Nat) (ls : List Lexeme) :
    (placed offset ls).Pairwise fun l m => l.stop ≤ m.start := by
  induction ls generalizing offset with
  | nil => exact .nil
  | cons l ls ih =>
    refine .cons (fun m hm => ?_) (ih _)
    have := le_start_of_mem_placed hm
    simp only [moved, source, List.length_append] at this ⊢
    omega

theorem legible_placed {offset : Nat} {ls : List Lexeme} {r : Text} :
    Legible (placed offset ls) r ↔ Legible ls r := by
  induction ls generalizing offset with
  | nil => rfl
  | cons l ls ih =>
    simp only [placed, Legible, ih, spell_placed]
    refine and_congr_left fun _ => ?_
    exact ⟨fun h => ⟨h.1, h.2, h.3⟩, fun h => ⟨h.1, h.2, h.3⟩⟩

end Lexeme

open Lexeme (spell Legible placed word)

/-- Tokens that take up room and follow each other. -/
structure InOrder (ts : List Token) : Prop where
  room : ∀ t ∈ ts, t.start < t.stop
  follow : ts.Pairwise fun t u => t.stop ≤ u.start

theorem InOrder.stop_le_start {ts : List Token} (h : InOrder ts) {i j : Nat} {t u : Token}
    (ht : ts[i]? = some t) (hu : ts[j]? = some u) (hij : i < j) : t.stop ≤ u.start := by
  obtain ⟨hi, rfl⟩ := List.getElem?_eq_some_iff.1 ht
  obtain ⟨hj, rfl⟩ := List.getElem?_eq_some_iff.1 hu
  exact List.pairwise_iff_getElem.1 h.follow i j hi hj hij

theorem Lexeme.Legible.inOrder {ls : List Lexeme} {r : Text} (h : Legible ls r) (offset : Nat) :
    InOrder ((placed offset ls).map Lexeme.toToken) := by
  constructor
  · intro t ht
    obtain ⟨l, hmem, rfl⟩ := List.mem_map.1 ht
    have htext := List.length_pos_iff.2 ((Lexeme.legible_placed.2 h).text_ne_nil hmem)
    have hstop := Lexeme.stop_of_mem_placed hmem
    omega
  · rw [List.pairwise_map]
    exact Lexeme.pairwise_placed offset ls

namespace Passage

/-! ### the lexer reads legible lexemes -/

theorem takeWhile_gap_append {g : Text} (hg : ∀ c ∈ g, isBlank c = true) {c : Char}
    (hc : isBlank c = false) (y : Text) :
    (g ++ c :: y).takeWhile isBlank = g ∧ (g ++ c :: y).dropWhile isBlank = c :: y := by
  rw [List.takeWhile_append_of_pos hg, List.dropWhile_append_of_pos hg]
  simp [hc]

theorem scanAt_blank {r : Text} (hr : ∀ c ∈ r, isBlank c = true) (offset : Nat) :
    scanAt offset r = .ok ⟨[], r⟩ := by
  rw [scanAt]
  split
  · rw [List.takeWhile_eq_self_iff.2 hr]
  · next c cs hc =>
    rw [List.dropWhile_eq_nil_iff.2 hr] at hc
    cases hc

theorem scanAt_stands {l : Lexeme} {y : Text} (h : l.Stands y) (offset : Nat) :
    scanAt offset (l.source ++ y) = (scanAt (offset + l.source.length) y).map fun p =>
      ⟨l.moved (offset + l.gap.length) :: p.lexemes, p.tail⟩ := by
  obtain ⟨c, s, e, hc⟩ := h.inked
  have hsplit := Lexer.split?_of_cut h.cut
  have hsrc : l.source ++ y = l.gap ++ c :: (s ++ y) := by simp [Lexeme.source, e]
  obtain ⟨htake, hdrop⟩ := takeWhile_gap_append h.gap_blank hc (s ++ y)
  rw [e, List.cons_append] at hsplit
  rw [hsrc, scanAt]
  split
  · next hnil =>
    rw [hdrop] at hnil
    cases hnil
  · next d ds hcons =>
    rw [hdrop] at hcons
    cases hcons
    split
    · next hnone =>
      rw [hsplit] at hnone
      cases hnone
    · next k t z hsome =>
      rw [hsplit] at hsome
      cases hsome
      have hlen : offset + l.source.length = offset + l.gap.length + (c :: s).length := by
        simp [Lexeme.source, e, Nat.add_assoc]
      rw [htake, hlen]
      dsimp only
      cases scanAt (offset + l.gap.length + (c :: s).length) y with
      | error err => rfl
      | ok p => simp [Except.map, Lexeme.moved, e]

theorem scanAt_of_legible {ls : List Lexeme} {r : Text} (h : Legible ls r)
    (hr : ∀ c ∈ r, isBlank c = true) (offset : Nat) :
    scanAt offset (spell ls ++ r) = .ok ⟨placed offset ls, r⟩ := by
  induction ls generalizing offset with
  | nil => exact scanAt_blank hr offset
  | cons l ls ih =>
    rw [Lexeme.spell_cons, List.append_assoc, scanAt_stands h.1, ih h.2]
    rfl

theorem stands_of_split? {src : Text} {c : Char} {cs : Text} {kind : Kind} {text rest : Text}
    (hc : src.dropWhile isBlank = c :: cs) (hs : Lexer.split? (c :: cs) = some (kind, text, rest))
    (start stop : Nat) :
    Lexeme.Stands ⟨⟨kind, text, start, stop⟩, src.takeWhile isBlank⟩ rest := by
  have hb := Lexer.isBlank_of_dropWhile hc
  have hne := Lexer.split?_ne_nil hb hs
  have happ := Lexer.split?_append hs
  refine ⟨fun d hd => mem_takeWhile_isBlank hd, ?_, Lexer.cut_of_split? (happ ▸ hs) hne⟩
  obtain ⟨d, s, rfl⟩ := List.exists_cons_of_ne_nil hne
  cases happ
  exact ⟨c, s, rfl, hb⟩

theorem legible_of_scanAt {offset : Nat} {src : Text} {p : Passage}
    (h : scanAt offset src = .ok p) :
    Legible p.lexemes p.tail ∧ placed offset p.lexemes = p.lexemes := by
  fun_induction scanAt offset src generalizing p with
  | case1 =>
    cases h
    exact ⟨trivial, rfl⟩
  | case2 => cases h
  | case3 => cases h
  | case4 offset src gap c cs hc start kind text rest hs stop q hq =>
    next ih =>
    cases h
    obtain ⟨h1, h2⟩ := ih hq
    have hrest : spell q.lexemes ++ q.tail = rest := scanAt_text hq
    refine ⟨⟨hrest ▸ stands_of_split? hc hs start stop, h1⟩, ?_⟩
    simp only [placed, Lexeme.moved, Lexeme.source, List.length_append, ← Nat.add_assoc]
    congr 1

/-- **The lexer reads exactly the texts that legible lexemes spell**, and reads those lexemes. -/
theorem scan_eq_ok_iff {src : Text} {p : Passage} :
    scan src = .ok p ↔ p.text = src ∧ Legible p.lexemes p.tail ∧ (∀ c ∈ p.tail, isBlank c = true) ∧
      placed 0 p.lexemes = p.lexemes := by
  constructor
  · intro h
    obtain ⟨h1, h2⟩ := legible_of_scanAt h
    exact ⟨scan_text h, h1, (scan_proper h).2, h2⟩
  · rintro ⟨rfl, h1, h2, h3⟩
    have h := scanAt_of_legible h1 h2 0
    rwa [h3] at h

end Passage

/-- The tokens of a text by kind and characters. -/
def wordsOf (src : Text) : Except ReadError (List Word) :=
  (Passage.scan src).map fun p => p.lexemes.map word

theorem exists_of_isOk {ε α : Type} {x : Except ε α} (h : x.isOk = true) : ∃ a, x = .ok a := by
  cases x with
  | ok a => exact ⟨a, rfl⟩
  | error e => cases h

theorem eq_ok_of_toOption {ε α : Type} {x : Except ε α} {a : α} (h : x.toOption = some a) :
    x = .ok a := by
  cases x with
  | ok b => exact congrArg Except.ok (Option.some.inj h)
  | error e => cases h

theorem exists_scan_of_wordsOf {src : Text} {ws : List Word} (h : wordsOf src = .ok ws) :
    ∃ p, Passage.scan src = .ok p := by
  cases hp : Passage.scan src with
  | ok p => exact ⟨p, rfl⟩
  | error e =>
    rw [wordsOf, hp] at h
    cases h

end SexpLayout
