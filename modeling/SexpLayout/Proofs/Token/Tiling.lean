import Mathlib.Algebra.Ring.Parity
import Mathlib.Data.List.DropRight
import SexpLayout.Proofs.Text.Lines
import SexpLayout.Proofs.Token.Legible
import SexpLayout.Text.Slice

/-!
# The lexer tiles its text

The tokens that the lexer reads follow each other in the text, and between them there are blanks
only.  It stops early in one case: it comes to a quote behind which every other quote is escaped.
Then the tokens read so far tile the text up to that quote.

* `Tiles src n ts` — the tokens `ts` tile the first `n` characters of `src`;
* `Lexer.NeverCloses` — every quote of a text is escaped, which is seen from the backslashes right
  before it; `splitString_eq_none_iff` — **these are the texts in which a string does not end**;
* `StopsBehind src ls offset` — behind the lexemes `ls` a string starts at the offset and does not
  end; `scan_eq_error_iff` — **the lexer fails exactly there**;
* `scan_tiles` — what the lexer reads tiles the text, or the part of it in front of such a string.
-/

namespace SexpLayout

open Lexeme (spell spell_nil spell_cons spell_append Legible placed)

namespace Lexer

/-! ### strings that do not end -/

/-- A quote behind the text is escaped: the number of backslashes right before it is odd. -/
def Escaped (before : Text) : Prop := Odd (before.rtakeWhile (· = '\\')).length

/-- Every quote of the text is escaped. -/
def NeverCloses (t : Text) : Prop := ∀ before rest, t = before ++ '"' :: rest → Escaped before

theorem escaped_cons {c : Char} (hc : c ≠ '\\') (t : Text) : Escaped (c :: t) ↔ Escaped t := by
  rw [Escaped, Escaped, List.rtakeWhile, List.rtakeWhile, List.reverse_cons, List.takeWhile_append]
  split
  · next h =>
    simp [hc, (List.takeWhile_prefix _).eq_of_length h]
  · rfl

/-- A backslash and what it takes with it do not count, whether that is a backslash or not. -/
theorem escaped_pair (c : Char) (t : Text) : Escaped ('\\' :: c :: t) ↔ Escaped t := by
  simp only [Escaped, List.rtakeWhile, List.reverse_cons, List.append_assoc,
    @List.takeWhile_append _ _ t.reverse]
  split
  · next h =>
    rw [(List.takeWhile_prefix _).eq_of_length h]
    by_cases hc : c = '\\'
    · simp [hc, parity_simps]
    · simp [hc]
  · rfl

theorem neverCloses_cons {c : Char} (hq : c ≠ '"') (hb : c ≠ '\\') (t : Text) :
    NeverCloses (c :: t) ↔ NeverCloses t := by
  constructor
  · intro h before rest e
    exact (escaped_cons hb before).1 (h (c :: before) rest (by simp [e]))
  · intro h before rest e
    cases before with
    | nil => exact absurd (List.cons.inj e).1 hq
    | cons d before =>
      obtain ⟨rfl, htail⟩ := List.cons.inj e
      exact (escaped_cons hb before).2 (h before rest htail)

theorem neverCloses_pair (c : Char) (t : Text) : NeverCloses ('\\' :: c :: t) ↔ NeverCloses t := by
  constructor
  · intro h before rest e
    exact (escaped_pair c before).1 (h ('\\' :: c :: before) rest (by simp [e]))
  · intro h before rest e
    match before with
    | [] => simp at e
    | [d] =>
      obtain ⟨rfl, -⟩ := List.cons.inj e
      exact odd_one
    | d :: d' :: before =>
      obtain ⟨rfl, hc⟩ := List.cons.inj e
      obtain ⟨rfl, htail⟩ := List.cons.inj hc
      exact (escaped_pair c before).2 (h before rest htail)

/-- **A string does not end if every quote of it is escaped**, and only then. -/
theorem splitString_eq_none_iff (t : Text) : splitString t = none ↔ NeverCloses t := by
  fun_induction splitString t with
  | case1 => simp [NeverCloses]
  | case2 cs =>
    have : ¬ Escaped [] := by simp [Escaped]
    simpa using fun h : NeverCloses ('"' :: cs) => this (h [] cs rfl)
  | case3 c cs ih => rw [Option.map_eq_none_iff, ih, neverCloses_pair]
  | case4 c cs hq hesc ih =>
    rw [Option.map_eq_none_iff, ih]
    by_cases hb : c = '\\'
    · -- a backslash alone takes nothing with it, and there is no quote
      subst hb
      obtain rfl : cs = [] := by
        cases cs with
        | nil => rfl
        | cons d ds => exact absurd rfl (hesc d ds rfl)
      simp [NeverCloses, List.singleton_eq_append_iff]
    · exact (neverCloses_cons (by simpa using hq) hb cs).symm

theorem split?_eq_none_iff {c : Char} {cs : Text} :
    split? (c :: cs) = none ↔ c = '"' ∧ splitString cs = none := by
  constructor
  · intro h
    rw [split?] at h
    split at h
    · cases h
    split at h
    · cases h
    split at h
    · next hc =>
      exact ⟨hc, Option.map_eq_none_iff.1 h⟩
    split at h
    · cases h
    split at h
    · cases h
    · cases h
  · rintro ⟨rfl, h⟩
    simp [split?, isOpener, isCloser, h]

end Lexer

/-! ### where the lexer fails -/

/-- Behind the lexemes, which are read off one by one, and some blanks, a string starts at the
offset and does not end. -/
structure StopsBehind (src : Text) (ls : List Lexeme) (offset : Nat) : Prop where
  placed_eq : placed 0 ls = ls
  exists_rest :
    ∃ gap rest, src = spell ls ++ (gap ++ '"' :: rest) ∧ offset = (spell ls ++ gap).length ∧
    (∀ c ∈ gap, isBlank c = true) ∧ Legible ls (gap ++ '"' :: rest) ∧ Lexer.NeverCloses rest

namespace Passage

theorem scanAt_unclosed {gap rest : Text} (hgap : ∀ c ∈ gap, isBlank c = true)
    (hrest : Lexer.NeverCloses rest) (offset : Nat) :
    scanAt offset (gap ++ '"' :: rest) = .error (.unterminatedString (offset + gap.length)) := by
  obtain ⟨htake, hdrop⟩ := takeWhile_gap_append hgap (c := '"') (by decide) rest
  have hsplit := Lexer.split?_eq_none_iff.2 ⟨rfl, (Lexer.splitString_eq_none_iff rest).2 hrest⟩
  rw [scanAt]
  split
  · next hnil =>
    rw [hdrop] at hnil
    cases hnil
  · next c cs hcons =>
    rw [hdrop] at hcons
    cases hcons
    split
    · rw [htake]
    · next k t z hsome =>
      rw [hsplit] at hsome
      cases hsome

theorem scanAt_legible {ls : List Lexeme} {r : Text} (h : Legible ls r) (offset : Nat) :
    scanAt offset (spell ls ++ r) = (scanAt (offset + (spell ls).length) r).map fun p =>
      ⟨placed offset ls ++ p.lexemes, p.tail⟩ := by
  induction ls generalizing offset with
  | nil =>
    show scanAt offset r = (scanAt offset r).map fun p => p
    cases scanAt offset r <;> rfl
  | cons l ls ih =>
    rw [spell_cons, List.append_assoc, scanAt_stands h.1, ih h.2, List.length_append, Nat.add_assoc]
    cases scanAt (offset + (l.source.length + (spell ls).length)) r <;> rfl

theorem exists_of_scanAt_error {offset : Nat} {src : Text} {e : ReadError}
    (h : scanAt offset src = .error e) :
    ∃ ls gap rest, src = spell ls ++ (gap ++ '"' :: rest) ∧ placed offset ls = ls ∧
      e = .unterminatedString (offset + (spell ls ++ gap).length) ∧ (∀ c ∈ gap, isBlank c = true) ∧
      Legible ls (gap ++ '"' :: rest) ∧ Lexer.NeverCloses rest := by
  fun_induction scanAt offset src generalizing e with
  | case1 => cases h
  | case2 offset src gap c cs hc start =>
    next hs =>
    cases h
    obtain ⟨rfl, hrest⟩ := Lexer.split?_eq_none_iff.1 hs
    refine ⟨[], gap, cs, ?_, rfl, rfl, fun d hd => mem_takeWhile_isBlank hd, trivial,
      (Lexer.splitString_eq_none_iff cs).1 hrest⟩
    rw [spell_nil, List.nil_append, ← hc, List.takeWhile_append_dropWhile]
  | case3 offset src gap c cs hc start kind text rest hs stop e' he' =>
    next ih =>
    cases h
    obtain ⟨ls, gap', rest', rfl, hplaced, rfl, hblank, hleg, hnever⟩ := ih he'
    refine ⟨⟨⟨kind, text, start, stop⟩, gap⟩ :: ls, gap', rest', ?_, ?_, ?_, hblank,
      ⟨stands_of_split? hc hs start stop, hleg⟩, hnever⟩
    · rw [spell_cons, Lexeme.source, List.append_assoc, List.append_assoc,
        Lexer.split?_append hs, ← hc, List.takeWhile_append_dropWhile]
    · have hstart : placed stop ls = ls := hplaced
      simp only [placed, Lexeme.moved, Lexeme.source, List.length_append, ← Nat.add_assoc]
      rw [hstart]
    · simp only [spell_cons, Lexeme.source, List.length_append]
      congr 1
      omega
  | case4 => cases h

/-- **The lexer fails at a string that does not end**, which it comes to behind lexemes that it has
read. -/
theorem scan_eq_error_iff {src : Text} {e : ReadError} :
    scan src = .error e ↔ ∃ ls offset, StopsBehind src ls offset ∧
      e = .unterminatedString offset := by
  constructor
  · intro h
    obtain ⟨ls, gap, rest, hsrc, hplaced, rfl, hrest⟩ := exists_of_scanAt_error h
    exact ⟨ls, _, ⟨hplaced, gap, rest, hsrc, rfl, hrest⟩, by rw [Nat.zero_add]⟩
  · rintro ⟨ls, offset, ⟨-, gap, rest, rfl, rfl, hgap, hleg, hnever⟩, rfl⟩
    rw [scan, scanAt_legible hleg, scanAt_unclosed hgap hnever, Nat.zero_add, List.length_append]
    rfl

end Passage

/-! ### tilings -/

/-- The tokens tile the first `n` characters of the text: they follow each other, each of them is
the part of the text between its offsets and starts with ink, a comment ends within its line and
ends with ink, and every other character is blank. -/
structure Tiles (src : Text) (n : Nat) (ts : List Token) : Prop extends InOrder ts where
  within : ∀ t ∈ ts, t.stop ≤ n
  text_eq : ∀ t ∈ ts, t.text = src.slice t.start t.stop
  inked : ∀ t ∈ ts, ∃ c s, t.text = c :: s ∧ isBlank c = false
  comment : ∀ t ∈ ts, t.kind = .comment → '\n' ∉ t.text ∧ ∀ c ∈ t.text.getLast?, isBlank c = false
  blank : ∀ i c, i < n → src[i]? = some c → (∀ t ∈ ts, ¬ (t.start ≤ i ∧ i < t.stop)) →
    isBlank c = true

theorem Text.isBlank_getLast?_trimRight (t : Text) :
    ∀ c ∈ t.trimRight.getLast?, isBlank c = false := by
  induction t with
  | nil => simp [Text.trimRight]
  | cons d t ih =>
    rw [Text.trimRight]
    split
    · split
      · simp
      · next hd =>
        simpa using hd
    · next e s hs =>
      rwa [hs] at ih

theorem Lexer.Cut.comment_line {k : Kind} {t y : Text} (h : Cut k t y) (hk : k = .comment) :
    '\n' ∉ t ∧ ∀ c ∈ t.getLast?, isBlank c = false := by
  cases h with
  | opener | closer | string | mark => cases hk
  | @comment s y h =>
    rw [← List.cons_append] at h
    obtain ⟨hline, htrim, -⟩ := Lexer.splitComment_eq_iff.1 h
    exact ⟨hline, htrim ▸ Text.isBlank_getLast?_trimRight (';' :: s)⟩
  | atom =>
    simp only [Lexer.atomKind] at hk
    split_ifs at hk

namespace Lexeme

theorem exists_cut_of_mem_placed {ls : List Lexeme} {offset : Nat} {m : Lexeme}
    (h : m ∈ placed offset ls) :
    ∃ before l after, ls = before ++ l :: after ∧
      m = l.moved (offset + (spell before ++ l.gap).length) := by
  induction ls generalizing offset with
  | nil => simp [placed] at h
  | cons l ls ih =>
    rcases List.mem_cons.1 h with rfl | h
    · exact ⟨[], l, ls, rfl, rfl⟩
    · obtain ⟨before, l', after, rfl, rfl⟩ := ih h
      exact ⟨l :: before, l', after, rfl, by simp [Nat.add_assoc]⟩

/-- **Ink lies in a token.** -/
theorem exists_mem_placed_of_inked {ls : List Lexeme} {a b r : Text} {c : Char}
    (hgap : ∀ l ∈ ls, ∀ d ∈ l.gap, isBlank d = true) (h : spell ls ++ r = a ++ c :: b)
    (ha : a.length < (spell ls).length) (hc : isBlank c = false) (offset : Nat) :
    ∃ l ∈ placed offset ls, l.start ≤ offset + a.length ∧ offset + a.length < l.stop := by
  induction ls generalizing a offset with
  | nil => simp at ha
  | cons l ls ih =>
    rw [spell_cons, source, List.append_assoc, List.append_assoc] at h
    rcases Text.cut_append h with ⟨w, hw, -⟩ | ⟨a', rfl, hrest⟩
    · have hblank := hgap l (by simp) c (by simp [hw])
      rw [hc] at hblank
      cases hblank
    rcases Text.cut_append hrest with ⟨w, hw, -⟩ | ⟨a'', rfl, hlast⟩
    · have hlength : a'.length < l.text.length := by simp [hw]
      refine ⟨_, List.mem_cons_self, ?_, ?_⟩
      · simp only [moved, List.length_append]
        omega
      · simp only [moved, List.length_append]
        omega
    · have hlength : a''.length < (spell ls).length := by
        simp only [spell_cons, source, List.length_append] at ha
        omega
      obtain ⟨m, hm, hstart, hstop⟩ :=
        ih (fun m hm => hgap m (by simp [hm])) hlast hlength (offset + l.source.length)
      refine ⟨m, List.mem_cons_of_mem _ hm, ?_, ?_⟩
      · simp only [source, List.length_append] at hstart ⊢
        omega
      · simp only [source, List.length_append] at hstop ⊢
        omega

theorem Legible.gap_blank {ls : List Lexeme} {r : Text} (h : Legible ls r) :
    ∀ l ∈ ls, ∀ c ∈ l.gap, isBlank c = true := by
  intro l hl
  obtain ⟨before, after, rfl⟩ := List.append_of_mem hl
  exact (legible_append.1 h).2.1.gap_blank

/-- **Lexemes that are read off tile the text that they spell.** -/
theorem Legible.tiles {ls : List Lexeme} {r : Text} (h : Legible ls r) :
    Tiles (spell ls ++ r) (spell ls).length ((placed 0 ls).map Lexeme.toToken) := by
  have hcut : ∀ t ∈ (placed 0 ls).map Lexeme.toToken, ∃ before l after, ls = before ++ l :: after ∧
      t = (l.moved (spell before ++ l.gap).length).toToken ∧ l.Stands (spell after ++ r) := by
    intro t ht
    obtain ⟨m, hm, rfl⟩ := List.mem_map.1 ht
    obtain ⟨before, l, after, hls, rfl⟩ := exists_cut_of_mem_placed hm
    refine ⟨before, l, after, hls, by rw [Nat.zero_add], ?_⟩
    rw [hls] at h
    exact (legible_append.1 h).2.1
  refine ⟨h.inOrder 0, ?_, ?_, ?_, ?_, ?_⟩
  · intro t ht
    obtain ⟨before, l, after, rfl, rfl, -⟩ := hcut t ht
    simp only [moved, spell_append, spell_cons, source, List.length_append]
    omega
  · intro t ht
    obtain ⟨before, l, after, rfl, rfl, -⟩ := hcut t ht
    have hregion := Text.slice_region (spell before ++ l.gap) l.text (spell after ++ r)
    simpa [moved, source] using hregion.symm
  · intro t ht
    obtain ⟨before, l, after, rfl, rfl, hl⟩ := hcut t ht
    exact hl.inked
  · intro t ht hk
    obtain ⟨before, l, after, rfl, rfl, hl⟩ := hcut t ht
    exact hl.cut.comment_line hk
  · intro i c hi hget hout
    by_contra hc
    obtain ⟨hlt, rfl⟩ := List.getElem?_eq_some_iff.1 hget
    have hsplit :
        spell ls ++ r = (spell ls ++ r).take i ++ (spell ls ++ r)[i] ::
          (spell ls ++ r).drop (i + 1) := by
      rw [← List.drop_eq_getElem_cons hlt, List.take_append_drop]
    have hlength : ((spell ls ++ r).take i).length = i := List.length_take_of_le hlt.le
    obtain ⟨m, hm, hstart, hstop⟩ :=
      exists_mem_placed_of_inked h.gap_blank hsplit (by rwa [hlength]) (by simpa using hc) 0
    rw [hlength, Nat.zero_add] at hstart hstop
    exact hout m.toToken (List.mem_map_of_mem hm) ⟨hstart, hstop⟩

end Lexeme

theorem Tiles.append_blank {pre gap rest : Text} {ts : List Token}
    (h : Tiles (pre ++ (gap ++ rest)) pre.length ts) (hgap : ∀ c ∈ gap, isBlank c = true) :
    Tiles (pre ++ (gap ++ rest)) (pre ++ gap).length ts := by
  refine ⟨h.toInOrder, fun t ht => ?_, h.text_eq, h.inked, h.comment, fun i c hi hget hout => ?_⟩
  · have := h.within t ht
    rw [List.length_append]
    omega
  · by_cases hpre : i < pre.length
    · exact h.blank i c hpre hget hout
    · rw [List.length_append] at hi
      rw [List.getElem?_append_right (by omega), List.getElem?_append_left (by omega)] at hget
      exact hgap c (List.mem_of_getElem? hget)

theorem StopsBehind.tiles {src : Text} {ls : List Lexeme} {offset : Nat}
    (h : StopsBehind src ls offset) :
    Tiles src offset (ls.map Lexeme.toToken) ∧ src[offset]? = some '"' := by
  obtain ⟨hplaced, gap, rest, rfl, rfl, hgap, hleg, -⟩ := h
  have htiles := hleg.tiles.append_blank hgap
  rw [hplaced] at htiles
  exact ⟨htiles, by simp [← List.append_assoc]⟩

/-- **The lexer tiles its text.**  Where it succeeds, its tokens tile the whole text: they are in
order, do not overlap and are not empty, each one is the part of the text between its offsets and
starts with ink, no comment holds a line end or ends with a blank, and all else is blank.  It fails
exactly if behind tokens that tile the text before it a string starts at which every further quote
is escaped, and names the offset of its opening quote. -/
theorem scan_tiles (src : Text) :
    (∀ p, Passage.scan src = .ok p → Tiles src src.length p.tokens) ∧
    ∀ e, Passage.scan src = .error e ↔ ∃ ls offset, StopsBehind src ls offset ∧
      Tiles src offset (ls.map Lexeme.toToken) ∧ src[offset]? = some '"' ∧
      e = .unterminatedString offset ∧
      e.message = Text.ofString "unterminated string at offset " ++ Text.ofNat offset := by
  constructor
  · intro p hp
    obtain ⟨rfl, hleg, htail, hplaced⟩ := Passage.scan_eq_ok_iff.1 hp
    have htiles : Tiles (spell p.lexemes ++ (p.tail ++ [])) (spell p.lexemes).length p.tokens := by
      rw [List.append_nil, Passage.tokens, ← hplaced, Lexeme.spell_placed]
      exact hleg.tiles
    simpa [Passage.text] using htiles.append_blank htail
  · intro e
    rw [Passage.scan_eq_error_iff]
    constructor
    · rintro ⟨ls, offset, hstop, rfl⟩
      exact ⟨ls, offset, hstop, hstop.tiles.1, hstop.tiles.2, rfl, rfl⟩
    · rintro ⟨ls, offset, hstop, -, -, he, -⟩
      exact ⟨ls, offset, hstop, he⟩

/-- A literal of a quote, a comment with blanks behind it, strings of a backslash and of a quote,
and a final `?`; and a string whose only other quote is escaped. -/
theorem scan_tiles_escapes :
    (∃ p, Passage.scan "?\" ; c \t\n\"\\\\\" \"\\\"\" ?".toList = .ok p ∧ p.tokens.length = 5 ∧
      Tiles "?\" ; c \t\n\"\\\\\" \"\\\"\" ?".toList 20 p.tokens) ∧
    Passage.scan "(a\\\" \"b\\\\\\\" c".toList = .error (.unterminatedString 5) ∧
    ∃ ls, StopsBehind "(a\\\" \"b\\\\\\\" c".toList ls 5 ∧
      Tiles "(a\\\" \"b\\\\\\\" c".toList 5 (ls.map Lexeme.toToken) := by
  obtain ⟨p, hp⟩ :=
    exists_of_isOk (x := Passage.scan "?\" ; c \t\n\"\\\\\" \"\\\"\" ?".toList) (by decide +kernel)
  have hcount :
      (Passage.scan "?\" ; c \t\n\"\\\\\" \"\\\"\" ?".toList).map (fun p => p.tokens.length) =
        .ok 5 := by
    decide +kernel
  rw [hp] at hcount
  have herror : Passage.scan "(a\\\" \"b\\\\\\\" c".toList = .error (.unterminatedString 5) := by
    decide +kernel
  obtain ⟨ls, offset, hstop, htiles, -, he, -⟩ := ((scan_tiles _).2 _).1 herror
  obtain rfl : 5 = offset := by simpa using he
  exact ⟨⟨p, hp, Except.ok.inj hcount, (scan_tiles _).1 p hp⟩, herror, ls, hstop, htiles⟩

end SexpLayout
