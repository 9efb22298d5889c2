import SexpLayout.Proofs.Token.Legible

/-!
# Tokens apart

Where a token stops does not depend on which blank follows it, so the tokens of a text may be set
apart with any blanks between them, a line end behind each comment, and are read again as they were.
What may change is the kind of the mark of a list such as `#s`: apart from its list, it is a symbol.

* `Lexer.kindApart` — the kind of a token that stands apart from the next one;
* `Lexer.cut_apart` — **a token is cut off in front of blanks** if it is cut off somewhere;
* `Lexeme.apart` — lexemes with other gaps; `Legible.apart` — they are legible if the lexemes were;
* `scan_apart` — the lexer reads the same tokens under any blanks.
-/

namespace SexpLayout

open Lexeme (spell spell_cons Legible placed word)

namespace Lexer

/-- The kind of a token that stands apart from what follows it: the mark of a list becomes a
symbol. -/
def kindApart (k : Kind) (t : Text) : Kind :=
  if k = .punctuation && (splitMark? t).isNone then .symbol else k

theorem atomKind_apart {t : Text} (ht : splitMark? t = none) (x : Text) {y : Text}
    (hy : ¬ OpensList y) :
    atomKind t y = kindApart (atomKind t x) t := by
  have hopen : y.head?.any isOpener = false := by simpa [OpensList] using hy
  unfold atomKind
  simp only [hopen, Bool.and_false, Bool.false_eq_true, if_false]
  split
  · rfl
  split
  · rfl
  split <;> simp [kindApart, ht]

/-- **A token is cut off in front of blanks**, if it is cut off somewhere.  At the end of a text it
may be incomplete, and then it has to stay there. -/
theorem cut_apart {k : Kind} {t x y : Text} (h : Cut k t x) (hx : x = [] → y = [])
    (hy : ∀ c ∈ y.head?, isBlank c = true) (hline : k = .comment → EndsLine y) :
    Cut (kindApart k t) t y := by
  have hend : EndsAtom y := fun c hc => .inl (hy c hc)
  cases h with
  | opener hc => exact .opener hc
  | closer hc => exact .closer hc
  | string h => exact .string (splitString_append_of_eq y h)
  | comment h =>
    rw [← List.cons_append] at h
    have h := splitComment_eq_iff.1 h
    exact .comment (splitComment_eq_iff.2 ⟨h.1, h.2.1, hline rfl⟩)
  | mark h =>
    have hmark := (isMark_of_splitMark? h).1
    have hkind : kindApart .punctuation t = .punctuation := by
      simp [kindApart, show splitMark? t = _ from hmark]
    rw [hkind]
    refine .mark (splitMark?_append_of_isMark hmark fun _ hat => ?_)
    have := hy '@' hat
    revert this
    decide
  | @atom c s x hc hm h =>
    have hnone : splitMark? (c :: s) = none := by
      simpa using splitMark?_append_eq_none (y := []) hm (List.cons_ne_nil c s) (by simp [EndsAtom])
    rw [← atomKind_apart hnone x (not_opensList hy)]
    exact .atom hc (splitMark?_append_eq_none hm (List.cons_ne_nil c s) hend)
      (splitLiteral_append_of_eq h (List.cons_ne_nil c s) hx hend)

end Lexer

namespace Lexeme

/-- The lexemes with other gaps, each of them apart from the next one. -/
def apart (gaps : List Text) (ls : List Lexeme) : List Lexeme :=
  List.zipWith (fun gap l => { l with gap := gap, kind := Lexer.kindApart l.kind l.text }) gaps ls

variable {gaps : List Text} {ls : List Lexeme} {r : Text}

@[simp] theorem apart_cons (gap : Text) (gaps : List Text) (l : Lexeme) (ls : List Lexeme) :
    apart (gap :: gaps) (l :: ls) =
      { l with gap := gap, kind := Lexer.kindApart l.kind l.text } :: apart gaps ls := rfl

theorem spell_apart (gaps : List Text) (ls : List Lexeme) :
    spell (apart gaps ls) = (List.zipWith (· ++ ·) gaps (ls.map fun l => l.text)).flatten := by
  induction ls generalizing gaps with
  | nil => simp [apart]
  | cons l ls ih =>
    cases gaps with
    | nil => rfl
    | cons gap gaps => simp [source, ih]

theorem map_word_apart (h : gaps.length = ls.length) :
    (apart gaps ls).map word = ls.map fun l => (Lexer.kindApart l.kind l.text, l.text) := by
  induction ls generalizing gaps with
  | nil => simp [apart]
  | cons l ls ih =>
    obtain ⟨gap, gaps, rfl⟩ := List.exists_cons_of_length_eq_add_one h
    simp [word, ih (by simpa using h)]

theorem map_gap_apart (h : gaps.length = ls.length) :
    (apart gaps ls).map (fun l => l.gap) = gaps := by
  induction ls generalizing gaps with
  | nil => simpa [apart, eq_comm] using h
  | cons l ls ih =>
    obtain ⟨gap, gaps, rfl⟩ := List.exists_cons_of_length_eq_add_one h
    simp [ih (by simpa using h)]

/-- **Lexemes stay legible with any blanks between them**, if there is a line end behind each
comment. -/
theorem Legible.apart (h : Legible ls r) (hlength : gaps.length = ls.length)
    (hblank : ∀ gap ∈ gaps, ∀ c ∈ gap, isBlank c = true) (hne : ∀ gap ∈ gaps.tail, gap ≠ [])
    (hline : ∀ x ∈ ls.zip gaps.tail, x.1.kind = .comment → '\n' ∈ x.2) :
    Legible (Lexeme.apart gaps ls) [] := by
  induction ls generalizing gaps with
  | nil => simp [Lexeme.apart, Legible]
  | cons l ls ih =>
    obtain ⟨gap, gaps, rfl⟩ := List.exists_cons_of_length_eq_add_one hlength
    obtain ⟨hl, hls⟩ := h
    have hrest : Legible (Lexeme.apart gaps ls) [] := by
      refine ih hls (by simpa using hlength) (fun g hg => hblank g (by simp [hg]))
        (fun g hg => ?_) fun x hx => ?_
      · exact hne g (List.mem_of_mem_tail hg)
      · cases gaps with
        | nil => simp at hx
        | cons next gaps => exact hline x (List.mem_cons_of_mem _ hx)
    have hcut :
        Lexer.Cut (Lexer.kindApart l.kind l.text) l.text (spell (Lexeme.apart gaps ls) ++ []) := by
      cases ls with
      | nil =>
        have hnil : spell (Lexeme.apart gaps []) ++ [] = [] := by simp [Lexeme.apart]
        rw [hnil]
        exact Lexer.cut_apart hl.cut (fun _ => rfl) (by simp) (by simp [Lexer.EndsLine])
      | cons m ms =>
        obtain ⟨next, gaps, rfl⟩ := List.exists_cons_of_length_eq_add_one (by simpa using hlength)
        have hnext : ∀ c ∈ next, isBlank c = true := hblank next (by simp)
        rw [apart_cons, spell_cons, source, List.append_assoc, List.append_assoc]
        refine Lexer.cut_apart hl.cut (fun hnil => ?_) (fun c hc => ?_) fun hk => ?_
        · -- the next token is not empty
          rw [spell_cons, source] at hnil
          exact absurd hnil (by simp [hls.1.ne_nil])
        · obtain ⟨d, ds, rfl⟩ := List.exists_cons_of_ne_nil (hne next (by simp))
          obtain rfl : d = c := by simpa using hc
          exact hnext d (by simp)
        · exact Lexer.endsLine_append hnext (hline (l, next) (by simp) hk) _
    exact ⟨⟨hblank gap (by simp), hl.inked, hcut⟩, hrest⟩

end Lexeme

/-- **The tokens of a text are read again under any blanks.**  In front of the tokens stand any
blanks, only not nothing between two of them, and a line end behind each comment.  Then the lexer
succeeds and reads the same characters token by token, behind these blanks; a token has the kind it
had, except that the mark of a list, which is apart from it now, is a symbol. -/
theorem scan_apart {src : Text} {p : Passage} (h : Passage.scan src = .ok p) (gaps : List Text)
    (hlength : gaps.length = p.tokens.length) (hblank : ∀ gap ∈ gaps, ∀ c ∈ gap, isBlank c = true)
    (hne : ∀ gap ∈ gaps.tail, gap ≠ [])
    (hline : ∀ x ∈ p.tokens.zip gaps.tail, x.1.kind = .comment → '\n' ∈ x.2) :
    ∃ q, Passage.scan (List.zipWith (· ++ ·) gaps (p.tokens.map Token.text)).flatten = .ok q ∧
      q.tokens.map Token.text = p.tokens.map Token.text ∧
      q.tokens.map Token.kind = p.tokens.map (fun t => Lexer.kindApart t.kind t.text) ∧
      q.lexemes.map Lexeme.gap = gaps ∧ q.tail = [] := by
  obtain ⟨-, hleg, -, -⟩ := Passage.scan_eq_ok_iff.1 h
  have hcount : gaps.length = p.lexemes.length := by simpa [Passage.tokens] using hlength
  have hapart := hleg.apart hcount hblank hne fun x hx hk => by
    refine hline (x.1.toToken, x.2) ?_ hk
    rw [Passage.tokens, List.zip_map_left]
    exact List.mem_map_of_mem hx
  have hscan := Passage.scanAt_of_legible hapart (by simp) 0
  have hwords := Lexeme.map_word_apart hcount
  refine ⟨⟨placed 0 (Lexeme.apart gaps p.lexemes), []⟩, ?_, ?_, ?_, ?_, rfl⟩
  · rw [List.append_nil, Lexeme.spell_apart] at hscan
    simpa [Passage.scan, Passage.tokens, Function.comp_def] using hscan
  · rw [Passage.tokens, List.map_map, Lexeme.map_placed fun _ _ => rfl]
    simpa [Passage.tokens, Function.comp_def, word] using congrArg (List.map Prod.snd) hwords
  · rw [Passage.tokens, List.map_map, Lexeme.map_placed fun _ _ => rfl]
    simpa [Passage.tokens, Function.comp_def, word] using congrArg (List.map Prod.fst) hwords
  · rw [Lexeme.map_gap_placed, Lexeme.map_gap_apart hcount]

/-- Marks, a literal of a bracket, an escaped blank and a final `?`, set apart. -/
theorem scan_apart_marks :
    ∃ p q, Passage.scan ",#s(?(;x\n\"; \"a\\ b)?".toList = .ok p ∧
      Passage.scan "\n, #s\t( ?( ;x \n\n \"; \" a\\ b ) ?".toList = .ok q ∧
      q.tokens.map Token.text = p.tokens.map Token.text ∧
      p.tokens.map Token.kind =
        [.punctuation, .punctuation, .openParen, .other, .comment, .string, .symbol,
          .closeParen, .other] ∧
      q.tokens.map Token.kind =
        [.punctuation, .symbol, .openParen, .other, .comment, .string, .symbol,
          .closeParen, .other] := by
  have htokens : (Passage.scan ",#s(?(;x\n\"; \"a\\ b)?".toList).map Passage.tokens =
      .ok [⟨.punctuation, [','], 0, 1⟩, ⟨.punctuation, ['#', 's'], 1, 3⟩, ⟨.openParen, ['('], 3, 4⟩,
        ⟨.other, ['?', '('], 4, 6⟩, ⟨.comment, [';', 'x'], 6, 8⟩,
        ⟨.string, ['"', ';', ' ', '"'], 9, 13⟩, ⟨.symbol, ['a', '\\', ' ', 'b'], 13, 17⟩,
        ⟨.closeParen, [')'], 17, 18⟩, ⟨.other, ['?'], 18, 19⟩] := by
    decide +kernel
  obtain ⟨p, hp⟩ :=
    exists_of_isOk (x := Passage.scan ",#s(?(;x\n\"; \"a\\ b)?".toList) (by decide +kernel)
  rw [hp] at htokens
  have htokens := Except.ok.inj htokens
  obtain ⟨q, hq, htext, hkind, -, -⟩ := scan_apart hp
    [['\n'], [' '], ['\t'], [' '], [' '], [' ', '\n', '\n', ' '], [' '], [' '], [' ']]
    (by rw [htokens]; rfl) (by simp [show isBlank '\t' = true by decide]) (by decide)
      (by rw [htokens]; decide)
  refine ⟨p, q, hp, ?_, htext, ?_, ?_⟩
  · rw [htokens] at hq
    exact hq
  · rw [htokens]
    decide
  · rw [hkind, htokens]
    decide

end SexpLayout
