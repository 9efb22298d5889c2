import SexpLayout.Proofs.Forms.Respaced

/-!
# Grouping

Taking a list as one token loses nothing: the text of the list is read again, by itself, as it was
read in its place.

* `BracketsMatch` — the brackets of some tokens match; `bracketsMatch_iff` — then, and only then,
  they make up forms;
* `ofText_compound` — **a list is read alone as it is read in its place**, but for its offsets;
* `ungroup` — puts the tokens of every list back in its place; `ungroup_grouped`, `ungroup_opened` —
  it undoes grouping;
* `ungroup_tokens` — **grouping loses nothing**, in documents and in expressions.
-/

namespace SexpLayout

open Lexeme (spell spell_cons Legible word)
open Forms (closes)

/-! ### matching brackets -/

/-- The brackets of the tokens match: every opener has a closer of its kind, and so have the openers
between the two. -/
inductive BracketsMatch : List Token → Prop
  | nil : BracketsMatch []
  | token {t : Token} {ts : List Token} (ho : t.kind ≠ .openParen) (hc : t.kind ≠ .closeParen)
      (h : BracketsMatch ts) :
      BracketsMatch (t :: ts)
  | list {o c : Token} {inner rest : List Token} (ho : o.kind = .openParen)
      (hc : c.kind = .closeParen)
      (hcl : closes o.text c.text = true) (hi : BracketsMatch inner) (hr : BracketsMatch rest) :
      BracketsMatch (o :: (inner ++ c :: rest))

theorem BracketsMatch.exists_forms {ts : List Token} (h : BracketsMatch ts) {ls : List Lexeme}
    (hls : ls.map Lexeme.toToken = ts) : ∃ f : Forms, f.Balanced ∧ f.lexemes = ls := by
  induction h generalizing ls with
  | nil => exact ⟨.nil, trivial, (List.map_eq_nil_iff.1 hls).symm⟩
  | token ho hc _ ih =>
    obtain ⟨l, ls, rfl, rfl, hrest⟩ := List.map_eq_cons_iff.1 hls
    obtain ⟨f, hf, rfl⟩ := ih hrest
    exact ⟨.atom l f, ⟨⟨ho, hc⟩, hf⟩, rfl⟩
  | list ho hc hcl _ _ ihi ihr =>
    obtain ⟨l, ls, rfl, rfl, htail⟩ := List.map_eq_cons_iff.1 hls
    obtain ⟨is, ms, rfl, his, hms⟩ := List.map_eq_append_iff.1 htail
    obtain ⟨m, ms, rfl, rfl, hrest⟩ := List.map_eq_cons_iff.1 hms
    obtain ⟨inner, hbi, rfl⟩ := ihi his
    obtain ⟨rest, hbr, rfl⟩ := ihr hrest
    exact ⟨.list l inner m rest, ⟨⟨ho, hc, hcl⟩, hbi, hbr⟩, rfl⟩

theorem Forms.Balanced.bracketsMatch {f : Forms} (hf : f.Balanced) :
    BracketsMatch (f.lexemes.map Lexeme.toToken) := by
  induction f with
  | nil => exact .nil
  | atom x rest ih => exact .token hf.1.1 hf.1.2 (ih hf.2)
  | list o inner c rest ihi ihr =>
    have h := BracketsMatch.list hf.1.1 hf.1.2.1 hf.1.2.2 (ihi hf.2.1) (ihr hf.2.2)
    rw [Forms.lexemes, List.map_cons, List.map_append, List.map_cons]
    exact h

/-- **Tokens make up forms if their brackets match**, and only then. -/
theorem bracketsMatch_iff {src : Text} {s : Passage} (hs : Passage.scan src = .ok s) :
    BracketsMatch s.tokens ↔ ∃ f : Forms, Forms.ofText src = .ok (f, s.tail) ∧
      f.lexemes = s.lexemes := by
  constructor
  · intro h
    obtain ⟨f, hf, hlex⟩ := h.exists_forms rfl
    obtain ⟨htext, hl, ht, hp⟩ := Passage.scan_eq_ok_iff.1 hs
    refine ⟨f, Forms.ofText_eq_ok_iff.2 ⟨?_, hf, ?_, ht, ?_⟩, hlex⟩
    · rw [hlex]
      exact htext
    · rwa [hlex]
    · rw [hlex, hp]
  · rintro ⟨f, hf, hlex⟩
    rw [Passage.tokens, ← hlex]
    exact (Forms.ofText_eq_ok_iff.1 hf).2.1.bracketsMatch

/-! ### a list by itself -/

/-- **A list is read alone as it is read in its place**, but for its offsets and the gap in front of
it. -/
theorem ofText_compound {o c : Lexeme} {inner rest : Forms} {r : Text}
    (hb : (Forms.list o inner c rest).Balanced)
    (hl : Legible (Forms.list o inner c rest).lexemes r) :
    Forms.ofText (Forms.compound o inner c).text =
      .ok ((Forms.list { o with gap := [] } inner c .nil).placed 0, []) := by
  obtain ⟨hm, hbi, -⟩ := hb
  have hl : Legible ((o :: inner.lexemes) ++ c :: rest.lexemes) r := hl
  obtain ⟨hli, hsc, -⟩ := Lexeme.legible_append.1 hl
  -- nothing behind the closing bracket matters, nor does the gap in front of the list
  rw [spell_cons, List.append_assoc] at hli
  have hlo := hli.append_congr hsc.exists_inked []
  have hlc : c.Stands [] := hsc.of_follows (fun _ => rfl) (by rw [hm.2.1]; trivial)
  let f := Forms.list { o with gap := [] } inner c .nil
  have hbf : f.Balanced := ⟨hm, hbi, trivial⟩
  have hlf : Legible f.lexemes [] := by
    show Legible (({ o with gap := [] } :: inner.lexemes) ++ [c]) []
    rw [Lexeme.legible_append, spell_cons, Lexeme.spell_nil, List.append_assoc]
    exact ⟨⟨hlo.1.with_gap (by simp), hlo.2⟩, hlc, trivial⟩
  have htext : (Forms.compound o inner c).text = spell f.lexemes ++ [] := by
    simp [f, Forms.lexemes, Forms.compound, Lexeme.source]
  rw [htext]
  exact ofText_of_legible hbf hlf (by simp)

theorem ofExpression_compound {o c : Lexeme} {inner rest : Forms} {r : Text}
    (hb : (Forms.list o inner c rest).Balanced)
    (hl : Legible (Forms.list o inner c rest).lexemes r) :
    Passage.ofExpression (Forms.compound o inner c).text =
      .ok ⟨Lexeme.placed 0 ({ o with gap := [] } :: (inner.grouped ++ [c])), []⟩ ∧
    wordsOf (Forms.compound o inner c).text =
      .ok (o.word :: (inner.lexemes.map word ++ [c.word])) := by
  have h := ofText_compound hb hl
  constructor
  · rw [Passage.ofExpression, h]
    exact congrArg (fun ls => Except.ok (Passage.mk ls [])) (Forms.opened_placed 0 _)
  · rw [wordsOf_of_ofText h, Forms.lexemes_placed, Lexeme.map_word_placed]
    simp [Forms.lexemes, word]

/-! ### undoing -/

theorem Forms.lexemes_list (o c : Lexeme) (inner rest : Forms) :
    (Forms.list o inner c rest).lexemes = (o :: (inner.lexemes ++ [c])) ++ rest.lexemes := by
  simp [Forms.lexemes]

theorem Lexeme.placed_append_inj {n : Nat} {ls ms : List Lexeme}
    (h : placed n (ls ++ ms) = ls ++ ms) :
    placed n ls = ls ∧ placed (n + (spell ls).length) ms = ms := by
  rw [placed_append] at h
  exact List.append_inj h (length_placed ..)

def Token.shifted (n : Nat) (t : Token) : Token :=
  { t with start := t.start + n, stop := t.stop + n }

/-- The tokens that a token stands for: those of the text of a list, as far on as the list starts,
or else the token. -/
def Token.ungrouped (t : Token) : Except ReadError (List Token) :=
  if t.kind = .compound then
    (Passage.scan t.text).map fun p => p.tokens.map (Token.shifted t.start)
  else .ok [t]

/-- The tokens with those of every list put in its place. -/
def ungroup : List Token → Except ReadError (List Token)
  | [] => .ok []
  | t :: ts => do return (← t.ungrouped) ++ (← ungroup ts)

theorem ungroup_cons {t : Token} {ts us vs : List Token} (ht : t.ungrouped = .ok us)
    (hts : ungroup ts = .ok vs) :
    ungroup (t :: ts) = .ok (us ++ vs) := by
  simp only [ungroup, ht, hts, bind, Except.bind, pure, Except.pure]

theorem ungroup_cons_of_ne {t : Token} (hk : t.kind ≠ .compound) {ts vs : List Token}
    (hts : ungroup ts = .ok vs) :
    ungroup (t :: ts) = .ok (t :: vs) :=
  ungroup_cons (by rw [Token.ungrouped, if_neg hk]) hts

theorem ungroup_append {ts us vs ws : List Token} (hts : ungroup ts = .ok vs)
    (hus : ungroup us = .ok ws) :
    ungroup (ts ++ us) = .ok (vs ++ ws) := by
  induction ts generalizing vs with
  | nil =>
    cases hts
    exact hus
  | cons t ts ih =>
    simp only [ungroup, bind, Except.bind, pure, Except.pure] at hts
    split at hts
    · cases hts
    · next xs hxs =>
      split at hts
      · cases hts
      · next ys hys =>
        cases hts
        rw [List.append_assoc]
        exact ungroup_cons hxs (ih hys)

theorem map_shifted_placed (m n : Nat) (ls : List Lexeme) :
    ((Lexeme.placed m ls).map Lexeme.toToken).map (Token.shifted n) =
      (Lexeme.placed (m + n) ls).map Lexeme.toToken := by
  induction ls generalizing m with
  | nil => rfl
  | cons l ls ih =>
    have hshift : (l.moved (m + l.gap.length)).toToken.shifted n =
        (l.moved (m + n + l.gap.length)).toToken := by
      simp only [Token.shifted, Lexeme.moved, Token.mk.injEq, true_and]
      omega
    have hnext : m + l.source.length + n = m + n + l.source.length := by omega
    rw [Lexeme.placed, Lexeme.placed, List.map_cons, List.map_cons, List.map_cons, ih,
      hshift, hnext]

/-- The tokens of a list, read alone and put in its place, are those that were read there. -/
theorem ungrouped_compound {o c : Lexeme} {inner rest : Forms} {r : Text} {n : Nat}
    (hb : (Forms.list o inner c rest).Balanced) (hl : Legible (Forms.list o inner c rest).lexemes r)
    (hp : Lexeme.placed n (Forms.list o inner c rest).lexemes =
      (Forms.list o inner c rest).lexemes) :
    (Forms.compound o inner c).toToken.ungrouped =
      .ok ((o :: (inner.lexemes ++ [c])).map Lexeme.toToken) := by
  have hscan := Forms.ofText_eq_ok (ofText_compound hb hl)
  rw [Forms.lexemes_placed] at hscan
  rw [Forms.lexemes_list] at hp
  have hlist := (Lexeme.placed_append_inj hp).1
  have hstart : o.start = n + o.gap.length := by
    rw [← (List.cons.inj hlist).1]
    rfl
  have hmoved :
      (Lexeme.placed o.start ({ o with gap := [] } :: (inner.lexemes ++ [c]))).map Lexeme.toToken =
      (Lexeme.placed n (o :: (inner.lexemes ++ [c]))).map Lexeme.toToken := by
    have hnext : n + o.gap.length + o.text.length = n + o.source.length := by
      simp [Lexeme.source, Nat.add_assoc]
    simp only [Lexeme.placed, List.map_cons, Lexeme.moved, Lexeme.source, hstart, List.nil_append,
      List.length_nil, Nat.add_zero]
    rw [hnext]
    rfl
  have hkind : (Forms.compound o inner c).kind = .compound := rfl
  rw [Token.ungrouped, if_pos hkind, hscan]
  show Except.ok (((Lexeme.placed 0 _).map Lexeme.toToken).map (Token.shifted o.start)) = _
  rw [map_shifted_placed, Nat.zero_add, Forms.lexemes, Forms.lexemes, hmoved, hlist]

/-- **Ungrouping undoes grouping.** -/
theorem ungroup_grouped {f : Forms} {r : Text} {n : Nat} (hb : f.Balanced)
    (hl : Legible f.lexemes r) (hp : Lexeme.placed n f.lexemes = f.lexemes) :
    ungroup (f.grouped.map Lexeme.toToken) = .ok (f.lexemes.map Lexeme.toToken) := by
  induction f generalizing r n with
  | nil => rfl
  | atom x rest ih =>
    exact ungroup_cons_of_ne hl.1.kind_ne_compound (ih hb.2 hl.2 (List.cons.inj hp).2)
  | list o inner c rest _ ihr =>
    have hlist := ungrouped_compound hb hl hp
    rw [Forms.lexemes_list] at hp ⊢
    have hrest := ihr hb.2.2 (Lexeme.legible_append.1 hl.2).2.2 (Lexeme.placed_append_inj hp).2
    rw [List.map_append]
    exact ungroup_cons hlist hrest

theorem ungroup_opened {f : Forms} {r : Text} {n : Nat} (hb : f.Balanced) (hl : Legible f.lexemes r)
    (hp : Lexeme.placed n f.lexemes = f.lexemes) :
    ungroup (f.opened.map Lexeme.toToken) = .ok (f.lexemes.map Lexeme.toToken) := by
  fun_cases Forms.opened f with
  | case1 o inner c =>
    obtain ⟨hso, hl⟩ := hl
    obtain ⟨hli, hsc, -⟩ := Lexeme.legible_append.1 hl
    have hpi := (Lexeme.placed_append_inj (List.cons.inj hp).2).1
    have hlast : ungroup [c.toToken] = .ok [c.toToken] :=
      ungroup_cons_of_ne hsc.kind_ne_compound rfl
    have h :=
      ungroup_cons_of_ne hso.kind_ne_compound
        (ungroup_append (ungroup_grouped hb.2.1 hli hpi) hlast)
    simpa [Forms.lexemes] using h
  | case2 => exact ungroup_grouped hb hl hp

theorem exists_list_of_mem_grouped {f : Forms} {r : Text} (hb : f.Balanced)
    (hl : Legible f.lexemes r) {u : Lexeme} (hu : u ∈ f.grouped) (hk : u.kind = .compound) :
    ∃ o inner c rest, u = Forms.compound o inner c ∧ (Forms.list o inner c rest).Balanced ∧
      Legible (Forms.list o inner c rest).lexemes r := by
  induction f with
  | nil => simp [Forms.grouped] at hu
  | atom x rest ih =>
    rcases List.mem_cons.1 hu with rfl | hu
    · exact absurd hk hl.1.kind_ne_compound
    · exact ih hb.2 hl.2 hu
  | list o inner c rest _ ihr =>
    rcases List.mem_cons.1 hu with rfl | hu
    · exact ⟨o, inner, c, rest, rfl, hb, hl⟩
    · exact ihr hb.2.2 (Lexeme.legible_append.1 hl.2).2.2 hu

theorem exists_list_of_mem_opened {f : Forms} {r : Text} (hb : f.Balanced)
    (hl : Legible f.lexemes r) {u : Lexeme} (hu : u ∈ f.opened) (hk : u.kind = .compound) :
    ∃ o inner c rest r, u = Forms.compound o inner c ∧ (Forms.list o inner c rest).Balanced ∧
      Legible (Forms.list o inner c rest).lexemes r := by
  revert hu
  fun_cases Forms.opened f with
  | case1 o inner c =>
    intro hu
    obtain ⟨hso, hl⟩ := hl
    obtain ⟨hli, hsc, -⟩ := Lexeme.legible_append.1 hl
    rcases List.mem_cons.1 hu with rfl | hu
    · exact absurd hk hso.kind_ne_compound
    rcases List.mem_append.1 hu with hu | hu
    · obtain ⟨o, inner, c, rest, h⟩ := exists_list_of_mem_grouped hb.2.1 hli hu hk
      exact ⟨o, inner, c, rest, _, h⟩
    · obtain rfl := List.mem_singleton.1 hu
      exact absurd hk hsc.kind_ne_compound
  | case2 =>
    intro hu
    obtain ⟨o, inner, c, rest, h⟩ := exists_list_of_mem_grouped hb hl hu hk
    exact ⟨o, inner, c, rest, _, h⟩

/-- The text of a token is an expression that is a list, between its own two brackets. -/
def Token.HoldsList (t : Token) : Prop :=
  ∃ p o inner c, Passage.ofExpression t.text = .ok p ∧ p.tokens = o :: (inner ++ [c]) ∧
    o.kind = .openParen ∧ c.kind = .closeParen ∧ closes o.text c.text = true ∧
      ∀ u ∈ inner, u.kind ≠ .openParen ∧ u.kind ≠ .closeParen

theorem holdsList_of_ofText {t : Token} {o c : Lexeme} {inner : Forms} {tail : Text}
    (h : Forms.ofText t.text = .ok (.list o inner c .nil, tail)) : t.HoldsList := by
  obtain ⟨-, ⟨⟨ho, hc, hcl⟩, hbi, -⟩, -⟩ := Forms.ofText_eq_ok_iff.1 h
  have hp : Passage.ofExpression t.text = .ok ⟨o :: (inner.grouped ++ [c]), tail⟩ := by
    rw [Passage.ofExpression, h]
    rfl
  refine ⟨_, o.toToken, inner.grouped.map Lexeme.toToken, c.toToken, hp, ?_, ho, hc, hcl,
    fun u hu => ?_⟩
  · simp [Passage.tokens]
  · obtain ⟨l, hl, rfl⟩ := List.mem_map.1 hu
    exact bracketFree_grouped hbi l hl

/-- **Grouping loses nothing.**  If the brackets of a text match, it is read as an expression and as
a document.  In both, the tokens of the lists, each read from the text of the list alone and put in
its place, are the tokens of the text; and the text of each list is an expression, from an opening
bracket to the one that closes it, without brackets in between. -/
theorem ungroup_tokens {src : Text} {s : Passage} (hs : Passage.scan src = .ok s)
    (hb : BracketsMatch s.tokens) :
    ∃ p q, Passage.ofExpression src = .ok p ∧ Passage.ofDocument src = .ok q ∧
      ungroup p.tokens = .ok s.tokens ∧ ungroup q.tokens = .ok s.tokens ∧
      ∀ t ∈ p.tokens ++ q.tokens, t.kind = .compound → t.HoldsList := by
  obtain ⟨f, hf, hlex⟩ := (bracketsMatch_iff hs).1 hb
  obtain ⟨-, hbal, hl, -, hplaced⟩ := Forms.ofText_eq_ok_iff.1 hf
  refine ⟨⟨f.opened, s.tail⟩, ⟨f.grouped, s.tail⟩, ?_, ?_, ?_, ?_, ?_⟩
  · rw [Passage.ofExpression, hf]
    rfl
  · rw [Passage.ofDocument, hf]
    rfl
  · rw [Passage.tokens, Passage.tokens, ← hlex]
    exact ungroup_opened hbal hl hplaced
  · rw [Passage.tokens, Passage.tokens, ← hlex]
    exact ungroup_grouped hbal hl hplaced
  · intro t ht hk
    rcases List.mem_append.1 ht with ht | ht
    · obtain ⟨u, hu, rfl⟩ := List.mem_map.1 ht
      obtain ⟨o, inner, c, rest, r, rfl, hb, hl⟩ := exists_list_of_mem_opened hbal hl hu hk
      exact holdsList_of_ofText (ofText_compound hb hl)
    · obtain ⟨u, hu, rfl⟩ := List.mem_map.1 ht
      obtain ⟨o, inner, c, rest, rfl, hb, hl⟩ := exists_list_of_mem_grouped hbal hl hu hk
      exact holdsList_of_ofText (ofText_compound hb hl)

/-- Brackets in a character, a string and a comment, marks that depend on what follows, and lists in
lists. -/
theorem ungroup_tokens_nested :
    ∃ s p q, Passage.scan "(a [?) \"x)\" ;c)\n] #(b . (d)) 'e)".toList = .ok s ∧
      BracketsMatch s.tokens ∧
      Passage.ofExpression "(a [?) \"x)\" ;c)\n] #(b . (d)) 'e)".toList = .ok p ∧
      Passage.ofDocument "(a [?) \"x)\" ;c)\n] #(b . (d)) 'e)".toList = .ok q ∧
      s.tokens.length = 18 ∧ p.tokens.length = 8 ∧ q.tokens.length = 1 ∧
      ungroup p.tokens = .ok s.tokens ∧ ungroup q.tokens = .ok s.tokens ∧
      (⟨.compound, "[?) \"x)\" ;c)\n]".toList, 3, 17⟩ : Token).HoldsList ∧
      (⟨.compound, "(b . (d))".toList, 19, 28⟩ : Token).HoldsList := by
  obtain ⟨⟨f, tail⟩, hf⟩ :=
    exists_of_isOk (x := Forms.ofText "(a [?) \"x)\" ;c)\n] #(b . (d)) 'e)".toList)
      (by decide +kernel)
  have hs := Forms.ofText_eq_ok hf
  have hb := (Forms.ofText_eq_ok_iff.1 hf).2.1.bracketsMatch
  obtain ⟨p, q, hp, hq, hgp, hgq, hlists⟩ := ungroup_tokens hs hb
  have hlen :
      (Passage.scan "(a [?) \"x)\" ;c)\n] #(b . (d)) 'e)".toList).toOption.map
        (fun s => s.tokens.length) = some 18 ∧
      (Passage.ofExpression "(a [?) \"x)\" ;c)\n] #(b . (d)) 'e)".toList).toOption.map
        (fun p => (p.tokens.length, p.tokens[2]?, p.tokens[4]?)) =
          some (8, some ⟨.compound, "[?) \"x)\" ;c)\n]".toList, 3, 17⟩,
            some ⟨.compound, "(b . (d))".toList, 19, 28⟩) ∧
      (Passage.ofDocument "(a [?) \"x)\" ;c)\n] #(b . (d)) 'e)".toList).toOption.map
        (fun q => q.tokens.length) = some 1 := by
    decide +kernel
  rw [hs, hp, hq] at hlen
  simp only [Except.toOption, Option.map_some, Option.some.injEq, Prod.mk.injEq] at hlen
  obtain ⟨h18, ⟨h8, h2, h4⟩, h1⟩ := hlen
  exact ⟨_, p, q, hs, hb, hp, hq, h18, h8, h1, hgp, hgq,
    hlists _ (List.mem_append_left _ (List.mem_of_getElem? h2)) rfl,
    hlists _ (List.mem_append_left _ (List.mem_of_getElem? h4)) rfl⟩

end SexpLayout
