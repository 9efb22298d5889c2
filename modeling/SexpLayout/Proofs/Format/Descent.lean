import SexpLayout.Format.Form
import SexpLayout.Proofs.Layout.Gaps
import SexpLayout.Proofs.Token.Legible

/-!
# The descent ends

A form is laid out, read again, and the lists found there are formatted in the same way.  The text
that is read again may be longer than the form, and it may be read as other tokens with other lists.
But it has the ink of the form, and a list in it has less: the brackets around it are missing, or
else something beside it.  So the calls are nested no deeper than the form has ink.

* `replaceInside` — the lists of a text replaced by what some function makes of them;
* `formatWithin bottom n` — formatting with the calls written out `n` levels deep, and `bottom` in
  place of the calls below;
* `formatWithin_eq` — **below as many levels as there is ink nothing is called**;
* `formatForm_ends` — what the levels of the descent have in common, and that it ends.
-/

namespace SexpLayout

/-- The text with every list in it replaced by what `form` makes of it, the last list first; empty
lists are left alone. -/
def replaceInside (form : Text → Traced ReadError Text) (text : Text) : Traced ReadError Text := do
  let p ← .ofExcept (Passage.ofExpression text)
  p.replaceLists fun l _ _ => if l.text.length ≤ 2 then pure l.text else form l.text

section Levels

variable (config : Config) (mode : Mode)
  (bottom : Bool → Option Bool → Text → Traced ReadError Text)

/-- Formatting a form with the calls for the lists inside written out `n` levels deep.  Below that,
`bottom` takes the place of the calls. -/
def formatWithin : Nat → Bool → Option Bool → Text → Traced ReadError Text
  | 0, deep, context, text => bottom deep context text
  | n + 1, deep, context, text => do
    let p ← .ofExcept (Passage.ofExpression text)
    if p.lexemes.isEmpty then pure text
    else do
      let laid := layoutOf config mode context p
      Traced.emit (.laidOut laid.mode laid.head laid.breaks.length)
      if deep then
        replaceInside (formatWithin n true (some laid.context)) (relaid config mode context p)
      else pure (relaid config mode context p)

theorem replaceInside_congr {f g : Text → Traced ReadError Text} {text : Text}
    (h : ∀ q, Passage.ofExpression text = .ok q → ∀ l ∈ q.lexemes, l.kind = .compound →
      f l.text = g l.text) :
    replaceInside f text = replaceInside g text := by
  unfold replaceInside
  cases hq : Passage.ofExpression text with
  | error e => rfl
  | ok q =>
    rw [Traced.ofExcept_ok_bind, Traced.ofExcept_ok_bind]
    congr 1
    funext l hl hk
    rw [h q hq l hl hk]

/-- **Below as many levels as there is ink nothing is called**, whatever would be called there. -/
theorem formatWithin_eq {n : Nat} {deep : Bool} {context : Option Bool} {text : Text}
    (h : text.ink < n) :
    formatWithin config mode bottom n deep context text =
      formatForm config mode deep context text := by
  induction n generalizing deep context text with
  | zero => omega
  | succ n ih =>
    rw [formatWithin, formatForm_eq]
    cases hp : Passage.ofExpression text with
    | error e => rfl
    | ok p =>
      rw [Traced.ofExcept_ok_bind, Traced.ofExcept_ok_bind]
      split
      · rfl
      dsimp only
      congr 1
      funext _
      split
      · refine replaceInside_congr fun q hq l hl hk => ih ?_
        have hink := ink_lt_of_mem_relaid hp hq hl hk
        omega
      · rfl

end Levels

/-- **The descent into the lists of a form ends.**  Where a form is read, it is laid out and folded
without fail to a text with the same characters that are not blank, in the same order, and every
list that is found where this text is read again has fewer of them than the form, also where it is
read as other tokens than before.  So for every form, whether it is read or not, the calls are
nested no deeper than the number of these characters: what stands for the calls below makes no
difference. -/
theorem formatForm_ends (config : Config) (mode : Mode) (context : Option Bool) (text : Text) :
    (∀ p, Passage.ofExpression text = .ok p → ∃ joined,
      (layoutOf config mode context p).laidText.joined config.skipTable config.arity = .ok joined ∧
      joined.nonBlank = text.nonBlank ∧
      ∀ q, Passage.ofExpression joined = .ok q → ∀ t ∈ q.tokens, t.kind = .compound →
        t.text.ink < text.ink) ∧
    ∀ bottom n deep, text.ink < n →
      formatWithin config mode bottom n deep context text =
        formatForm config mode deep context text := by
  refine ⟨fun p hp => ?_, fun bottom n deep h => formatWithin_eq config mode bottom h⟩
  refine ⟨relaid config mode context p, Layout.laidText_joined ..,
    nonBlank_relaid config mode context hp, ?_⟩
  intro q hq t ht hk
  obtain ⟨l, hl, rfl⟩ := List.mem_map.1 ht
  exact ink_lt_of_mem_relaid hp hq hl hk

/-- The splice of a quoted list: `,` and `@'` are read as `,@` and `'` once the form is laid out. -/
theorem formatForm_ends_splice :
    ∃ p joined q, Passage.ofExpression "(a , @'(b (c)))".toList = .ok p ∧
      (layoutOf .standard .multiLine none p).laidText.joined .standard .standard = .ok joined ∧
      Passage.ofExpression joined = .ok q ∧ q.tokens.map Token.text ≠ p.tokens.map Token.text ∧
      (∃ t ∈ q.tokens, t.kind = .compound ∧ t.text.ink < Text.ink "(a , @'(b (c)))".toList) ∧
      ∀ e, formatWithin .standard .multiLine
        (fun _ _ _ => .ofExcept (.error e)) 13 true none "(a , @'(b (c)))".toList =
        formatForm .standard .multiLine true none "(a , @'(b (c)))".toList := by
  obtain ⟨hlevel, hends⟩ := formatForm_ends .standard .multiLine none "(a , @'(b (c)))".toList
  have hread :
      (Passage.ofExpression "(a , @'(b (c)))".toList).map
        (fun p => (p.tokens.map Token.text, (layoutOf .standard .multiLine none p).laidText.joined
          SkipTable.standard Arity.standard)) =
      .ok ([['('], ['a'], [','], ['@', '\x27'], "(b (c))".toList, [')']],
        .ok "(a ,@'\n(b (c)))".toList) := by
    decide +kernel
  have hagain : (Passage.ofExpression "(a ,@'\n(b (c)))".toList).map Passage.tokens =
      .ok [⟨.openParen, ['('], 0, 1⟩, ⟨.symbol, ['a'], 1, 2⟩, ⟨.punctuation, [',', '@'], 3, 5⟩,
        ⟨.punctuation, ['\x27'], 5, 6⟩, ⟨.compound, "(b (c))".toList, 7, 14⟩,
        ⟨.closeParen, [')'], 14, 15⟩] := by
    decide +kernel
  obtain ⟨p, hp⟩ :=
    exists_of_isOk (x := Passage.ofExpression "(a , @'(b (c)))".toList) (by decide +kernel)
  obtain ⟨q, hq⟩ :=
    exists_of_isOk (x := Passage.ofExpression "(a ,@'\n(b (c)))".toList) (by decide +kernel)
  rw [hp] at hread
  rw [hq] at hagain
  obtain ⟨htexts, hjoined⟩ := Prod.mk.inj (Except.ok.inj hread)
  have htokens := Except.ok.inj hagain
  obtain ⟨joined, hj, -, hless⟩ := hlevel p hp
  obtain rfl : "(a ,@'\n(b (c)))".toList = joined := Except.ok.inj (hjoined.symm.trans hj)
  have hmem : (⟨.compound, "(b (c))".toList, 7, 14⟩ : Token) ∈ q.tokens := by
    rw [htokens]
    decide
  refine ⟨p, _, q, hp, hj, hq, ?_, ⟨_, hmem, rfl, hless q hq _ hmem rfl⟩,
    fun e => hends _ 13 true (by decide +kernel)⟩
  rw [htexts, htokens]
  decide

end SexpLayout
