import SexpLayout.Proofs.Format.Document

/-!
# Documents and splices

A `,` and a token behind it that starts with an `@` are put together when a list is laid out, and
are then read as another mark.  What follows the token is read as before, unless the token ends in
an open character literal: in `(, @?)` the closing bracket becomes part of it.  A document without
such a literal is formatted whenever it can be read, and a document without such a pair keeps its
words in every mode.

* `formatText_error_iff` — formatting fails exactly if reading fails, and with the same error;
* `formatText_formatText` — without indentation, formatting in one mode and then in another is
  formatting in the other mode.
-/

namespace SexpLayout

open Lexeme (spell word)

section Documents

variable (config : Config) (mode : Mode) {text : Text} {p : Passage} {ws : List Word}

/-! ### failures -/

/-- **Formatting fails exactly if reading fails**, and with the same error, if no `,` is in front of
an `@` with an open character literal behind it. -/
theorem formatText_error_iff (hs : ∀ ws, wordsOf text = .ok ws → SpliceSafe ws) :
    (∀ p, Passage.ofDocument text = .ok p →
      ∃ out, (formatText config mode text).outcome = .ok out) ∧
        ∀ e, (formatText config mode text).outcome = .error e ↔
        Passage.ofDocument text = .error e := by
  cases hp : Passage.ofDocument text with
  | error e =>
    refine ⟨by simp, fun e' => ?_⟩
    rw [formatText, hp, Traced.ofExcept_error_bind, Traced.outcome_ofExcept]
    simp
  | ok p =>
    obtain ⟨ws, hw, -⟩ := Passage.reading_of_ofDocument hp
    have hout := outcome_formatText_of_spliceSafe config mode hp hw (hs ws hw)
    exact ⟨fun _ _ => ⟨_, hout⟩, fun e => by simp [hout]⟩

/-- Lists in a document with splices and a character literal that is a line end, indented, and a
document that ends too soon. -/
theorem formatText_error_iff_indented :
    (∀ ws, wordsOf "(?\n '(?( , @'a ,;x\n@?b))".toList = .ok ws → SpliceSafe ws) ∧
      (∃ out, (formatText { Config.standard with indent := true } .multiLine
        "(?\n '(?( , @'a ,;x\n@?b))".toList).outcome = .ok out) ∧
      (∀ ws, wordsOf "(a , @b ,(c)".toList = .ok ws → SpliceSafe ws) ∧
      (formatText Config.standard .oneLine "(a , @b ,(c)".toList).outcome =
        .error (.unterminated ['('] 0) := by
  have safe : ∀ t : Text, (wordsOf t).map (fun ws => decide (SpliceSafe ws)) = .ok true →
      ∀ ws, wordsOf t = .ok ws → SpliceSafe ws := by
    intro t ht ws hw
    rw [hw] at ht
    exact of_decide_eq_true (Except.ok.inj ht)
  have h1 := safe "(?\n '(?( , @'a ,;x\n@?b))".toList (by decide +kernel)
  have h2 := safe "(a , @b ,(c)".toList (by decide +kernel)
  obtain ⟨p, hp⟩ :=
    exists_of_isOk (x := Passage.ofDocument "(?\n '(?( , @'a ,;x\n@?b))".toList) (by decide +kernel)
  exact ⟨h1, (formatText_error_iff { Config.standard with indent := true } .multiLine h1).1 p hp,
    h2, ((formatText_error_iff Config.standard .oneLine h2).2 _).2 (by decide +kernel)⟩

/-- **A document that can be read and not be formatted**: once `,` and `@?` are put together, the
closing bracket belongs to a character literal. -/
theorem formatText_splice_fails :
    (Passage.ofDocument "(, @?)".toList).isOk = true ∧
      (formatText Config.standard .multiLine "(, @?)".toList).outcome =
        .error (.unterminated ['('] 0) ∧
      (formatText Config.standard .oneLine "(, @?)".toList).outcome =
        .error (.unterminated ['('] 0) := by
  decide +kernel

/-! ### modes -/

theorem formattedAt_formattedAt (hi : config.indent = false) {t : Text} {vs : List Word}
    (h : ListReading t vs) (hv : Formattable config vs) (mode₁ mode₂ : Mode)
    (column₁ column₂ column : Int) :
    formattedAt config mode₂ column₂ (formattedAt config mode₁ column₁ t) =
      formattedAt config mode₂ column t := by
  have hread := (formattedAt_spec config mode₁ h hv column₁).2.1
  have hcongr := outcome_formatAt_congr config mode₂ hread h hv.spliceFree column₂
  have hcolumn : formatAt config mode₂ true column₂ t = formatAt config mode₂ true column t := by
    simp [formatAt, hi]
  rw [hcolumn, (formattedAt_spec config mode₂ hread hv column₂).1,
    (formattedAt_spec config mode₂ h hv column).1] at hcongr
  exact Except.ok.inj hcongr

theorem map_text_tidied_tidied (hi : config.indent = false) (hp : Passage.ofDocument text = .ok p)
    (hw : wordsOf text = .ok ws) (hf : Formattable config ws) (mode₁ mode₂ : Mode) (mid : Text) :
    (Passage.tidied config mode₂ mid ⟨Lexeme.placed 0 (p.tidied config mode₁ text), p.tail⟩).map
      (fun u => u.text) =
      (p.tidied config mode₂ text).map fun u => u.text := by
  have hwords := forall₂_word_tidied config mode₁ text p
  simp only [Passage.tidied, List.map_map] at hwords ⊢
  refine (map_eq_map_iff_forall₂ (P := fun _ _ => True) hwords fun l hl m hm =>
    iff_of_true ?_ trivial).2
    (hwords.imp fun _ _ _ => trivial)
  obtain ⟨hkind, htext⟩ : m.kind = l.kind ∧ m.text = _ := by simpa [word] using hm
  rw [Function.comp_apply, Function.comp_apply, Lexeme.retext_text, Lexeme.retext_text, hkind]
  rw [Lexeme.retext_text] at htext
  by_cases hk : l.kind = .compound
  · rw [if_pos hk] at htext
    rw [if_pos hk, if_pos hk, htext]
    obtain ⟨vs, hvs, hv⟩ := exists_words_of_mem config hp hw hf hl hk
    exact formattedAt_formattedAt config hi hvs hv mode₁ mode₂ _ _ _
  · rw [if_neg hk] at htext
    rw [if_neg hk, if_neg hk, htext]

/-- **Changing the mode loses nothing.**  Without indentation, a document formatted in one mode and
then in another is the document formatted in the other mode. -/
theorem formatText_formatText (hi : config.indent = false) (hp : Passage.ofDocument text = .ok p)
    (hw : wordsOf text = .ok ws) (hs : SpliceFree ws) (mode₁ mode₂ : Mode) :
    ∃ mid out, (formatText config mode₁ text).outcome = .ok mid ∧
      (formatText config mode₂ mid).outcome = .ok out ∧
      (formatText config mode₂ text).outcome = .ok out := by
  have hf : Formattable config ws := ⟨hs, by simp [hi]⟩
  obtain ⟨hdoc, hwords⟩ := ofDocument_tidied config mode₁ hp hw hf
  refine ⟨_, _, outcome_formatText config mode₁ hp hw hf,
    outcome_formatText config mode₂ hdoc hwords hf, ?_⟩
  rw [outcome_formatText config mode₂ hp hw hf]
  have hgaps : ∀ (f : Lexeme → Text) (us : List Lexeme),
      (us.map (Lexeme.retext f)).map (fun u => u.gap) = us.map fun u => u.gap := by simp
  refine congrArg (fun t => Except.ok (t ++ p.tail)) (spell_eq_of_map ?_ ?_)
  · simp only [Passage.tidied, hgaps, Lexeme.map_gap_placed]
  · exact (map_text_tidied_tidied config hi hp hw hf mode₁ mode₂ _).symm

theorem formatText_formatText_comments :
    SpliceFree [(.comment, [';', 'x']), (.openParen, ['(']), (.symbol, [':', 'k']),
        (.openParen, ['(']), (.symbol, ['b']), (.comment, [';', 'y']), (.closeParen, [')']),
        (.openParen, ['[']), (.closeParen, [']']), (.closeParen, [')']), (.punctuation, ['\x27']),
        (.openParen, ['(']), (.closeParen, [')'])] ∧
      ∃ mid out, (formatText .standard .multiLine ";x\n(:k(b;y\n)[ ])'( )".toList).outcome =
        .ok mid ∧ (formatText .standard .oneLine mid).outcome = .ok out ∧
        (formatText .standard .oneLine ";x\n(:k(b;y\n)[ ])'( )".toList).outcome = .ok out := by
  have hs :
      SpliceFree [(.comment, [';', 'x']), (.openParen, ['(']), (.symbol, [':', 'k']),
        (.openParen, ['(']), (.symbol, ['b']), (.comment, [';', 'y']), (.closeParen, [')']),
        (.openParen, ['[']), (.closeParen, [']']), (.closeParen, [')']), (.punctuation, ['\x27']),
        (.openParen, ['(']), (.closeParen, [')'])] := by
    decide +kernel
  obtain ⟨p, hp⟩ :=
    exists_of_isOk (x := Passage.ofDocument ";x\n(:k(b;y\n)[ ])'( )".toList) (by decide +kernel)
  exact ⟨hs, formatText_formatText .standard rfl hp (by decide +kernel) hs .multiLine .oneLine⟩

end Documents

end SexpLayout
