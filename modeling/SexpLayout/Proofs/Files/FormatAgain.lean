import SexpLayout.Proofs.Files.ReadBack
import SexpLayout.Proofs.Format.Document

/-!
# Formatting a file again

A file that has just been formatted is read as the formatted text, so formatting it again says
whether the text is a fixed point of `formatText`.  It is one exactly if every list at the top keeps
its indentation (`formatText_idempotent_iff`), which two lists on one line need not do
(`formatText_not_idempotent`).
-/

namespace SexpLayout

open Lexeme (spell)

namespace FileTree

variable (config : Config) (mode : Mode) {tree : FileTree} {path : Path} {text out : Text}

theorem readText_formatFile (h : tree.readText path = .ok text)
    (hout : (formatText config mode text).outcome = .ok out) (hr : '\r' ∉ out) :
    (tree.formatFile (.ok config) mode true path).tree.readText path = .ok out := by
  simp only [formatFile, h, hout]
  by_cases he : out = text
  · rw [if_pos he, he]
    exact h
  · rw [if_neg he]
    exact readText_writeText h hr

theorem outcome_formatFile (h : tree.readText path = .ok text)
    (hout : (formatText config mode text).outcome = .ok out) :
    (tree.formatFile (.ok config) mode true path).outcome = .ok (!decide (out = text)) := by
  simp only [formatFile, h, hout]
  by_cases he : out = text
  · simp [he]
  · simp [he]

theorem outcome_formatFile_iff (h : tree.readText path = .ok text) :
    (tree.formatFile (.ok config) mode true path).outcome = .ok false ↔
      (formatText config mode text).outcome = .ok text := by
  cases hrun : (formatText config mode text).outcome with
  | error e => simp [formatFile, h, hrun]
  | ok new =>
    rw [outcome_formatFile config mode h hrun]
    simp

end FileTree

section Documents

variable (config : Config) (mode : Mode) {text : Text} {p : Passage} {ws : List Word}

def Config.indented : Config := { Config.standard with indent := true }

/-- **Formatting twice.**  A document in which no `,` is in front of an `@`, and no word ends a line
that is indented, can be formatted.  Formatting the result again changes nothing exactly if every
list at the top is indented from its new column as from its old one; this is so without indentation,
and if there is a line end between any two lists.  A second run over a file changes nothing in the
same case. -/
theorem formatText_idempotent_iff (hp : Passage.ofDocument text = .ok p)
    (hw : wordsOf text = .ok ws) (hf : Formattable config ws) :
    ∃ out q, (formatText config mode text).outcome = .ok out ∧ Passage.ofDocument out = .ok q ∧
      ((formatText config mode out).outcome = .ok out ↔
        List.Forall₂ (KeepsIndent config mode text out) p.lexemes q.lexemes) ∧
      ((config.indent = true → listsApart false p.lexemes = true) →
        (formatText config mode out).outcome = .ok out) ∧
      ∀ (tree : FileTree) (path : Path), tree.readText path = .ok text →
        (((tree.formatFile (.ok config) mode true path).tree.formatFile
          (.ok config) mode true path).outcome =
            .ok false ↔ (formatText config mode out).outcome = .ok out) := by
  have hout := outcome_formatText config mode hp hw hf
  have hdoc := (ofDocument_tidied config mode hp hw hf).1
  have hagain := formatText_again_iff config mode hp hw hf hout hdoc
  refine ⟨_, _, hout, hdoc, hagain,
    fun h => hagain.2 (keepsIndent_of_listsApart config mode hp h), ?_⟩
  intro tree path hread
  have hr := (drawnFrom_tidied config mode hp hw hf).not_mem (FileTree.exists_of_readText hread).2
  exact FileTree.outcome_formatFile_iff config mode
    (FileTree.readText_formatFile config mode hread hout hr)

theorem formatText_idempotent_lines :
    Formattable .indented
      [(.comment, [';', 'x']), (.openParen, ['(']), (.symbol, ['a']), (.openParen, ['(']),
        (.symbol, ['b']), (.closeParen, [')']), (.openParen, ['[']), (.closeParen, [']']),
        (.closeParen, [')']), (.symbol, ['y']), (.openParen, ['(']), (.symbol, ['c']),
        (.closeParen, [')'])] ∧
    ∃ out, (formatText .indented .multiLine ";x\n (a(b)[ ]) y\n (c)".toList).outcome =
        .ok out ∧ (formatText .indented .multiLine out).outcome = .ok out := by
  have hf : Formattable .indented
      [(.comment, [';', 'x']), (.openParen, ['(']), (.symbol, ['a']), (.openParen, ['(']),
        (.symbol, ['b']), (.closeParen, [')']), (.openParen, ['[']), (.closeParen, [']']),
        (.closeParen, [')']), (.symbol, ['y']), (.openParen, ['(']), (.symbol, ['c']),
        (.closeParen, [')'])] :=
    ⟨by decide +kernel, fun _ => by decide +kernel⟩
  obtain ⟨p, hp⟩ :=
    exists_of_isOk (x := Passage.ofDocument ";x\n (a(b)[ ]) y\n (c)".toList) (by decide +kernel)
  have hapart : listsApart false p.lexemes = true := by
    have h :
        (Passage.ofDocument ";x\n (a(b)[ ]) y\n (c)".toList).map
          (fun p => listsApart false p.lexemes) =
        .ok true := by
      decide +kernel
    rw [hp] at h
    exact Except.ok.inj h
  obtain ⟨out, -, hout, -, -, hagain, -⟩ :=
    formatText_idempotent_iff _ .multiLine hp (by decide +kernel) hf
  exact ⟨hf, out, hout, hagain fun _ => hapart⟩

/-- **Two lists on one line**: the second one is indented from the column where it stood before the
first one was spread over two lines, and from its new column in a second run. -/
theorem formatText_not_idempotent :
    (formatText .indented .multiLine "(a (b) (c)) (d (e) (f))\n".toList).outcome =
      .ok "(a (b)\n  (c)) (d (e)\n              (f))\n".toList ∧
    (formatText .indented .multiLine
        "(a (b)\n  (c)) (d (e)\n              (f))\n".toList).outcome =
      .ok "(a (b)\n  (c)) (d (e)\n         (f))\n".toList ∧
    ∃ (tree : FileTree) (path : Path), tree.readText path = .ok "(a (b) (c)) (d (e) (f))\n".toList ∧
      ((tree.formatFile (.ok .indented) .multiLine true path).tree.formatFile
        (.ok .indented) .multiLine true path).outcome = .ok true := by
  have hfirst : (formatText .indented .multiLine
      "(a (b) (c)) (d (e) (f))\n".toList).outcome =
      .ok "(a (b)\n  (c)) (d (e)\n              (f))\n".toList := by
    decide +kernel
  have hsecond : (formatText .indented .multiLine
      "(a (b)\n  (c)) (d (e)\n              (f))\n".toList).outcome =
      .ok "(a (b)\n  (c)) (d (e)\n         (f))\n".toList := by
    decide +kernel
  let tree : FileTree := ⟨[], [([['a']], .file "(a (b) (c)) (d (e) (f))\n".toUTF8)]⟩
  have hread : tree.readText ⟨[], [['a']]⟩ = .ok "(a (b) (c)) (d (e) (f))\n".toList := by
    have hfile : tree.read ⟨[], [['a']]⟩ = .ok "(a (b) (c)) (d (e) (f))\n".toUTF8 := rfl
    rw [FileTree.readText, hfile]
    simp only [fromUTF8?_toUTF8]
    exact congrArg Except.ok (Text.unifyLineEnds_eq_self (by decide +kernel))
  refine ⟨hfirst, hsecond, tree, ⟨[], [['a']]⟩, hread, ?_⟩
  rw [FileTree.outcome_formatFile .indented .multiLine
    (FileTree.readText_formatFile .indented .multiLine hread hfirst (by decide +kernel)) hsecond]
  exact congrArg Except.ok (by decide +kernel)

-- A `,` and an `@` put together are read as one mark, which makes another form.
example :
    (formatText .standard .multiLine "(, @. a (b))".toList).outcome = .ok "(,@. a\n(b))".toList ∧
    (formatText .standard .multiLine "(,@. a\n(b))".toList).outcome = .ok "(,@. a (b))".toList := by
  decide +kernel

-- Behind a character literal that is a line end the gap is made anew, and without a width it is
-- empty.
example :
    (formatText { Config.indented with indentWidth := 0 } .multiLine "(?\n ?()".toList).outcome =
      .ok "(?\n?()".toList ∧
    (formatText { Config.indented with indentWidth := 0 } .multiLine "(?\n?()".toList).outcome =
      .error (.unterminated ['('] 0) := by
  decide +kernel

end Documents

end SexpLayout
