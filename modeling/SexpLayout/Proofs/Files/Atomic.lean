import SexpLayout.Proofs.Files.Directory

/-!
# Formatting one file

Formatting a file fails before anything is written, or it comes to a new text.  The new text is
compared with the text that was read, where line ends are unified, and only if it differs is it
written; it holds no carriage return, so it is read back as it was written.

* `Decodes` — the text that bytes stand for; `Unformattable` — why a file cannot be formatted;
* `FileTree.formatFile_cases` — **what formatting a file can do**: fail and write nothing, or come
  to a new text;
* `FileTree.formatFile_atomic` — what is left of the file tree in each case.
-/

namespace SexpLayout

/-- The bytes are UTF-8 for the text, after its line ends are unified. -/
def Decodes (bytes : ByteArray) (t : Text) : Prop :=
  ∃ s, String.fromUTF8? bytes = some s ∧ Text.unifyLineEnds s.toList = t

theorem Decodes.unique {bytes : ByteArray} {t u : Text} (h : Decodes bytes t)
    (h' : Decodes bytes u) : t = u := by
  obtain ⟨s, hs, rfl⟩ := h
  obtain ⟨s', hs', rfl⟩ := h'
  rw [Option.some.inj (hs.symm.trans hs')]

theorem decodes_toUTF8 {t : Text} (h : '\r' ∉ t) : Decodes (String.ofList t).toUTF8 t :=
  ⟨_, fromUTF8?_toUTF8 _, by rw [String.toList_ofList, Text.unifyLineEnds_eq_self h]⟩

/-- Why a file cannot be formatted: it cannot be opened, it is not UTF-8, the configuration is not
valid, or the text cannot be formatted.  The first of these counts. -/
inductive Unformattable (config : Except ConfigError Config) (mode : Mode) (tree : FileTree)
    (path : Path) :
    FileError → Prop
  | io {fault : Fault} (h : tree.read path = .error fault) :
    Unformattable config mode tree path (.io fault path)
  | undecodable {bytes : ByteArray} (h : tree.read path = .ok bytes)
      (hs : String.fromUTF8? bytes = none) :
      Unformattable config mode tree path .undecodable
  | config {bytes : ByteArray} {t : Text} {e : ConfigError} (h : tree.read path = .ok bytes)
      (ht : Decodes bytes t)
      (hc : config = .error e) : Unformattable config mode tree path (.config e)
  | read {bytes : ByteArray} {t : Text} {c : Config} {e : ReadError}
      (h : tree.read path = .ok bytes)
      (ht : Decodes bytes t) (hc : config = .ok c) (hf : (formatText c mode t).outcome = .error e) :
      Unformattable config mode tree path (.read e)

namespace FileTree

variable {config : Except ConfigError Config} {mode : Mode} {write : Bool}
  {tree : FileTree} {path : Path}

theorem readText_eq_ok_iff {t : Text} :
    tree.readText path = .ok t ↔ ∃ bytes, tree.read path = .ok bytes ∧ Decodes bytes t := by
  unfold readText Decodes
  cases tree.read path with
  | error fault => simp
  | ok bytes =>
    simp only [Except.ok.injEq, exists_eq_left']
    cases String.fromUTF8? bytes <;> simp

theorem unformattable_of_readText {e : FileError} (h : tree.readText path = .error e) :
    Unformattable config mode tree path e := by
  unfold readText at h
  split at h
  · next hread =>
    cases h
    exact .io hread
  · next hread =>
    split at h
    · next hs =>
      cases h
      exact .undecodable hread hs
    · cases h

/-- **What formatting a file can do**: it fails and writes nothing, or it comes to a new text, which
is written if it differs from the old one and is to be written. -/
theorem formatFile_cases {run : FileAction Bool}
    (hrun : tree.formatFile config mode write path = run) :
    (∃ e, run.outcome = .error e ∧ run.tree = tree ∧ Unformattable config mode tree path e) ∨
    ∃ bytes t c new, tree.read path = .ok bytes ∧ Decodes bytes t ∧ config = .ok c ∧
      (formatText c mode t).outcome = .ok new ∧ run.outcome = .ok (decide (new ≠ t)) ∧
      run.tree = if new ≠ t ∧ write = true then tree.writeText path new else tree := by
  subst hrun
  cases hread : tree.readText path with
  | error e =>
    refine .inl ⟨e, ?_, ?_, unformattable_of_readText hread⟩
    · simp only [formatFile, hread]
    · simp only [formatFile, hread]
  | ok t =>
    obtain ⟨bytes, hbytes, ht⟩ := readText_eq_ok_iff.1 hread
    cases config with
    | error e =>
      refine .inl ⟨.config e, ?_, ?_, .config hbytes ht rfl⟩
      · simp only [formatFile, hread]
      · simp only [formatFile, hread]
    | ok c =>
      obtain ⟨houtcome, htree⟩ := formatFile_eq c mode write tree path
      cases hout : (formatText c mode t).outcome with
      | error e =>
        have hv : tree.verdict c mode path = .error (.read e) := by simp only [verdict, hread, hout]
        rw [houtcome, htree, hv]
        exact .inl ⟨.read e, rfl, rfl, .read hbytes ht rfl hout⟩
      | ok new =>
        have hv : tree.verdict c mode path = .ok (if new = t then none else some new) := by
          simp only [verdict, hread, hout]
        rw [houtcome, htree, hv]
        refine .inr ⟨bytes, t, c, new, hbytes, ht, rfl, hout, ?_⟩
        by_cases he : new = t <;> simp [he, Except.map]

theorem outcome_of_unformattable {e : FileError} (h : Unformattable config mode tree path e) :
    (tree.formatFile config mode write path).outcome = .error e := by
  cases h with
  | io h => simp only [formatFile, readText, h]
  | undecodable h hs => simp only [formatFile, readText, h, hs]
  | config h ht hc => simp only [formatFile, readText_eq_ok_iff.2 ⟨_, h, ht⟩, hc]
  | read h ht hc hf => simp only [formatFile, readText_eq_ok_iff.2 ⟨_, h, ht⟩, hc, hf]

/-- **What is written is read back**, and no other file is touched. -/
theorem read_writeText {bytes : ByteArray} {t new : Text} {c : Config}
    (hbytes : tree.read path = .ok bytes) (ht : Decodes bytes t)
    (hout : (formatText c mode t).outcome = .ok new) (hne : new ≠ t) :
    (tree.writeText path new).read path = .ok (String.ofList new).toUTF8 ∧
      Decodes (String.ofList new).toUTF8 new ∧ ∀ place, tree.locate path ≠ .ok place →
        entry? (tree.writeText path new) place = tree.entry? place := by
  have hread := readText_eq_ok_iff.2 ⟨bytes, hbytes, ht⟩
  have hr : '\r' ∉ t := (exists_of_readText hread).2
  refine ⟨read_write hbytes _, decodes_toUTF8 ((drawnFrom_formatText hout).not_mem hr),
    fun place hplace => ?_⟩
  have hrewrites : Rewrites c mode tree (tree.writeText path new) [path] :=
    rewrites_writeText ⟨t, hread, hout, hne⟩
  exact hrewrites.kept place (by simpa using hplace)

/-- **Formatting a file writes what it will read, or nothing.**  It fails exactly if the file cannot
be opened or decoded, the configuration is not valid or the text cannot be formatted, and leaves
every file as it was.  Else, with the line ends of the text unified, the result says whether
formatting changes the text; if it does not, or nothing is to be written, every file keeps its
bytes, carriage returns included.  If it does, the file holds the new text: decoding its bytes and
unifying the line ends gives the new text back, and all other files are kept. -/
theorem formatFile_atomic {run : FileAction Bool}
    (hrun : tree.formatFile config mode write path = run) :
    (∀ e, run.outcome = .error e ↔ Unformattable config mode tree path e) ∧
    (∀ e, run.outcome = .error e → run.tree = tree) ∧
    ∀ changed, run.outcome = .ok changed →
      ∃ bytes t c new, tree.read path = .ok bytes ∧ Decodes bytes t ∧ config = .ok c ∧
        (formatText c mode t).outcome = .ok new ∧ (changed = false ↔ new = t) ∧
        (changed = false → run.tree = tree) ∧ (write = false → run.tree = tree) ∧
        (changed = true → write = true →
          run.tree.read path = .ok (String.ofList new).toUTF8 ∧
          Decodes (String.ofList new).toUTF8 new ∧
          ∀ place, tree.locate path ≠ .ok place → run.tree.entry? place = tree.entry? place) := by
  refine ⟨fun e => ⟨fun he => ?_, fun h => hrun ▸ outcome_of_unformattable h⟩, fun e he => ?_,
    fun changed hchanged => ?_⟩
  · obtain ⟨e', he', -, h⟩ | ⟨_, _, _, _, -, -, -, -, hok, -⟩ := formatFile_cases hrun
    · obtain rfl : e = e' := Except.error.inj (he.symm.trans he')
      exact h
    · simp [he] at hok
  · obtain ⟨_, -, htree, -⟩ | ⟨_, _, _, _, -, -, -, -, hok, -⟩ := formatFile_cases hrun
    · exact htree
    · simp [he] at hok
  · obtain ⟨_, he, -⟩ | ⟨bytes, t, c, new, hbytes, ht, hc, hout, hok, htree⟩ :=
      formatFile_cases hrun
    · simp [hchanged] at he
    · obtain rfl : changed = decide (new ≠ t) := Except.ok.inj (hchanged.symm.trans hok)
      refine ⟨bytes, t, c, new, hbytes, ht, hc, hout, by simp, fun hsame => ?_, fun hw => ?_,
        fun hdiff hw => ?_⟩
      · have heq : new = t := by simpa using hsame
        rw [htree, if_neg fun h => h.1 heq]
      · rw [htree, if_neg (by simp [hw])]
      · have hne : new ≠ t := of_decide_eq_true hdiff
        rw [htree, if_pos ⟨hne, hw⟩]
        exact read_writeText hbytes ht hout hne

/-- A file with two kinds of line ends, next to one that could be formatted and is not. -/
theorem formatFile_atomic_lineEnds :
    ∃ (tree : FileTree) (path : Path) (run : FileAction Bool),
      tree.formatFile (.ok .standard) .multiLine true path = run ∧ run.outcome = .ok true ∧
      tree.read path = .ok "(a (b) (c))\r\n;x\r(d)".toUTF8 ∧
      run.tree.read path = .ok "(a (b)\n(c))\n;x\n(d)".toUTF8 ∧
      run.tree.entry? [['b']] = some (.file "(e\r\n)".toUTF8) := by
  let tree : FileTree :=
    ⟨[], [([['a']], .file "(a (b) (c))\r\n;x\r(d)".toUTF8), ([['b']], .file "(e\r\n)".toUTF8)]⟩
  have hread : tree.read ⟨[], [['a']]⟩ = .ok "(a (b) (c))\r\n;x\r(d)".toUTF8 := rfl
  have ht : Decodes "(a (b) (c))\r\n;x\r(d)".toUTF8 "(a (b) (c))\n;x\n(d)".toList :=
    ⟨_, fromUTF8?_toUTF8 _, by decide +kernel⟩
  have hout : (formatText .standard .multiLine "(a (b) (c))\n;x\n(d)".toList).outcome =
      .ok "(a (b)\n(c))\n;x\n(d)".toList := by
    decide +kernel
  have hrun : (tree.formatFile (.ok .standard) .multiLine true ⟨[], [['a']]⟩).outcome =
      .ok true := by
    simp only [formatFile, readText_eq_ok_iff.2 ⟨_, hread, ht⟩, hout]
    rw [if_neg (by decide +kernel), if_pos trivial]
  obtain ⟨bytes, t, c, new, hbytes, ht', hc, hout', -, -, -, hwritten⟩ :=
    (formatFile_atomic rfl).2.2 true hrun
  obtain rfl : _ = bytes := Except.ok.inj (hread.symm.trans hbytes)
  obtain rfl : _ = c := Except.ok.inj hc
  obtain rfl := ht.unique ht'
  obtain rfl : _ = new := Except.ok.inj (hout.symm.trans hout')
  obtain ⟨hnew, -, hkept⟩ := hwritten rfl rfl
  refine ⟨tree, _, _, rfl, hrun, hread, by simpa using hnew, ?_⟩
  rw [hkept _ (by decide)]
  rfl

end FileTree

end SexpLayout
