import SexpLayout.Proofs.CommandLine.Failures

/-!
# What a run answers

Every argument of a run is answered by what it prints, logs, lists and complains about.  A run that
is not ended puts the answers of its arguments together, and its status is the worst of theirs.
With `--check` or `--stdout` no file is written, so an answer depends on the files at the start of
the run only, and the order of the arguments does not matter for the status.

* `answer` — the answer to one argument, `answers` — to one argument after the other;
* `extends_runPath` — **one argument**, `runPaths_eq_answers` — **all arguments**;
* `tree_runPaths` — a run that only checks or prints changes no file;
* `answers_perm` — **the order of the arguments** does not matter then;
* `run_status` — the status of a run.
-/

namespace SexpLayout.CommandLine

open Complaint

/-! ### answers -/

/-- The status of a run: 2 if something is wrong, else 1 if files are listed. -/
def verdict (wrong listed : Bool) : Nat := if wrong then 2 else if listed then 1 else 0

theorem verdict_or (w l w' l' : Bool) :
    verdict (w || w') (l || l') = max (verdict w l) (verdict w' l') := by
  revert w l w' l'
  decide

theorem verdict_le (w l : Bool) : verdict w l ≤ 2 := by
  revert w l
  decide

/-- What is done about an argument: the events that are logged, what is wrong, the text that is
printed, and the files that are listed because they would change. -/
structure Answer where
  name : Text
  log : List Event
  complaint : Option Complaint
  output : Text
  listed : List Path

namespace Answer

/-- The answer that prints a formatted text. -/
def ofText (name : Text) (run : Traced ReadError Text) : Answer :=
  ⟨name, run.events, ofOutcome (run.outcome.mapError .read), run.outcome.toOption.getD [], []⟩

/-- The answer that formats files; those that would change are listed if they are only checked. -/
def ofFiles (name : Text) (check : Bool) (action : FileAction (List Path)) : Answer :=
  ⟨name, action.events, ofOutcome action.outcome, [],
    if check then action.outcome.toOption.getD [] else []⟩

def refusal (name : Text) (c : Complaint) : Answer := ⟨name, [], some c, [], []⟩

/-- The error that ends the run, if any. -/
def ends (a : Answer) : Option FileError :=
  match a.complaint with
  | some (.file e) => if e.endsRun then some e else none
  | _ => none

def stdout (a : Answer) : Text :=
  a.output ++ a.listed.flatMap fun p => line (Text.ofString "would reformat " ++ p.text)

def stderr (verbose : Bool) (a : Answer) : Text :=
  a.log.flatMap (logLine verbose) ++ reportLine a.name a.complaint

def status (a : Answer) : Nat := verdict a.complaint.isSome (!a.listed.isEmpty)

end Answer

/-- The formatting of the files that an argument stands for. -/
def action (o : Options) (config : Config) (mode : Mode) (tree : FileTree) (name : Text) :
    FileAction (List Path) :=
  if tree.isDirectory (Path.ofText name) then
    tree.formatDirectory (.ok config) mode (!o.check) o.pattern (Path.ofText name)
  else formatOne config mode (!o.check) tree (Path.ofText name)

def answer (o : Options) (config : Config) (mode : Mode) (tree : FileTree) (input name : Text) :
    Answer :=
  if name = ['-'] then .ofText name (formatText config mode input)
  else if o.stdout then
    if tree.isDirectory (Path.ofText name) then .refusal name .directory
    else match tree.readText (Path.ofText name) with
      | .error e => .refusal name (.file e)
      | .ok text => .ofText name (formatText config mode text)
  else .ofFiles name o.check (action o config mode tree name)

/-- The files behind an argument. -/
def treeAfter (o : Options) (config : Config) (mode : Mode) (tree : FileTree) (name : Text) :
    FileTree :=
  if name = ['-'] ∨ o.stdout = true then tree else (action o config mode tree name).tree

/-- What is left of the input behind an argument. -/
def inputAfter (input name : Text) : Text := if name = ['-'] then [] else input

/-- The answers to the arguments, each one in the tree that those in front of it leave. -/
def answers (o : Options) (config : Config) (mode : Mode) :
    FileTree → Text → List Text → List Answer
  | _, _, [] => []
  | tree, input, name :: names =>
    answer o config mode tree input name ::
      answers o config mode (treeAfter o config mode tree name) (inputAfter input name) names

def worst (as : List Answer) : Nat :=
  verdict (as.any fun a => a.complaint.isSome) (as.any fun a => !a.listed.isEmpty)

theorem worst_cons (a : Answer) (as : List Answer) : worst (a :: as) = max a.status (worst as) := by
  rw [worst, List.any_cons, List.any_cons, verdict_or]
  rfl

/-! ### one argument -/

/-- The step leaves some files and some input.  It goes on with the answer, or ends the run as the
answer says. -/
structure Extends (o : Options) (a : Answer) (tree : FileTree) (input : Text) (s : Session)
    (r : Step) : Prop where
  tree_eq : r.1.tree = tree
  input_eq : r.1.input = input
  ended : r.2 = a.ends
  stdout : a.ends = none → r.1.stdout = s.stdout ++ a.stdout
  stderr : a.ends = none → r.1.stderr = s.stderr ++ a.stderr o.verbose
  status : s.status ≤ 2 → a.ends = none → r.1.status = max s.status a.status

theorem Session.log_nil (verbose : Bool) (s : Session) : s.log verbose [] = s := by
  simp [Session.log]

theorem extends_report (o : Options) (name : Text) (s : Session) (log : List Event) {c : Complaint}
    {message : Text} (hc : c.message? = some message) :
    Extends o ⟨name, log, some c, [], []⟩ s.tree s.input s
      ((s.log o.verbose log).report name message, none) := by
  have hends : Answer.ends ⟨name, log, some c, [], []⟩ = none := by
    have hnot := message?_isNone c
    cases c with
    | directory => rfl
    | file e =>
      rw [hc] at hnot
      exact if_neg (Bool.eq_false_iff.1 hnot.symm)
  refine ⟨rfl, rfl, hends.symm, fun _ => ?_, fun _ => ?_, fun hle _ => ?_⟩
  · simp [Session.report, Session.log, Answer.stdout]
  · simp [Session.report, Session.log, Answer.stderr, reportLine, hc]
  · exact (Nat.max_eq_right hle).symm

theorem extends_fail (o : Options) (name : Text) (s : Session) (log : List Event) (e : FileError) :
    Extends o ⟨name, log, some (.file e), [], []⟩ s.tree s.input s
      (fail name e (s.log o.verbose log)) := by
  unfold fail
  cases hreported : reported? e with
  | none =>
    have he := message?_isNone (.file e)
    rw [message?, hreported] at he
    have hends : Answer.ends ⟨name, log, some (.file e), [], []⟩ = some e := if_pos he.symm
    exact ⟨rfl, rfl, hends.symm, by simp [hends], by simp [hends], by simp [hends]⟩
  | some message => exact extends_report o name s log hreported

theorem extends_printFormatted (o : Options) (config : Config) (mode : Mode) (name : Text)
    (s : Session) (text : Text) :
    Extends o (.ofText name (formatText config mode text)) s.tree s.input s
      (printFormatted o config mode name text s) := by
  cases hrun : (formatText config mode text).outcome with
  | error e =>
    simp only [printFormatted, Answer.ofText, hrun]
    exact extends_fail o name s _ (.read e)
  | ok new =>
    simp only [printFormatted, Answer.ofText, hrun]
    refine ⟨rfl, rfl, rfl, fun _ => ?_, fun _ => ?_, fun _ _ => ?_⟩
    · simp [Session.print, Session.log, Answer.stdout, Except.toOption]
    · simp [Session.print, Session.log, Answer.stderr, Except.mapError, ofOutcome, reportLine]
    · exact (Nat.max_eq_left (Nat.zero_le _)).symm

theorem extends_settle (o : Options) (name : Text) (s : Session) (action : FileAction (List Path)) :
    Extends o (.ofFiles name o.check action) action.tree s.input s (settle o name action s) := by
  cases hrun : action.outcome with
  | error e =>
    have h := extends_fail o name { s with tree := action.tree } action.events e
    have hlisted :
        (if o.check then (Except.error e : Except FileError (List Path)).toOption.getD [] else []) =
          [] := by
      cases o.check <;> rfl
    simp only [settle, Answer.ofFiles, hrun, hlisted]
    exact ⟨h.tree_eq, h.input_eq, h.ended, h.stdout, h.stderr, h.status⟩
  | ok changed =>
    simp only [settle, Answer.ofFiles, hrun]
    refine ⟨by cases o.check <;> rfl, by cases o.check <;> rfl, rfl, fun _ => ?_, fun _ => ?_,
      fun _ _ => ?_⟩
    · cases o.check <;> simp [Session.listChanges, Session.log, Answer.stdout, Except.toOption]
    · cases o.check <;>
        simp [Session.listChanges, Session.log, Answer.stderr, ofOutcome, reportLine]
    · cases o.check with
      | false => exact (Nat.max_eq_left (Nat.zero_le _)).symm
      | true =>
        cases changed with
        | nil => exact (Nat.max_eq_left (Nat.zero_le _)).symm
        | cons p ps => rfl

/-- **One argument** extends the session by its answer. -/
theorem extends_runPath (o : Options) (config : Config) (mode : Mode) (name : Text) (s : Session) :
    Extends o (answer o config mode s.tree s.input name) (treeAfter o config mode s.tree name)
      (inputAfter s.input name) s (runPath o config mode name s) := by
  unfold answer treeAfter inputAfter runPath action
  by_cases hinput : name = ['-']
  · simp only [hinput, true_or, if_true]
    have h := extends_printFormatted o config mode ['-'] { s with input := [] } s.input
    exact ⟨h.tree_eq, h.input_eq, h.ended, h.stdout, h.stderr, h.status⟩
  by_cases hdir : s.tree.isDirectory (Path.ofText name) = true
  · cases hout : o.stdout with
    | true =>
      have h := extends_report o name s [] (c := .directory) rfl
      rw [Session.log_nil] at h
      simp only [if_neg hinput, if_pos hdir, or_true, if_true]
      exact h
    | false =>
      have h := extends_settle o name s
        (s.tree.formatDirectory (.ok config) mode (!o.check) o.pattern (Path.ofText name))
      simpa [hinput, hdir] using h
  · cases hout : o.stdout with
    | true =>
      simp only [if_neg hinput, if_neg hdir, or_true, if_true]
      cases hread : s.tree.readText (Path.ofText name) with
      | error e =>
        have h := extends_fail o name s [] e
        rwa [Session.log_nil] at h
      | ok text => exact extends_printFormatted o config mode name s text
    | false =>
      have h := extends_settle o name s
        (formatOne config mode (!o.check) s.tree (Path.ofText name))
      simpa [hinput, hdir] using h

/-! ### all arguments -/

/-- **All arguments**: a run ends at the first answer that ends it; if there is none, the answers
make up what is printed, logged and reported, and the status is the worst of theirs. -/
theorem runPaths_eq_answers (o : Options) (config : Config) (mode : Mode) {names : List Text}
    {s : Session} (hle : s.status ≤ 2) {as : List Answer}
    (has : answers o config mode s.tree s.input names = as) :
    (runPaths o config mode names s).2 = as.findSome? Answer.ends ∧
      (as.findSome? Answer.ends = none →
        (runPaths o config mode names s).1.stdout = s.stdout ++ as.flatMap Answer.stdout ∧
        (runPaths o config mode names s).1.stderr =
          s.stderr ++ as.flatMap (Answer.stderr o.verbose) ∧
        (runPaths o config mode names s).1.status = max s.status (worst as)) := by
  subst has
  induction names generalizing s with
  | nil => simp [runPaths, answers, worst, verdict]
  | cons name names ih =>
    have hstep := extends_runPath o config mode name s
    rw [answers, List.findSome?_cons]
    generalize answer o config mode s.tree s.input name = a at hstep ⊢
    rw [← hstep.tree_eq, ← hstep.input_eq]
    rcases hrun : runPath o config mode name s with ⟨s', r⟩
    rw [hrun] at hstep
    cases hends : a.ends with
    | some e =>
      obtain rfl : r = some e := hstep.ended.trans hends
      simp [runPaths, hrun]
    | none =>
      obtain rfl : r = none := hstep.ended.trans hends
      have hstatus : s'.status = max s.status a.status := hstep.status hle hends
      have hle' : s'.status ≤ 2 := by
        rw [hstatus]
        exact Nat.max_le.2 ⟨hle, verdict_le _ _⟩
      have hgo : runPaths o config mode (name :: names) s = runPaths o config mode names s' := by
        rw [runPaths, hrun]
      obtain ⟨hended, hrest⟩ := ih hle'
      rw [hgo]
      refine ⟨hended, fun hnone => ?_⟩
      obtain ⟨hout, herr, hworst⟩ := hrest hnone
      refine ⟨?_, ?_, ?_⟩
      · rw [hout, hstep.stdout hends, List.flatMap_cons, List.append_assoc]
      · rw [herr, hstep.stderr hends, List.flatMap_cons, List.append_assoc]
      · rw [hworst, hstatus, worst_cons, Nat.max_assoc]

/-! ### runs that write nothing -/

section ReadOnly

variable {o : Options}

theorem tree_action (config : Config) (mode : Mode) (tree : FileTree) (name : Text)
    (hcheck : o.check = true) :
    (action o config mode tree name).tree = tree := by
  unfold action
  rw [hcheck]
  split
  · rcases FileTree.formatDirectory_cases config mode tree o.pattern (Path.ofText name) with
      ⟨e, -, heq⟩ | ⟨_, found, -, -, heq⟩
    · rw [heq]
    · rw [heq]
      exact FileTree.tree_formatFiles_check tree found
  · have h := (FileTree.formatFile_eq config mode false tree (Path.ofText name)).2
    show (tree.formatFile (.ok config) mode false (Path.ofText name)).tree = tree
    rw [h]
    split <;> rfl

theorem treeAfter_eq (config : Config) (mode : Mode) (tree : FileTree) (name : Text)
    (h : o.check = true ∨ o.stdout = true) : treeAfter o config mode tree name = tree := by
  unfold treeAfter
  split
  · rfl
  · next hn =>
    rcases h with hcheck | hout
    · exact tree_action config mode tree name hcheck
    · exact absurd (.inr hout) hn

/-- **A run that only checks or prints** changes no file, also if it is ended. -/
theorem tree_runPaths (config : Config) (mode : Mode) (h : o.check = true ∨ o.stdout = true)
    (names : List Text) (s : Session) : (runPaths o config mode names s).1.tree = s.tree := by
  induction names generalizing s with
  | nil => rfl
  | cons name names ih =>
    have hstep := (extends_runPath o config mode name s).tree_eq
    rw [treeAfter_eq config mode s.tree name h] at hstep
    rw [runPaths]
    split
    · next s' hs =>
      rw [hs] at hstep
      exact (ih s').trans hstep
    · next s' e hs =>
      rw [hs] at hstep
      exact hstep

/-- **The order of the arguments** does not matter for the answers of such a run. -/
theorem answers_perm (config : Config) (mode : Mode) (tree : FileTree)
    (h : o.check = true ∨ o.stdout = true) {names names' : List Text} (hperm : names.Perm names')
    (input : Text) :
    (answers o config mode tree input names).Perm (answers o config mode tree input names') := by
  -- only one argument reads the input
  have hanswer : ∀ input a b, a ≠ b →
      answer o config mode tree (inputAfter input b) a = answer o config mode tree input a := by
    intro input a b hne
    by_cases hb : b = ['-']
    · have ha : a ≠ ['-'] := fun ha => hne (ha.trans hb.symm)
      simp only [answer, if_neg ha]
    · rw [inputAfter, if_neg hb]
  induction hperm generalizing input with
  | nil => exact .refl _
  | cons name _ ih =>
    simp only [answers, treeAfter_eq config mode tree name h]
    exact .cons _ (ih _)
  | trans _ _ ih ih' => exact (ih input).trans (ih' input)
  | swap a b names =>
    by_cases hne : a = b
    · rw [hne]
    have hinput : inputAfter (inputAfter input b) a = inputAfter (inputAfter input a) b := by
      unfold inputAfter
      split_ifs <;> rfl
    simp only [answers, treeAfter_eq config mode tree _ h]
    rw [hanswer input a b hne, hanswer input b a (Ne.symm hne), hinput]
    exact .swap ..

end ReadOnly

/-! ### the status of a run -/

/-- The answers of a run.  There are none if the configuration cannot be loaded. -/
def Options.answers (o : Options) (tree : FileTree) (input : Text) : List Answer :=
  match loadConfig o tree with
  | .error _ => []
  | .ok config => CommandLine.answers o (settings o config) o.mode tree input.unifyLineEnds o.paths

theorem listed_answers {o : Options} {config : Config} {mode : Mode} {tree : FileTree}
    {input : Text} {names : List Text} {a : Answer}
    (ha : a ∈ answers o config mode tree input names) (hcheck : o.check = false) :
    a.listed = [] := by
  induction names generalizing tree input with
  | nil => cases ha
  | cons name names ih =>
    rcases List.mem_cons.1 ha with rfl | ha
    · unfold answer
      split
      · rfl
      split
      · split
        · rfl
        · split <;> rfl
      · rw [Answer.ofFiles, if_neg (by simp [hcheck])]
    · exact ih ha

/-- **A run and its answers.** -/
theorem run_eq_answers {wording : Config.Wording} {o : Options} {tree : FileTree} {input : Text}
    {s : Session} {ended : Option FileError} (h : run wording o tree input = (s, ended)) :
    ended = (o.answers tree input).findSome? Answer.ends ∧
      (ended = none →
        s.stdout = (o.answers tree input).flatMap Answer.stdout ∧
        ((loadConfig o tree).isOk = true →
          s.stderr = (o.answers tree input).flatMap (Answer.stderr o.verbose)) ∧
        s.status =
          verdict
            (!(loadConfig o tree).isOk || (o.answers tree input).any fun a => a.complaint.isSome)
            (o.check && (o.answers tree input).any fun a => !a.listed.isEmpty)) := by
  unfold Options.answers
  cases hload : loadConfig o tree with
  | error e =>
    rw [run_of_loadFailure wording hload] at h
    obtain ⟨rfl, rfl⟩ := Prod.mk.inj h
    exact ⟨rfl, fun _ => ⟨rfl, fun hok => Bool.noConfusion hok, rfl⟩⟩
  | ok config =>
    rw [run_of_loadConfig wording hload] at h
    dsimp only
    generalize has : answers o (settings o config) o.mode tree input.unifyLineEnds o.paths = as
    obtain ⟨hended, hrest⟩ := runPaths_eq_answers (s := .start tree input) o _ _ (Nat.zero_le 2) has
    rw [h] at hended hrest
    have hlisted : (o.check && as.any fun a => !a.listed.isEmpty) = as.any fun a =>
        !a.listed.isEmpty := by
      cases hcheck : o.check with
      | true => rfl
      | false =>
        refine (List.any_eq_false.2 fun a ha => ?_).symm
        simp [listed_answers (has ▸ ha) hcheck]
    refine ⟨hended, fun hnone => ?_⟩
    obtain ⟨hout, herr, hstatus⟩ := hrest (hended.symm.trans hnone)
    refine ⟨hout, fun _ => herr, ?_⟩
    rw [hlisted]
    exact hstatus.trans (Nat.zero_max _)

theorem answers_paths (o : Options) (paths : List Text) (config : Config) (mode : Mode)
    (tree : FileTree) (input : Text) (names : List Text) :
    answers { o with paths := paths } config mode tree input names =
      answers o config mode tree input names := by
  induction names generalizing tree input with
  | nil => rfl
  | cons name names ih => exact congrArg (answer o config mode tree input name :: ·) (ih _ _)

theorem Options.answers_perm {o : Options} (h : o.check = true ∨ o.stdout = true)
    {paths : List Text} (hperm : paths.Perm o.paths) (tree : FileTree) (input : Text) :
    (Options.answers { o with paths := paths } tree input).Perm (o.answers tree input) := by
  have hload : loadConfig { o with paths := paths } tree = loadConfig o tree := rfl
  rw [Options.answers, Options.answers, hload]
  cases loadConfig o tree with
  | error message => exact .refl _
  | ok config =>
    dsimp only
    rw [answers_paths]
    exact CommandLine.answers_perm _ _ tree h hperm _

/-- **The status of a run.**  With `--check` or `--stdout` no file changes, also if the run is
ended.  The status of a run that is not ended is 2 if the configuration cannot be loaded or
something is reported about an argument, else 1 if files are listed by `--check`, else 0.  With
`--check` the order of the arguments does not matter, for the status or for the files that are
listed. -/
theorem run_status (wording : Config.Wording) (o : Options) (tree : FileTree) (input : Text)
    {s : Session} {ended : Option FileError} (h : run wording o tree input = (s, ended)) :
    (o.check = true ∨ o.stdout = true → s.tree = tree) ∧
    (ended = none →
      s.stdout = (o.answers tree input).flatMap Answer.stdout ∧
      ((loadConfig o tree).isOk = true →
        s.stderr = (o.answers tree input).flatMap (Answer.stderr o.verbose)) ∧
      s.status =
        verdict
          (!(loadConfig o tree).isOk || (o.answers tree input).any fun a => a.complaint.isSome)
          (o.check && (o.answers tree input).any fun a => !a.listed.isEmpty)) ∧
    (o.check = true → ∀ paths : List Text, paths.Perm o.paths →
      ∀ s' ended', run wording { o with paths := paths } tree input = (s', ended') →
        (ended' = none ↔ ended = none) ∧
        (ended = none → s'.status = s.status ∧
          ((Options.answers { o with paths := paths } tree input).flatMap Answer.listed).Perm
            ((o.answers tree input).flatMap Answer.listed))) := by
  obtain ⟨hended, hanswers⟩ := run_eq_answers h
  refine ⟨fun hread => ?_, hanswers, fun hcheck paths hperm s' ended' h' => ?_⟩
  · cases hload : loadConfig o tree with
    | error e =>
      rw [run_of_loadFailure wording hload] at h
      rw [← (Prod.mk.inj h).1]
      rfl
    | ok config =>
      have htree := tree_runPaths (settings o config) o.mode hread o.paths (.start tree input)
      rwa [← run_of_loadConfig wording hload, h] at htree
  · obtain ⟨hended', hanswers'⟩ := run_eq_answers h'
    have hsame := Options.answers_perm (.inl hcheck) hperm tree input
    have hiff : ended' = none ↔ ended = none := by
      rw [hended, hended', List.findSome?_eq_none_iff, List.findSome?_eq_none_iff]
      exact ⟨fun hall a ha => hall a (hsame.mem_iff.2 ha),
        fun hall a ha => hall a (hsame.mem_iff.1 ha)⟩
    refine ⟨hiff, fun hnone => ⟨?_, hsame.flatMap_right _⟩⟩
    rw [(hanswers hnone).2.2, (hanswers' (hiff.2 hnone)).2.2, hsame.any_eq, hsame.any_eq]
    rfl

/-- A directory, the input, a file that cannot be read as forms, one that would change and one that
would not, in two orders. -/
theorem run_status_orders :
    let tree : FileTree :=
      ⟨[], [([['d']], .directory), ([['d'], ['a', '.', 'e', 'l']], .file "(a (b) (c))".toUTF8),
        ([['x']], .file "(".toUTF8), ([['y']], .file "(a (b) (c))".toUTF8),
        ([['z']], .file "(a)".toUTF8)]⟩
    let o : Options := { check := true, paths := [['d'], ['-'], ['x'], ['y'], ['z']] }
    let o' : Options := { o with paths := [['x'], ['z'], ['y'], ['-'], ['d']] }
    o'.paths.Perm o.paths ∧
      ∀ wording, ∃ s s', run wording o tree "(b)".toList = (s, none) ∧
        run wording o' tree "(b)".toList = (s', none) ∧
        s.stdout = "would reformat d/a.el\n(b)would reformat y\n".toList ∧
        s.tree = tree ∧ s'.tree = tree ∧ s.status = 2 ∧ s'.status = s.status ∧
        ((o'.answers tree "(b)".toList).flatMap Answer.listed).Perm
          ((o.answers tree "(b)".toList).flatMap Answer.listed) := by
  intro tree o o'
  have hperm : o'.paths.Perm o.paths := by decide
  have hload : loadConfig o tree = .ok { Config.standard with indent := true } := rfl
  generalize hsteps : runPaths o (settings o { Config.standard with indent := true }) o.mode o.paths
    (.start tree "(b)".toList) = steps
  have hcomputed : steps.2.isNone = true ∧ steps.1.status = 2 ∧
      steps.1.stdout = "would reformat d/a.el\n(b)would reformat y\n".toList := by
    subst hsteps
    decide +kernel
  obtain ⟨hgo, hstatus, hout⟩ := hcomputed
  obtain ⟨s, ended⟩ := steps
  obtain rfl : ended = none := Option.isNone_iff_eq_none.1 hgo
  refine ⟨hperm, fun wording => ?_⟩
  have hrun : run wording o tree "(b)".toList = (s, none) :=
    (run_of_loadConfig wording hload _).trans hsteps
  rcases hrun' : run wording o' tree "(b)".toList with ⟨s', ended'⟩
  obtain ⟨htree, -, horders⟩ := run_status wording o tree "(b)".toList hrun
  obtain ⟨hended, hsame⟩ := horders rfl o'.paths hperm s' ended' hrun'
  obtain rfl : ended' = none := hended.2 rfl
  obtain ⟨hstatus', hlisted⟩ := hsame rfl
  have htree' := (run_status wording o' tree "(b)".toList hrun').1 (.inl rfl)
  exact ⟨s, s', hrun, rfl, hout, htree (.inl rfl), htree', hstatus, hstatus', hlisted⟩

end SexpLayout.CommandLine
