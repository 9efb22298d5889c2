import SexpLayout.CommandLine.Run
import SexpLayout.Proofs.Files.Decodable

/-!
# Failures on the command line

An argument that cannot be formatted is reported by one line, and the run goes on with the next
argument.  The exceptions are files that are not UTF-8, paths with a null character and patterns
that are not valid: they end the run, without a report.

* `complaint?` — what is wrong with an argument; `Settled` — how it is answered;
* `settled_runPath` — **one argument**, and `run_reports` — **all arguments**;
* `run_undecodable` — a file that is not UTF-8 keeps the argument behind it from being formatted.
-/

namespace SexpLayout

def FileError.endsRun : FileError → Bool
  | io .nullCharacter _ => true
  | io .. | read _ => false
  | _ => true

namespace CommandLine

/-! ### one argument -/

inductive Complaint where
  /-- It is a directory, and cannot be printed. -/
  | directory
  /-- A file cannot be formatted. -/
  | file (error : FileError)

namespace Complaint

/-- The message that reports a complaint, unless it ends the run. -/
def message? : Complaint → Option Text
  | directory => some (Text.ofString "--stdout takes files, not directories")
  | file e => reported? e

/-- The complaint is not reported but ends the run. -/
def endsRun : Complaint → Bool
  | directory => false
  | file e => e.endsRun

def ofOutcome {α : Type} : Except FileError α → Option Complaint
  | .ok _ => none
  | .error e => some (.file e)

theorem ofOutcome_map {α β : Type} (f : α → β) (x : Except FileError α) :
    ofOutcome (x.map f) = ofOutcome x := by
  cases x <;> rfl

/-- The line that reports a complaint, if there is one that is reported. -/
def reportLine (name : Text) (complaint : Option Complaint) : Text :=
  match complaint.bind message? with
  | none => []
  | some message => line (Text.ofString "error: " ++ name ++ Text.ofString ": " ++ message)

/-- The complaints that are reported are those that do not end the run. -/
theorem message?_isNone (c : Complaint) : c.message?.isNone = c.endsRun := by
  cases c with
  | directory => rfl
  | file e =>
    cases e with
    | io fault path => cases fault <;> rfl
    | _ => rfl

end Complaint

open Complaint

/-- What is wrong with an argument in a session, if anything: the input, the files of the directory
or the file cannot be formatted. -/
def complaint? (o : Options) (config : Config) (mode : Mode) (name : Text) (s : Session) :
    Option Complaint :=
  let path := Path.ofText name
  if name = ['-'] then ofOutcome ((formatText config mode s.input).outcome.mapError FileError.read)
  else if s.tree.isDirectory path then
    if o.stdout then some .directory
    else ofOutcome (s.tree.formatDirectory (.ok config) mode (!o.check) o.pattern path).outcome
  else ofOutcome (s.tree.verdict config mode path)

/-- An argument has been answered: next to the log there is one line for a complaint, and the status
is 2 then. -/
def Answered (o : Options) (name : Text) (complaint : Option Complaint) (s s' : Session) : Prop :=
  (∃ log : List Event,
    s'.stderr = s.stderr ++ log.flatMap (logLine o.verbose) ++ reportLine name complaint) ∧
  match complaint with
  | none => s.status ≤ s'.status ∧ s'.status ≤ max s.status 1
  | some _ => s'.status = 2

/-- The step answers the argument, or it ends the run with what is wrong. -/
def Settled (o : Options) (name : Text) (complaint : Option Complaint) (s : Session) (r : Step) :
    Prop :=
  (r.2 = none ∧ (∀ c, complaint = some c → c.endsRun = false) ∧ Answered o name complaint s r.1) ∨
    ∃ e, r.2 = some e ∧ complaint = some (.file e) ∧ e.endsRun = true ∧ r.1.status = s.status ∧
      ∃ log : List Event, r.1.stderr = s.stderr ++ log.flatMap (logLine o.verbose)

section Arguments

variable {o : Options} {config : Config} {mode : Mode} {name : Text} {s t : Session}

theorem settled_fail (log : List Event)
    (herr : t.stderr = s.stderr ++ log.flatMap (logLine o.verbose)) (hstatus : t.status = s.status)
    (e : FileError) : Settled o name (some (.file e)) s (fail name e t) := by
  have hends := message?_isNone (.file e)
  unfold fail
  cases hreported : reported? e with
  | none =>
    rw [message?, hreported] at hends
    exact .inr ⟨e, rfl, rfl, hends.symm, hstatus, log, herr⟩
  | some message =>
    rw [message?, hreported] at hends
    refine .inl ⟨rfl, fun c hc => Option.some.inj hc ▸ hends.symm, ⟨log, ?_⟩, rfl⟩
    simp [Session.report, herr, reportLine, message?, hreported]

theorem settled_none (log : List Event)
    (herr : t.stderr = s.stderr ++ log.flatMap (logLine o.verbose)) (hle : s.status ≤ t.status)
    (hge : t.status ≤ max s.status 1) : Settled o name none s (t, none) :=
  .inl ⟨rfl, by simp, ⟨log, by simpa [reportLine] using herr⟩, hle, hge⟩

theorem settled_printFormatted (text : Text) (herr : t.stderr = s.stderr)
    (hstatus : t.status = s.status) :
    Settled o name (ofOutcome ((formatText config mode text).outcome.mapError FileError.read)) s
      (printFormatted o config mode name text t) := by
  have hlog : (t.log o.verbose (formatText config mode text).events).stderr =
      s.stderr ++ (formatText config mode text).events.flatMap (logLine o.verbose) := by
    rw [Session.log, herr]
  cases hrun : (formatText config mode text).outcome with
  | ok new =>
    simp only [printFormatted, hrun]
    exact settled_none _ hlog (Nat.le_of_eq hstatus.symm)
      (Nat.le_trans (Nat.le_of_eq hstatus) (Nat.le_max_left ..))
  | error e =>
    simp only [printFormatted, hrun]
    exact settled_fail _ hlog hstatus (.read e)

theorem settled_settle (action : FileAction (List Path)) :
    Settled o name (ofOutcome action.outcome) s (settle o name action s) := by
  cases hout : action.outcome with
  | error e =>
    simp only [settle, hout]
    refine settled_fail action.events ?_ ?_ e <;> rfl
  | ok changed =>
    simp only [settle, hout]
    cases o.check with
    | false => exact settled_none action.events rfl (Nat.le_refl _) (Nat.le_max_left ..)
    | true =>
      refine settled_none action.events rfl ?_ ?_ <;>
      · simp only [Session.listChanges, Session.log, if_true]
        split <;> omega

theorem ofOutcome_verdict {tree : FileTree} {path : Path} {text : Text}
    (h : tree.readText path = .ok text) :
    ofOutcome (tree.verdict config mode path) =
      ofOutcome ((formatText config mode text).outcome.mapError FileError.read) := by
  simp only [FileTree.verdict, h]
  cases (formatText config mode text).outcome <;> rfl

/-- **One argument**: what is wrong with it is reported, or ends the run. -/
theorem settled_runPath (o : Options) (config : Config) (mode : Mode) (name : Text) (s : Session) :
    Settled o name (complaint? o config mode name s) s (runPath o config mode name s) := by
  unfold complaint? runPath
  by_cases hinput : name = ['-']
  · simp only [if_pos hinput]
    exact settled_printFormatted s.input rfl rfl
  by_cases hdir : s.tree.isDirectory (Path.ofText name) = true
  · simp only [if_neg hinput, if_pos hdir]
    cases o.stdout with
    | true =>
      have herr : (s.report name (Text.ofString "--stdout takes files, not directories")).stderr =
          s.stderr ++ ([] : List Event).flatMap (logLine o.verbose) ++
            reportLine name (some .directory) := by
        simp [Session.report, reportLine, message?]
      exact .inl ⟨rfl, fun c hc => Option.some.inj hc ▸ rfl, ⟨[], herr⟩, rfl⟩
    | false => exact settled_settle _
  · simp only [if_neg hinput, if_neg hdir]
    cases o.stdout with
    | true =>
      cases hread : s.tree.readText (Path.ofText name) with
      | error e =>
        have hverdict : s.tree.verdict config mode (Path.ofText name) = .error e := by
          simp only [FileTree.verdict, hread]
        rw [hverdict]
        exact settled_fail [] (by simp) rfl e
      | ok text =>
        rw [ofOutcome_verdict hread]
        exact settled_printFormatted text rfl rfl
    | false =>
      have hsame : ofOutcome (s.tree.verdict config mode (Path.ofText name)) =
          ofOutcome (formatOne config mode (!o.check) s.tree (Path.ofText name)).outcome := by
        rw [formatOne, ofOutcome_map, (FileTree.formatFile_eq config mode _ _ _).1, ofOutcome_map]
      rw [hsame]
      exact settled_settle _

/-! ### all arguments -/

/-- The arguments have been handled one after the other: none of them ends the run, and what is
wrong with them is reported. -/
inductive HandledAll (o : Options) (config : Config) (mode : Mode) :
    List Text → Session → Session → Prop where
  | nil (s : Session) : HandledAll o config mode [] s s
  | cons {name : Text} {names : List Text} {s s' t : Session} :
    runPath o config mode name s = (s', none) →
    (∀ c, complaint? o config mode name s = some c → c.endsRun = false) →
    Answered o name (complaint? o config mode name s) s s' → HandledAll o config mode names s' t →
    HandledAll o config mode (name :: names) s t

/-- An argument ends the run: those in front of it have been handled, and what is wrong with it is
not reported. -/
def EndedBy (o : Options) (config : Config) (mode : Mode) (names : List Text) (s s' : Session)
    (e : FileError) : Prop :=
  ∃ before name after t, names = before ++ name :: after ∧ HandledAll o config mode before s t ∧
    runPath o config mode name t = (s', some e) ∧ complaint? o config mode name t = some (.file e) ∧
    e.endsRun = true ∧ ∃ log : List Event, s'.stderr = t.stderr ++ log.flatMap (logLine o.verbose)

/-- **The run over the arguments.** -/
theorem runPaths_cases (o : Options) (config : Config) (mode : Mode) (names : List Text)
    (s : Session) :
    (∃ t, runPaths o config mode names s = (t, none) ∧ HandledAll o config mode names s t) ∨
      ∃ t e, runPaths o config mode names s = (t, some e) ∧ EndedBy o config mode names s t e := by
  induction names generalizing s with
  | nil => exact .inl ⟨s, rfl, .nil s⟩
  | cons name names ih =>
    have hsettled := settled_runPath o config mode name s
    rw [runPaths]
    rcases hstep : runPath o config mode name s with ⟨s', r⟩
    rw [hstep] at hsettled
    rcases hsettled with ⟨hr, hgo, hans⟩ | ⟨e, hr, hcomplaint, hends, -, hlog⟩
    · obtain rfl : r = none := hr
      rcases ih s' with ⟨t, ht, hall⟩ | ⟨t, e, ht, before, bad, after, u, rfl, hall, hrest⟩
      · exact .inl ⟨t, ht, .cons hstep hgo hans hall⟩
      · exact .inr ⟨t, e, ht, name :: before, bad, after, u, rfl, .cons hstep hgo hans hall, hrest⟩
    · obtain rfl : r = some e := hr
      exact .inr ⟨s', e, rfl, [], name, names, s, rfl, .nil s, hstep, hcomplaint, hends, hlog⟩

theorem status_runPaths (o : Options) (config : Config) (mode : Mode) (names : List Text)
    {s : Session} (h : s.status ≤ 2) : (runPaths o config mode names s).1.status ≤ 2 := by
  induction names generalizing s with
  | nil => exact h
  | cons name names ih =>
    have hstep : (runPath o config mode name s).1.status ≤ 2 := by
      rcases settled_runPath o config mode name s with ⟨-, -, -, hans⟩ | ⟨e, -, -, -, hstatus, -⟩
      · split at hans <;> omega
      · omega
    rw [runPaths]
    split
    · next s' hs =>
      rw [hs] at hstep
      exact ih hstep
    · next s' e hs =>
      rw [hs] at hstep
      exact hstep

/-! ### runs that are not ended -/

theorem tree_fail (name : Text) (e : FileError) (s : Session) :
    (fail name e s).1.tree = s.tree := by
  unfold fail
  split <;> rfl

theorem tree_printFormatted (text : Text) :
    (printFormatted o config mode name text s).1.tree = s.tree := by
  unfold printFormatted
  dsimp only
  split
  · rfl
  · exact tree_fail ..

theorem tree_settle (action : FileAction (List Path)) :
    (settle o name action s).1.tree = action.tree := by
  unfold settle
  dsimp only
  split
  · exact tree_fail ..
  · cases o.check <;> rfl

theorem formatDirectory_of_decodable (config : Config) (mode : Mode) (write : Bool)
    {tree : FileTree} {pattern : Text} (hd : tree.Decodable)
    (hp : (Pattern.ofText pattern).isOk = true) (dir : Path) :
    (tree.formatDirectory (.ok config) mode write pattern dir).tree.Decodable ∧
      ∀ e, (tree.formatDirectory (.ok config) mode write pattern dir).outcome = .error e →
        e.endsRun = false := by
  rcases FileTree.formatDirectory_cases config mode tree pattern dir with
    ⟨e, hearly, heq⟩ | ⟨parts, found, -, hlist, heq⟩
  · rw [heq]
    refine ⟨hd, fun e' h => ?_⟩
    obtain rfl := Except.error.inj h
    rcases hearly with ⟨bad, hbad, -⟩ | ⟨-, place, -, -, rfl⟩
    · rw [hbad] at hp
      cases hp
    · rfl
  · have hread : ∀ p ∈ found, ∃ bytes, tree.read p = .ok bytes := by
      intro p hmem
      obtain ⟨place, bytes, hplace, hentry⟩ :=
        FileTree.exists_locate_of_isFile ((hlist.mem_iff p).1 hmem).2.1
      exact ⟨bytes, by simp only [FileTree.read, hplace, hentry]⟩
    rw [heq]
    obtain ⟨htree, hout⟩ := FileTree.formatFiles_of_decodable config mode write hd hread
    refine ⟨htree, fun e h => ?_⟩
    obtain ⟨bad, rfl⟩ := hout e h
    rfl

theorem decodable_runPath (hd : s.tree.Decodable) (hp : (Pattern.ofText o.pattern).isOk = true) :
    (runPath o config mode name s).1.tree.Decodable := by
  unfold runPath
  dsimp only
  split
  · rw [tree_printFormatted]
    exact hd
  split
  · split
    · exact hd
    · split
      · rw [tree_fail]
        exact hd
      · rw [tree_printFormatted]
        exact hd
  split
  · rw [tree_settle]
    exact (formatDirectory_of_decodable config mode _ hd hp _).1
  · rw [tree_settle]
    exact (FileTree.rewrites_formatFile config mode _ s.tree _).decodable hd

theorem endsRun_complaint (hd : s.tree.Decodable) (hp : (Pattern.ofText o.pattern).isOk = true)
    (hn : '\x00' ∉ name) {c : Complaint} (h : complaint? o config mode name s = some c) :
    c.endsRun = false := by
  have hfailure : ∀ {α : Type} {x : Except FileError α}, (∀ e, x = .error e → e.endsRun = false) →
      ofOutcome x = some c → c.endsRun = false := by
    intro α x hx hc
    cases x with
    | ok a => cases hc
    | error e =>
      obtain rfl := Option.some.inj hc
      exact hx e rfl
  unfold complaint? at h
  dsimp only at h
  split at h
  · refine hfailure (fun e he => ?_) h
    cases hrun : (formatText config mode s.input).outcome with
    | ok new => simp [hrun, Except.mapError] at he
    | error bad =>
      obtain rfl : FileError.read bad = e := by simpa [hrun, Except.mapError] using he
      rfl
  split at h
  · split at h
    · obtain rfl := Option.some.inj h
      rfl
    · exact hfailure (formatDirectory_of_decodable config mode _ hd hp _).2 h
  · refine hfailure (fun e he => ?_) h
    rcases FileTree.verdict_error hd he with ⟨fault, hread, rfl⟩ | ⟨bad, rfl⟩
    · cases fault with
      | nullCharacter =>
        rcases Path.mem_of_mem_text (FileTree.nullCharacter_of_read hread) with hc | hc | hc
        · exact absurd hc hn
        · cases hc
        · cases hc
      | _ => rfl
    · rfl

theorem runPaths_of_decodable (o : Options) (config : Config) (mode : Mode) {names : List Text}
    (hd : s.tree.Decodable) (hp : (Pattern.ofText o.pattern).isOk = true)
    (hn : ∀ name ∈ names, '\x00' ∉ name) : (runPaths o config mode names s).2 = none := by
  induction names generalizing s with
  | nil => rfl
  | cons name names ih =>
    have hsettled := settled_runPath o config mode name s
    have htree : (runPath o config mode name s).1.tree.Decodable := decodable_runPath hd hp
    rw [runPaths]
    rcases hstep : runPath o config mode name s with ⟨s', r⟩
    rw [hstep] at hsettled htree
    rcases hsettled with ⟨hr, -⟩ | ⟨e, -, hcomplaint, hends, -⟩
    · obtain rfl : r = none := hr
      exact ih htree fun m hm => hn m (by simp [hm])
    · rw [show e.endsRun = false from
        endsRun_complaint hd hp (hn name (by simp)) hcomplaint] at hends
      cases hends

end Arguments

def settings (o : Options) (config : Config) : Config :=
  if o.noIndent then { config with indent := false } else config

def Options.mode (o : Options) : Mode := if o.oneLine then .oneLine else .multiLine

def Session.start (tree : FileTree) (input : Text) : Session :=
  ⟨tree, input.unifyLineEnds, [], [], 0⟩

theorem run_of_loadConfig (wording : Config.Wording) {o : Options} {tree : FileTree}
    {config : Config} (h : loadConfig o tree = .ok config) (input : Text) :
    run wording o tree input =
      runPaths o (settings o config) o.mode o.paths (.start tree input) := by
  simp only [run, h, settings, Options.mode, Session.start]

theorem run_of_loadFailure (wording : Config.Wording) {o : Options} {tree : FileTree}
    {e : LoadFailure} (h : loadConfig o tree = .error e) (input : Text) :
    run wording o tree input = ((Session.start tree input).report
      (Text.ofString "cannot load config " ++ o.config) (e.message wording), none) := by
  simp only [run, h, Session.start]

/-- **A run reports what is wrong and goes on.**  The status is at most 2.  A configuration that
cannot be loaded is reported.  Else every argument is handled in order, up to the first one that
ends the run; there is none if all files are UTF-8, no path has a null character and the pattern is
valid.  A run that the host ends because calls are nested too deeply or memory is short is not
modelled. -/
theorem run_reports (wording : Config.Wording) (o : Options) (tree : FileTree) (input : Text)
    {s : Session} {ended : Option FileError} (h : run wording o tree input = (s, ended)) :
    s.status ≤ 2 ∧
    (∀ e, loadConfig o tree = .error e → ended = none ∧
      s = (Session.start tree input).report (Text.ofString "cannot load config " ++ o.config)
        (e.message wording)) ∧
    (∀ config, loadConfig o tree = .ok config →
      match ended with
      | none => HandledAll o (settings o config) o.mode o.paths (.start tree input) s
      | some e => EndedBy o (settings o config) o.mode o.paths (.start tree input) s e) ∧
    (tree.Decodable → (Pattern.ofText o.pattern).isOk = true → (∀ name ∈ o.paths, '\x00' ∉ name) →
      ended = none) := by
  cases hload : loadConfig o tree with
  | error e =>
    obtain ⟨rfl, rfl⟩ := Prod.mk.inj ((run_of_loadFailure wording hload input).symm.trans h)
    exact ⟨Nat.le_refl 2, fun m hm => ⟨rfl, by rw [Except.error.inj hm]⟩,
      fun config hc => (nomatch hc), fun _ _ _ => rfl⟩
  | ok config =>
    rw [run_of_loadConfig wording hload] at h
    have hstatus :=
      status_runPaths o (settings o config) o.mode o.paths (s := .start tree input) (Nat.zero_le 2)
    rw [h] at hstatus
    refine ⟨hstatus, fun m hm => (nomatch hm), fun config' hc => ?_, fun hd hp hn => ?_⟩
    · obtain rfl := Except.ok.inj hc
      rcases runPaths_cases o (settings o config) o.mode o.paths (.start tree input) with
        ⟨t, ht, hall⟩ | ⟨t, e, ht, hend⟩
      · obtain ⟨rfl, rfl⟩ := Prod.mk.inj (ht.symm.trans h)
        exact hall
      · obtain ⟨rfl, rfl⟩ := Prod.mk.inj (ht.symm.trans h)
        exact hend
    · have hnone :=
        runPaths_of_decodable (s := .start tree input) o (settings o config) o.mode hd hp hn
      rw [h] at hnone
      exact hnone

/-- A path that leads to nothing, in front of a file that is formatted. -/
theorem run_reports_missing :
    let tree : FileTree := ⟨[], [([['y']], .file "(a (b) (c))".toUTF8)]⟩
    let o : Options := { paths := [['x'], ['y']] }
    tree.Decodable ∧ loadConfig o tree = .ok { Config.standard with indent := true } ∧
      ∀ wording, ∃ s, run wording o tree [] = (s, none) ∧
        s.stderr =
          "error: x: [Errno 2] No such file or directory: \x27x\x27\nINFO sexpfmt.files: reformatted y\n".toList ∧
        HandledAll o (settings o { Config.standard with indent := true }) o.mode o.paths
          (.start tree []) s := by
  intro tree o
  have hd : tree.Decodable :=
    FileTree.decodable_of_entries (by simp [tree, -String.toUTF8_eq_toByteArray, fromUTF8?_toUTF8])
  have hload : loadConfig o tree = .ok { Config.standard with indent := true } := rfl
  have herr :
      (runPaths o (settings o { Config.standard with indent := true }) o.mode o.paths
        (.start tree [])).1.stderr =
      "error: x: [Errno 2] No such file or directory: \x27x\x27\nINFO sexpfmt.files: reformatted y\n".toList := by
    decide +kernel
  refine ⟨hd, hload, fun wording => ?_⟩
  rcases hrun : run wording o tree [] with ⟨s, ended⟩
  rw [← run_of_loadConfig wording hload, hrun] at herr
  obtain ⟨-, -, hall, hend⟩ := run_reports wording o tree [] hrun
  obtain rfl : ended = none := hend hd (by decide +kernel) (by decide +kernel)
  exact ⟨s, rfl, herr, hall _ rfl⟩

/-- **A file that is not UTF-8** ends the run without a report, and the file behind it is not
formatted. -/
theorem run_undecodable :
    let tree : FileTree := ⟨[], [([['x']], .file ⟨#[255]⟩), ([['y']], .file "(a (b) (c))".toUTF8)]⟩
    (∀ wording, run wording { paths := [['x'], ['y']] } tree [] =
      (.start tree [], some .undecodable)) ∧
        ∀ wording, (run wording { paths := [['y']] } tree []).1.stderr =
        "INFO sexpfmt.files: reformatted y\n".toList := by
  intro tree
  have herr :
      (runPaths { paths := [['y']] } { Config.standard with indent := true } .multiLine [['y']]
        (.start tree [])).1.stderr = "INFO sexpfmt.files: reformatted y\n".toList := by
    decide +kernel
  exact ⟨fun _ => rfl, fun _ => herr⟩

end CommandLine

end SexpLayout
