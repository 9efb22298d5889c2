import SexpLayout.Proofs.Files.Listing
import SexpLayout.Proofs.Format.Drawn

/-!
# Formatting a directory

The files of a directory are formatted one after the other.  What happens with a file depends on its
text only, and no file is written but the one that is formatted.  So a run that writes comes to the
same end as a run that only checks, and leaves all files alone but those that change in front of the
first failure.

* `FileTree.verdict` — what formatting a file comes to; `FileTree.Rewrites` — some files are
  rewritten and **all others are kept**;
* `rewrites_formatFile`, `formatFiles_eq` — one step of a run, and the run over a list of files;
* `formatDirectory_write_iff_check` — the run over a directory.
-/

namespace SexpLayout

namespace FileTree

/-- The new text of a file that changes. -/
def Reformats (config : Config) (mode : Mode) (tree : FileTree) (path : Path) (new : Text) : Prop :=
  ∃ old, tree.readText path = .ok old ∧ (formatText config mode old).outcome = .ok new ∧ new ≠ old

/-- What formatting a file comes to: its new text if it changes, or why it cannot be formatted. -/
def verdict (config : Config) (mode : Mode) (tree : FileTree) (path : Path) :
    Except FileError (Option Text) :=
  match tree.readText path with
  | .error e => .error e
  | .ok old =>
    match (formatText config mode old).outcome with
    | .error e => .error (.read e)
    | .ok new => .ok (if new = old then none else some new)

def changes (config : Config) (mode : Mode) (tree : FileTree) (path : Path) : Bool :=
  match tree.verdict config mode path with
  | .ok (some _) => true
  | _ => false

/-- Some files are rewritten, and nothing else is. -/
structure Rewrites (config : Config) (mode : Mode) (tree tree' : FileTree) (changed : List Path) :
    Prop where
  locate (path : Path) : tree'.locate path = tree.locate path
  written : ∀ path ∈ changed, ∃ new, Reformats config mode tree path new ∧
    tree'.readText path = .ok new
  kept (place : Place) : (∀ path ∈ changed, tree.locate path ≠ .ok place) →
    tree'.entry? place = tree.entry? place

section Files

variable {config : Config} {mode : Mode} {tree tree' tree'' base : FileTree}
  {path : Path} {new : Text}

/-! ### one file -/

theorem verdict_eq_some_iff :
    tree.verdict config mode path = .ok (some new) ↔ Reformats config mode tree path new := by
  unfold verdict Reformats
  cases tree.readText path with
  | error e => simp
  | ok old =>
    cases hout : (formatText config mode old).outcome with
    | error e => simp [hout]
    | ok out =>
      simp only [hout, Except.ok.injEq, exists_eq_left']
      by_cases he : out = old
      · rw [if_pos he]
        constructor
        · intro h
          cases h
        · rintro ⟨rfl, hne⟩
          exact absurd he hne
      · rw [if_neg he, Option.some.injEq]
        constructor
        · rintro rfl
          exact ⟨rfl, he⟩
        · exact fun h => h.1

theorem changes_iff :
    tree.changes config mode path = true ↔ ∃ new, Reformats config mode tree path new := by
  simp only [← verdict_eq_some_iff, changes]
  cases tree.verdict config mode path with
  | error e => simp
  | ok o => cases o <;> simp

theorem verdict_congr (h : tree'.read path = tree.read path) :
    tree'.verdict config mode path = tree.verdict config mode path := by
  simp only [verdict, readText, h]

/-- **Formatting one file** says whether its text changes, and writes the new text at most. -/
theorem formatFile_eq (config : Config) (mode : Mode) (write : Bool) (tree : FileTree)
    (path : Path) :
    (tree.formatFile (.ok config) mode write path).outcome =
      (tree.verdict config mode path).map Option.isSome ∧
      (tree.formatFile (.ok config) mode write path).tree =
        match tree.verdict config mode path with
        | .ok (some new) => if write then tree.writeText path new else tree
        | _ => tree := by
  unfold formatFile verdict
  cases tree.readText path with
  | error e => exact ⟨rfl, rfl⟩
  | ok old =>
    cases hout : (formatText config mode old).outcome with
    | error e => simp [hout, Except.map]
    | ok out =>
      by_cases he : out = old
      · simp [hout, he, Except.map]
      · cases write <;> simp [hout, he, Except.map]

/-! ### trees with files rewritten -/

theorem Rewrites.refl (tree : FileTree) : Rewrites config mode tree tree [] :=
  ⟨fun _ => rfl, by simp, fun _ _ => rfl⟩

theorem Rewrites.read_eq {changed : List Path} (h : Rewrites config mode tree tree' changed)
    (hne : ∀ p ∈ changed, tree.locate p ≠ tree.locate path) : tree'.read path = tree.read path := by
  unfold read
  rw [h.locate]
  cases hplace : tree.locate path with
  | error fault => rfl
  | ok place => simp only [h.kept place fun p hp => hplace ▸ hne p hp]

theorem Rewrites.trans {as bs : List Path} (h : Rewrites config mode tree tree' as)
    (h' : Rewrites config mode tree' tree'' bs)
    (hne : ∀ p ∈ as, ∀ q ∈ bs, tree.locate p ≠ tree.locate q) :
    Rewrites config mode tree tree'' (as ++ bs) where
  locate path := (h'.locate path).trans (h.locate path)
  written path hpath := by
    rcases List.mem_append.1 hpath with hp | hp
    · obtain ⟨new, hnew, hread⟩ := h.written path hp
      have hlater : tree''.read path = tree'.read path :=
        h'.read_eq fun q hq => by simpa only [h.locate] using (hne path hp q hq).symm
      exact ⟨new, hnew, by rw [← hread, readText, readText, hlater]⟩
    · obtain ⟨new, hnew, hread⟩ := h'.written path hp
      have hearlier : tree'.read path = tree.read path := h.read_eq fun q hq => hne q hq path hp
      exact ⟨new, verdict_eq_some_iff.1 (verdict_congr hearlier ▸ verdict_eq_some_iff.2 hnew),
        hread⟩
  kept place hplace := by
    rw [h'.kept place fun q hq => h.locate q ▸ hplace q (List.mem_append_right _ hq),
      h.kept place fun p hp => hplace p (List.mem_append_left _ hp)]

theorem rewrites_writeText (h : Reformats config mode tree path new) :
    Rewrites config mode tree (tree.writeText path new) [path] := by
  obtain ⟨old, hread, hout, hne⟩ := h
  obtain ⟨⟨bytes, hbytes⟩, hr⟩ := exists_of_readText hread
  obtain ⟨place, hplace, hentry⟩ := exists_of_read hbytes
  have hwrite : tree.writeText path new = tree.writeAt place (String.ofList new).toUTF8 := by
    rw [writeText, write, hplace]
  refine ⟨fun p => ?_, fun p hp => ?_, fun key hkey => ?_⟩
  · rw [hwrite, locate_writeAt hentry]
  · obtain rfl := List.mem_singleton.1 hp
    exact ⟨new, ⟨old, hread, hout, hne⟩,
      readText_writeText hread ((drawnFrom_formatText hout).not_mem hr)⟩
  · rw [hwrite, entry?_writeAt_of_ne]
    rintro rfl
    exact hkey path (by simp) hplace

/-! ### a list of files -/

/-- The run over a list of files ends at its first file, or goes on in the tree that this one
leaves. -/
theorem formatFiles_cons (config : Config) (mode : Mode) (write : Bool) (tree : FileTree)
    (path : Path) (paths : List Path) :
    formatFiles config mode write tree (path :: paths) =
      let first := tree.formatFile (.ok config) mode write path
      let rest := formatFiles config mode write first.tree paths
      match tree.verdict config mode path with
      | .error e => ⟨first.tree, first.events, .error e⟩
      | .ok new =>
        ⟨rest.tree, first.events ++ rest.events,
          rest.outcome.map fun ps => if new.isSome then path :: ps else ps⟩ := by
  have hfile := (formatFile_eq config mode write tree path).1
  rw [formatFiles]
  cases hv : tree.verdict config mode path with
  | error e => simp only [hfile, hv, Except.map]
  | ok new => simp only [hfile, hv, Except.map]

theorem tree_formatFiles_check (tree : FileTree) (paths : List Path) :
    (formatFiles config mode false tree paths).tree = tree := by
  have hfile : ∀ path, (tree.formatFile (.ok config) mode false path).tree = tree := by
    intro path
    rw [(formatFile_eq config mode false tree path).2]
    split <;> rfl
  induction paths with
  | nil => rfl
  | cons path paths ih =>
    rw [formatFiles_cons]
    cases tree.verdict config mode path with
    | error e => exact hfile path
    | ok new => simpa only [hfile] using ih

/-- **One step of a run**: the file is rewritten if it changes, and nothing else is. -/
theorem rewrites_formatFile (config : Config) (mode : Mode) (write : Bool) (tree : FileTree)
    (path : Path) :
    Rewrites config mode tree (tree.formatFile (.ok config) mode write path).tree
      ([path].filter fun p => write && tree.changes config mode p) := by
  rw [(formatFile_eq config mode write tree path).2]
  split
  · next new hnew =>
    have hchanges : tree.changes config mode path = true :=
      changes_iff.2 ⟨new, verdict_eq_some_iff.1 hnew⟩
    cases write with
    | false => simpa using Rewrites.refl tree
    | true => simpa [hchanges] using rewrites_writeText (verdict_eq_some_iff.1 hnew)
  · next hnone =>
    have hkept : tree.changes config mode path = false := by
      unfold changes
      split
      · next new hnew =>
        exact absurd hnew (hnone new)
      · rfl
    simpa [hkept] using Rewrites.refl tree

/-- **The run over files at different places**: what it comes to depends on the tree at its start
only, and the files that change in front of the first failure are rewritten. -/
theorem formatFiles_eq (config : Config) (mode : Mode) (write : Bool) {paths : List Path}
    (hone : paths.Pairwise fun p q => tree.locate p ≠ tree.locate q)
    (hbase : ∀ p ∈ paths, tree.verdict config mode p = base.verdict config mode p) :
    (formatFiles config mode write tree paths).outcome =
        (paths.mapM (base.verdict config mode)).map
          (fun _ => paths.filter (base.changes config mode)) ∧
      Rewrites config mode tree (formatFiles config mode write tree paths).tree
        ((paths.takeWhile fun p => (base.verdict config mode p).isOk).filter fun p =>
          write && base.changes config mode p) := by
  induction paths generalizing tree with
  | nil => exact ⟨rfl, Rewrites.refl tree⟩
  | cons path paths ih =>
    obtain ⟨hne, hone⟩ := List.pairwise_cons.1 hone
    have hsame := hbase path (by simp)
    have hchanges : tree.changes config mode path = base.changes config mode path := by
      simp only [changes, hsame]
    have hstep := rewrites_formatFile config mode write tree path
    rw [List.mapM_cons, formatFiles_cons, hsame]
    cases hv : base.verdict config mode path with
    | error e =>
      refine ⟨rfl, ?_⟩
      have hkept : base.changes config mode path = false := by simp [changes, hv]
      simpa [hv, hkept, hchanges, Except.isOk, Except.toBool] using hstep
    | ok new =>
      -- the files behind are at other places, so they are read as before
      have hread : ∀ p ∈ paths,
          (tree.formatFile (.ok config) mode write path).tree.verdict config mode p =
            base.verdict config mode p := by
        intro p hp
        rw [← hbase p (by simp [hp])]
        refine verdict_congr (hstep.read_eq fun q hq => ?_)
        obtain rfl := List.mem_singleton.1 (List.mem_filter.1 hq).1
        exact hne p hp
      obtain ⟨hout, hrest⟩ := ih (by simpa only [hstep.locate] using hone) hread
      constructor
      · have hsome : base.changes config mode path = new.isSome := by
          cases new <;> simp [changes, hv]
        simp only [hout]
        cases paths.mapM (base.verdict config mode) with
        | error e => rfl
        | ok news =>
          simp [bind, Except.bind, pure, Except.pure, Except.map, List.filter_cons, hsome]
      · have hlist :
            (((path :: paths).takeWhile fun p => (base.verdict config mode p).isOk).filter fun p =>
              write && base.changes config mode p) =
            ([path].filter fun p => write && tree.changes config mode p) ++
              ((paths.takeWhile fun p => (base.verdict config mode p).isOk).filter fun p =>
                write && base.changes config mode p) := by
          simp [hv, Except.isOk, Except.toBool, List.filter_cons, hchanges]
          split <;> rfl
        rw [hlist]
        refine hstep.trans hrest fun p hp q hq => ?_
        obtain rfl := List.mem_singleton.1 (List.mem_filter.1 hp).1
        exact hne q ((List.takeWhile_sublist _).subset (List.mem_filter.1 hq).1)

section Listed

variable {paths : List Path}

theorem formatFiles_ok (hone : paths.Pairwise fun p q => tree.locate p ≠ tree.locate q)
    {write : Bool} {changed : List Path}
    (h : (formatFiles config mode write tree paths).outcome = .ok changed) :
    changed = paths.filter (tree.changes config mode) ∧
      (∀ p ∈ paths, (tree.verdict config mode p).isOk = true) ∧
      Rewrites config mode tree (formatFiles config mode true tree paths).tree changed := by
  obtain ⟨-, hrewrites⟩ := formatFiles_eq config mode true hone fun _ _ => rfl
  rw [(formatFiles_eq config mode write hone fun _ _ => rfl).1] at h
  cases hall : paths.mapM (tree.verdict config mode) with
  | error e => simp [hall, Except.map] at h
  | ok news =>
    obtain rfl : paths.filter (tree.changes config mode) = changed := by
      simpa [hall, Except.map] using h
    have hok : ∀ p ∈ paths, (tree.verdict config mode p).isOk = true := (mapM_ok hall).1
    refine ⟨rfl, hok, ?_⟩
    simpa [List.takeWhile_eq_self_iff.2 hok] using hrewrites

/-- A run that fails: there is a first file that cannot be formatted, and writing rewrites the files
that change in front of it. -/
theorem formatFiles_error (hone : paths.Pairwise fun p q => tree.locate p ≠ tree.locate q)
    {write : Bool} {e : FileError}
    (h : (formatFiles config mode write tree paths).outcome = .error e) :
    ∃ before bad after, paths = before ++ bad :: after ∧
      (∀ p ∈ before, (tree.verdict config mode p).isOk = true) ∧
      tree.verdict config mode bad = .error e ∧
      Rewrites config mode tree (formatFiles config mode true tree paths).tree
        (before.filter (tree.changes config mode)) ∧
      ∀ q ∈ bad :: after, (formatFiles config mode true tree paths).tree.read q = tree.read q := by
  obtain ⟨-, hrewrites⟩ := formatFiles_eq config mode true hone fun _ _ => rfl
  rw [(formatFiles_eq config mode write hone fun _ _ => rfl).1] at h
  cases hall : paths.mapM (tree.verdict config mode) with
  | ok news => simp [hall, Except.map] at h
  | error e' =>
    obtain rfl : e' = e := by simpa [hall, Except.map] using h
    obtain ⟨before, bad, after, rfl, hok, hbad⟩ := mapM_error hall
    have htake :
        (before ++ bad :: after).takeWhile (fun p => (tree.verdict config mode p).isOk) =
          before := by
      rw [List.takeWhile_append_of_pos hok,
        List.takeWhile_cons_of_neg (by simp [hbad, Except.isOk, Except.toBool]), List.append_nil]
    simp only [htake, Bool.true_and] at hrewrites
    refine ⟨before, bad, after, rfl, hok, hbad, hrewrites, fun q hq => ?_⟩
    exact hrewrites.read_eq fun p hp =>
      (List.pairwise_append.1 hone).2.2 p (List.mem_filter.1 hp).1 q hq

end Listed

end Files

/-! ### a directory -/

/-- The run over a directory stopped before any file was read: the pattern is not valid, or a path
is too long to be searched. -/
def StopsEarly (tree : FileTree) (pattern : Text) (dir : Path) (e : FileError) : Prop :=
  (∃ bad, Pattern.ofText pattern = .error bad ∧ e = .pattern bad) ∨
    ∃ parts place, Pattern.ofText pattern = .ok parts ∧
      tree.filesMatching parts dir = .error (.tooLong, place) ∧ e = .io .tooLong place

theorem tooLong_of_filesMatching {tree : FileTree} {parts : List Pattern.Part} {dir : Path}
    {e : Fault × Path} (h : tree.filesMatching parts dir = .error e) : e.1 = .tooLong := by
  unfold filesMatching at h
  cases hprobe : tree.probe dir with
  | error e' =>
    obtain rfl : e' = e := by simpa [hprobe, bind, Except.bind] using h
    exact tooLong_of_probe hprobe
  | ok o =>
    rw [hprobe] at h
    simp only [bind, Except.bind] at h
    split at h
    · cases hsel : tree.select (.anyDepth :: parts) dir with
      | error e' =>
        obtain rfl : e' = e := by simpa [hsel] using h
        exact tooLong_of_select hsel
      | ok ps => simp [hsel, pure, Except.pure] at h
    · cases h

/-- **How a run over a directory goes**: it stops early, or it is the run over the listing. -/
theorem formatDirectory_cases (config : Config) (mode : Mode) (tree : FileTree) (pattern : Text)
    (dir : Path) :
    (∃ e, StopsEarly tree pattern dir e ∧
      ∀ write, tree.formatDirectory (.ok config) mode write pattern dir = ⟨tree, [], .error e⟩) ∨
    ∃ parts found, Pattern.ofText pattern = .ok parts ∧ tree.IsListing parts dir found ∧
      ∀ write, tree.formatDirectory (.ok config) mode write pattern dir =
        formatFiles config mode write tree found := by
  unfold formatDirectory
  cases hparts : Pattern.ofText pattern with
  | error bad => exact .inl ⟨.pattern bad, .inl ⟨bad, hparts, rfl⟩, fun _ => rfl⟩
  | ok parts =>
    cases hfound : tree.filesMatching parts dir with
    | error e =>
      obtain ⟨fault, place⟩ := e
      obtain rfl : fault = .tooLong := tooLong_of_filesMatching hfound
      exact .inl ⟨_, .inr ⟨parts, place, hparts, hfound, rfl⟩, fun _ => by simp only [hfound]⟩
    | ok found =>
      exact .inr ⟨parts, found, rfl, isListing_filesMatching hfound, fun _ => by simp only [hfound]⟩

/-- Matching files are at different places. -/
def MatchedOnce (tree : FileTree) (pattern : Text) (dir : Path) : Prop :=
  ∀ parts, Pattern.ofText pattern = .ok parts → ∀ p q, tree.Matched parts dir p →
    tree.Matched parts dir q → tree.locate p = tree.locate q → p = q

theorem MatchedOnce.pairwise_locate {tree : FileTree} {pattern : Text} {dir : Path}
    (hone : MatchedOnce tree pattern dir) {parts : List Pattern.Part}
    (hparts : Pattern.ofText pattern = .ok parts) {found : List Path}
    (hlist : tree.IsListing parts dir found) :
    found.Pairwise fun p q => tree.locate p ≠ tree.locate q :=
  hlist.nodup.imp_of_mem fun hp hq hne h =>
    hne (hone parts hparts _ _ ((hlist.mem_iff _).1 hp) ((hlist.mem_iff _).1 hq) h)

/-- A pattern that does not go back up finds every file once. -/
theorem matchedOnce_of_not_mem {tree : FileTree} {pattern : Text}
    (htree : ∀ e ∈ tree.entries, ['.', '.'] ∉ e.1) (hpattern : ['.', '.'] ∉ Path.namesOf pattern)
    (dir : Path) : MatchedOnce tree pattern dir :=
  fun _ hparts _ _ hp hq =>
    locate_inj_of_matched htree (fun h => hpattern (Pattern.mem_namesOf_of_exactly hparts h)) hp hq

section Matched

variable (config : Config) (mode : Mode) {tree : FileTree} {pattern : Text} {dir : Path}

theorem outcome_formatDirectory_write (hone : MatchedOnce tree pattern dir) :
    (tree.formatDirectory (.ok config) mode true pattern dir).outcome =
      (tree.formatDirectory (.ok config) mode false pattern dir).outcome := by
  rcases formatDirectory_cases config mode tree pattern dir with
    ⟨e, -, heq⟩ | ⟨parts, found, hparts, hlist, heq⟩
  · rw [heq, heq]
  · have hplaces := hone.pairwise_locate hparts hlist
    rw [heq, heq, (formatFiles_eq config mode true hplaces fun _ _ => rfl).1,
      (formatFiles_eq config mode false hplaces fun _ _ => rfl).1]

/-- Writing comes to the same end as the check for every pattern that does not go back up. -/
theorem outcome_formatDirectory_write_of_not_mem (htree : ∀ e ∈ tree.entries, ['.', '.'] ∉ e.1)
    (hpattern : ['.', '.'] ∉ Path.namesOf pattern) :
    (tree.formatDirectory (.ok config) mode true pattern dir).outcome =
      (tree.formatDirectory (.ok config) mode false pattern dir).outcome :=
  outcome_formatDirectory_write config mode (matchedOnce_of_not_mem htree hpattern dir)

-- The pattern `*/../a` finds one file by two paths, and the second one finds it formatted.
example :
    let tree : FileTree :=
      ⟨[], [([['d']], .directory), ([['e']], .directory), ([['a']], .file "(a (b) (c))".toUTF8)]⟩
    let paths : List Path := [⟨[], [['d'], ['.', '.'], ['a']]⟩, ⟨[], [['e'], ['.', '.'], ['a']]⟩]
    (formatFiles .standard .multiLine false tree paths).outcome.toOption = some paths ∧
      (formatFiles .standard .multiLine true tree paths).outcome.toOption =
        some (paths.take 1) := by
  decide +kernel

end Matched

/-- **A check says what writing does.**  Both come to the same end, and the check changes nothing.
If they succeed, the value lists the matching files whose text changes, in order, and writing
rewrites these and nothing else.  If they fail at a file, writing rewrites the files that change in
front of it and nothing else.  What is assumed of the listing is `MatchedOnce`: no file is found by
two paths.  Only a pattern that goes back up can do so (`matchedOnce_of_not_mem`). -/
theorem formatDirectory_write_iff_check (config : Config) (mode : Mode) {tree : FileTree}
    {pattern : Text} {dir : Path} (hone : MatchedOnce tree pattern dir)
    {check written : FileAction (List Path)}
    (hc : tree.formatDirectory (.ok config) mode false pattern dir = check)
    (hw : tree.formatDirectory (.ok config) mode true pattern dir = written) :
    written.outcome = check.outcome ∧ check.tree = tree ∧
    (∀ changed, check.outcome = .ok changed →
      ∃ parts, Pattern.ofText pattern = .ok parts ∧
        changed.Pairwise (fun p q => p.names ≤ q.names) ∧ changed.Nodup ∧
        (∀ q, q ∈ changed ↔ tree.Matched parts dir q ∧ ∃ new, Reformats config mode tree q new) ∧
        (∀ q, tree.Matched parts dir q → (tree.verdict config mode q).isOk = true) ∧
        Rewrites config mode tree written.tree changed) ∧
    (∀ e, check.outcome = .error e →
      (StopsEarly tree pattern dir e ∧ written.tree = tree) ∨
      ∃ parts before bad after, Pattern.ofText pattern = .ok parts ∧
        tree.IsListing parts dir (before ++ bad :: after) ∧
        (∀ q ∈ before, (tree.verdict config mode q).isOk = true) ∧
        tree.verdict config mode bad = .error e ∧
        Rewrites config mode tree written.tree (before.filter (tree.changes config mode)) ∧
        ∀ q ∈ bad :: after, written.tree.read q = tree.read q) := by
  subst hc hw
  rcases formatDirectory_cases config mode tree pattern dir with
    ⟨e, hearly, heq⟩ | ⟨parts, found, hparts, hlist, heq⟩
  · rw [heq, heq]
    refine ⟨rfl, rfl, fun changed h => (nomatch h), fun e' h => .inl ⟨?_, rfl⟩⟩
    obtain rfl := Except.error.inj h
    exact hearly
  · have hplaces := hone.pairwise_locate hparts hlist
    have hsame := outcome_formatDirectory_write config mode hone
    rw [heq, heq] at hsame ⊢
    refine ⟨hsame, tree_formatFiles_check tree found, fun changed h => ?_, fun e h => .inr ?_⟩
    · obtain ⟨rfl, hok, hrewrites⟩ := formatFiles_ok hplaces h
      refine ⟨parts, hparts, hlist.sorted.filter _, hlist.nodup.filter _, fun q => ?_,
        fun q hq => hok q ((hlist.mem_iff q).2 hq), hrewrites⟩
      rw [List.mem_filter, hlist.mem_iff, changes_iff]
    · obtain ⟨before, bad, after, rfl, hrest⟩ := formatFiles_error hplaces h
      exact ⟨parts, before, bad, after, hparts, hlist, hrest⟩

/-- A directory in which one file changes, another one cannot be read as forms, and a third one is
not text. -/
theorem formatDirectory_write_iff_check_mixed :
    let tree : FileTree :=
      ⟨[], [([['d']], .directory), ([['d'], ['a', '.', 'e', 'l']], .file "(a (b) (c))".toUTF8),
        ([['d'], ['b', '.', 'e', 'l']], .file "(".toUTF8),
        ([['e', '.', 'e', 'l']], .file ⟨#[255]⟩)]⟩
    let good : Path := ⟨[], [['d'], ['a', '.', 'e', 'l']]⟩
    let bad : Path := ⟨[], [['d'], ['b', '.', 'e', 'l']]⟩
    let worse : Path := ⟨[], [['e', '.', 'e', 'l']]⟩
    let check := tree.formatDirectory (.ok .standard) .multiLine false Pattern.standard ⟨[], []⟩
    let written := tree.formatDirectory (.ok .standard) .multiLine true Pattern.standard ⟨[], []⟩
    MatchedOnce tree Pattern.standard ⟨[], []⟩ ∧ written.outcome = check.outcome ∧
      check.tree = tree ∧
      (∃ e, check.outcome = .error e ∧ tree.verdict .standard .multiLine bad = .error e) ∧
      Rewrites .standard .multiLine tree written.tree [good] ∧
      ∀ q ∈ [bad, worse], written.tree.read q = tree.read q := by
  intro tree good bad worse check written
  have hone : MatchedOnce tree Pattern.standard ⟨[], []⟩ :=
    matchedOnce_of_not_mem (by simp [tree]) (by decide +kernel) ⟨[], []⟩
  obtain ⟨hsame, htree, -, hfails⟩ := formatDirectory_write_iff_check .standard .multiLine hone
    (rfl : _ = check) (rfl : _ = written)
  refine ⟨hone, hsame, htree, ?_⟩
  obtain ⟨parts, hparts⟩ :=
    exists_of_isOk (x := Pattern.ofText Pattern.standard) (by decide +kernel)
  have hselect : tree.select (.anyDepth :: parts) ⟨[], []⟩ = .ok [worse, good, bad] := by
    have hselect : (Pattern.ofText Pattern.standard).toOption.bind
        (fun parts => (tree.select (.anyDepth :: parts) ⟨[], []⟩).toOption) =
          some [worse, good, bad] := by
      decide +kernel
    rw [hparts] at hselect
    exact eq_ok_of_toOption hselect
  have hlisted : tree.IsListing parts ⟨[], []⟩ [good, bad, worse] := by
    have hfiles : ∀ q ∈ [good, bad, worse], tree.isFile q = true ∧ q ∈ [worse, good, bad] := by
      decide +kernel
    have hsame : ∀ q ∈ [worse, good, bad], q ∈ [good, bad, worse] := by decide +kernel
    refine ⟨by decide +kernel, by decide +kernel, fun q => ⟨fun hq => ?_, ?_⟩⟩
    · exact ⟨rfl, (hfiles q hq).1, _, hselect, (hfiles q hq).2⟩
    · rintro ⟨-, -, ps, hps, hq⟩
      obtain rfl := Except.ok.inj (hselect.symm.trans hps)
      exact hsame q hq
  have hfound : tree.filesMatching parts ⟨[], []⟩ = .ok [good, bad, worse] := by
    have hok : (Pattern.ofText Pattern.standard).toOption.map
        (fun parts => (tree.filesMatching parts ⟨[], []⟩).isOk) = some true := by
      decide +kernel
    rw [hparts] at hok
    obtain ⟨found, hfound⟩ := exists_of_isOk (Option.some.inj hok)
    rw [hfound, (isListing_filesMatching hfound).unique hlisted]
  have hcomputed :
      (formatFiles .standard .multiLine false tree [good, bad, worse]).outcome.isOk = false ∧
      (tree.verdict .standard .multiLine good).isOk = true ∧
      (tree.verdict .standard .multiLine bad).isOk = false ∧
      tree.changes .standard .multiLine good = true := by
    decide +kernel
  obtain ⟨hfailed, hgood, hbad, hchanges⟩ := hcomputed
  have hcheck : check = formatFiles .standard .multiLine false tree [good, bad, worse] := by
    simp only [check, formatDirectory, hparts, hfound]
  rw [← hcheck] at hfailed
  obtain ⟨e, he⟩ : ∃ e, check.outcome = .error e := by
    cases he : check.outcome with
    | ok changed => simp [he, Except.isOk, Except.toBool] at hfailed
    | error e => exact ⟨e, rfl⟩
  rcases hfails e he with
    ⟨hearly, -⟩ | ⟨parts', before, first, after, hparts', hlist, hok, hfirst, hrewrites, hkept⟩
  · -- the files were listed
    rcases hearly with ⟨r, hr, -⟩ | ⟨parts', place, hparts', hplace, -⟩
    · simp [hr] at hparts
    · obtain rfl := Except.ok.inj (hparts'.symm.trans hparts)
      simp [hplace] at hfound
  · obtain rfl := Except.ok.inj (hparts'.symm.trans hparts)
    have hsplit := hlist.unique hlisted
    -- the first file that cannot be formatted is the second one
    obtain ⟨hbefore, hbad', hafter⟩ : before = [good] ∧ first = bad ∧ after = [worse] := by
      rcases before with - | ⟨p, - | ⟨q, before⟩⟩
      · obtain ⟨hp, -⟩ := List.cons.inj hsplit
        rw [hp] at hfirst
        rw [hfirst] at hgood
        cases hgood
      · simpa using hsplit
      · obtain ⟨-, hrest⟩ := List.cons.inj hsplit
        obtain ⟨hq, -⟩ := List.cons.inj hrest
        rw [← hq, hok q (by simp)] at hbad
        cases hbad
    rw [hbefore, List.filter_cons_of_pos hchanges] at hrewrites
    rw [hbad'] at hfirst
    rw [hbad', hafter] at hkept
    exact ⟨⟨e, he, hfirst⟩, hrewrites, hkept⟩

end FileTree

end SexpLayout
