import Mathlib.Data.Char
import Mathlib.Data.List.Lex
import Mathlib.Order.Lattice
import SexpLayout.Proofs.Files.ReadBack

/-!
# The files of a directory

The listing of a directory holds every file below it that matches a pattern, once and in the order
of the names.  A path in it leads from the directory down by names of the tree and of the pattern.
So two paths lead to two places, unless the pattern goes back up by a `..`.

* `FileTree.Matched` — a file that matches the parts of a pattern; `isListing_filesMatching` — **the
  listing** holds these, each once and in order;
* `locate_inj_of_matched` — matching files are at different places.
-/

namespace SexpLayout

/-! ### the order of paths -/

theorem nil_le_of_linear {α : Type} [LinearOrder α] (as : List α) : [] ≤ as :=
  not_lt.1 (List.not_lt_nil as)

theorem cons_le_cons_iff_of_linear {α : Type} [LinearOrder α] {a b : α} {as bs : List α} :
    a :: as ≤ b :: bs ↔ a < b ∨ a = b ∧ as ≤ bs := by
  rw [le_iff_lt_or_eq, le_iff_lt_or_eq, List.cons_lt_cons_iff, List.cons.injEq]
  tauto

theorem Text.precedes_iff_le (s t : Text) : s.precedes t = true ↔ s ≤ t := by
  induction s generalizing t with
  | nil => simp [precedes, nil_le_of_linear]
  | cons a s ih =>
    cases t with
    | nil => simp [precedes]
    | cons b t => simp [precedes, cons_le_cons_iff_of_linear, ih]

theorem Path.precedes_iff_le (p q : Path) : p.precedes q = true ↔ p.names ≤ q.names := by
  have h : ∀ as bs : List Text, namesPrecede as bs = true ↔ as ≤ bs := by
    intro as
    induction as with
    | nil => simp [namesPrecede, nil_le_of_linear]
    | cons a as ih =>
      rintro (_ | ⟨b, bs⟩)
      · simp [namesPrecede]
      · rw [namesPrecede, cons_le_cons_iff_of_linear]
        by_cases hab : a = b
        · simp [hab, ih]
        · rw [if_neg hab, Text.precedes_iff_le, le_iff_lt_or_eq]
          simp [hab]
  exact h p.names q.names

/-! ### searches that may fail -/

section Search

variable {ε α β : Type} {f : α → Except ε β} {xs : List α}

theorem mapM_ok {ys : List β} (h : xs.mapM f = .ok ys) :
    (∀ x ∈ xs, (f x).isOk = true) ∧ ∀ y ∈ ys, ∃ x ∈ xs, f x = .ok y := by
  induction xs generalizing ys with
  | nil =>
    obtain rfl : [] = ys := Except.ok.inj h
    simp
  | cons x xs ih =>
    rw [List.mapM_cons] at h
    cases hx : f x with
    | error e => simp [hx, bind, Except.bind] at h
    | ok z =>
      cases hxs : xs.mapM f with
      | error e => simp [hx, hxs, bind, Except.bind] at h
      | ok zs =>
        obtain rfl : z :: zs = ys := by
          simpa [hx, hxs, bind, Except.bind, pure, Except.pure] using h
        obtain ⟨hok, hmem⟩ := ih hxs
        refine ⟨by simpa [hx, Except.isOk, Except.toBool] using hok, fun y hy => ?_⟩
        rcases List.mem_cons.1 hy with rfl | hy
        · exact ⟨x, by simp, hx⟩
        · obtain ⟨w, hw, hfw⟩ := hmem y hy
          exact ⟨w, by simp [hw], hfw⟩

theorem mapM_error {e : ε} (h : xs.mapM f = .error e) :
    ∃ before x after, xs = before ++ x :: after ∧ (∀ y ∈ before, (f y).isOk = true) ∧
      f x = .error e := by
  induction xs with
  | nil => cases h
  | cons x xs ih =>
    rw [List.mapM_cons] at h
    cases hx : f x with
    | error e' =>
      obtain rfl : e' = e := by simpa [hx, bind, Except.bind] using h
      exact ⟨[], x, xs, rfl, by simp, hx⟩
    | ok y =>
      cases hxs : xs.mapM f with
      | error e' =>
        obtain rfl : e' = e := by simpa [hx, hxs, bind, Except.bind] using h
        obtain ⟨before, w, after, rfl, hok, hw⟩ := ih hxs
        exact ⟨x :: before, w, after, rfl, by simpa [hx, Except.isOk, Except.toBool] using hok, hw⟩
      | ok ys => simp [hx, hxs, bind, Except.bind, pure, Except.pure] at h

theorem nodup_eraseDups [DecidableEq α] (xs : List α) : xs.eraseDups.Nodup := by
  induction hn : xs.length using Nat.strong_induction_on generalizing xs with
  | _ n ih =>
    cases xs with
    | nil => simp
    | cons x xs =>
      have hlt : (xs.filter fun y => !y == x).length < n := by
        have := List.length_filter_le (fun y => !y == x) xs
        rw [← hn, List.length_cons]
        omega
      rw [List.eraseDups_cons, List.nodup_cons]
      exact ⟨by simp [List.mem_eraseDups], ih _ hlt _ rfl⟩

end Search

namespace FileTree

open Pattern

variable {tree : FileTree} {parts : List Part} {dir p q : Path} {found : List Path}

/-! ### what is listed -/

/-- A file below a directory that matches the parts of a pattern at some depth. -/
def Matched (tree : FileTree) (parts : List Part) (dir q : Path) : Prop :=
  tree.isDirectory dir = true ∧ tree.isFile q = true ∧
    ∃ ps, tree.select (.anyDepth :: parts) dir = .ok ps ∧ q ∈ ps

theorem exists_locate_of_isFile (h : tree.isFile p = true) :
    ∃ place bytes, tree.locate p = .ok place ∧ tree.entry? place = some (.file bytes) := by
  unfold isFile find? at h
  split at h
  · next place hplace =>
    cases he : tree.entry? place with
    | none => simp [he] at h
    | some e =>
      cases e with
      | directory => simp [he, Entry.isDirectory] at h
      | file bytes => exact ⟨place, bytes, hplace, he⟩
  · simp at h

theorem exists_locate_of_isDirectory (h : tree.isDirectory p = true) :
    ∃ place, tree.locate p = .ok place ∧ tree.entry? place = some .directory := by
  unfold isDirectory find? at h
  split at h
  · next place hplace =>
    cases he : tree.entry? place with
    | none => simp [he] at h
    | some e =>
      cases e with
      | directory => exact ⟨place, hplace, he⟩
      | file bytes => simp [he, Entry.isDirectory] at h
  · simp at h

theorem eq_find?_of_probe {o : Option Entry} (h : tree.probe p = .ok o) : o = tree.find? p := by
  unfold probe at h
  split at h
  · cases h
  · exact (Except.ok.inj h).symm

/-- The matching files, each once, name by name in order. -/
structure IsListing (tree : FileTree) (parts : List Part) (dir : Path) (found : List Path) :
    Prop where
  sorted : found.Pairwise fun p q => p.names ≤ q.names
  nodup : found.Nodup
  mem_iff (q : Path) : q ∈ found ↔ tree.Matched parts dir q

/-- **A directory is listed** by the files below it that match. -/
theorem isListing_filesMatching (h : tree.filesMatching parts dir = .ok found) :
    tree.IsListing parts dir found := by
  unfold filesMatching at h
  cases hprobe : tree.probe dir with
  | error e => simp [hprobe, bind, Except.bind] at h
  | ok o =>
    have hfind := eq_find?_of_probe hprobe
    by_cases hdir : tree.isDirectory dir = true
    · obtain ⟨place, hplace, hentry⟩ := exists_locate_of_isDirectory hdir
      obtain rfl : o = some .directory := by simp only [hfind, find?, hplace, hentry]
      cases hsel : tree.select (.anyDepth :: parts) dir with
      | error e => simp [hprobe, hsel, bind, Except.bind] at h
      | ok ps =>
        obtain rfl : (ps.eraseDups.filter tree.isFile).mergeSort Path.precedes = found := by
          simpa [hprobe, hsel, bind, Except.bind, pure, Except.pure] using h
        refine ⟨?_, ?_, fun q => ?_⟩
        · refine (List.pairwise_mergeSort ?_ ?_ _).imp fun hpq => (Path.precedes_iff_le ..).1 hpq
          · intro a b c
            simp only [Path.precedes_iff_le]
            exact le_trans
          · intro a b
            simp only [Bool.or_eq_true, Path.precedes_iff_le]
            exact le_total ..
        · exact (List.mergeSort_perm ..).nodup_iff.2 ((nodup_eraseDups ps).filter _)
        · simp only [List.mem_mergeSort, List.mem_filter, List.mem_eraseDups, Matched, hdir, hsel]
          constructor
          · rintro ⟨hq, hfile⟩
            exact ⟨trivial, hfile, ps, rfl, hq⟩
          · rintro ⟨-, hfile, _, heq, hq⟩
            obtain rfl := Except.ok.inj heq
            exact ⟨hq, hfile⟩
    · have hnone : found = [] := by
        rw [hprobe] at h
        cases o with
        | none => exact (Except.ok.inj h).symm
        | some e =>
          cases e with
          | file bytes => exact (Except.ok.inj h).symm
          | directory => simp [isDirectory, ← hfind, Entry.isDirectory] at hdir
      subst hnone
      exact ⟨.nil, .nil, fun q => by simp [Matched, hdir]⟩

/-- Only names and paths that are too long keep a directory from being searched. -/
theorem tooLong_of_probe {e : Fault × Path} (h : tree.probe p = .error e) : e.1 = .tooLong := by
  unfold probe at h
  split at h
  · obtain rfl := Except.error.inj h
    rfl
  · cases h

/-! ### where a search leads -/

/-- The name is one that a part of a pattern asks for, or one of the tree. -/
def Known (tree : FileTree) (parts : List Part) (name : Text) : Prop :=
  .exactly name ∈ parts ∨ ∃ e ∈ tree.entries, name ∈ e.1

theorem below_nil (p : Path) : p.below [] = p := by simp [Path.below]

theorem below_below (p : Path) (ns ms : List Text) :
    (p.below ns).below ms = p.below (ns ++ ms) := by
  simp [Path.below]

theorem exists_of_mem_children {child : Text × Entry} (h : child ∈ tree.children p) :
    ∃ e ∈ tree.entries, child.1 ∈ e.1 := by
  unfold children at h
  split at h
  · simp at h
  · obtain ⟨e, he, hchild⟩ := List.mem_filterMap.1 h
    split at hchild
    · obtain ⟨name, hname, rfl⟩ := Option.map_eq_some_iff.1 hchild
      exact ⟨e, he, List.mem_of_getLast? hname⟩
    · cases hchild

theorem exists_of_mem_directoriesBelow (h : q ∈ tree.directoriesBelow p) :
    ∃ ns, q = p.below ns ∧ ∀ n ∈ ns, ∃ e ∈ tree.entries, n ∈ e.1 := by
  unfold directoriesBelow at h
  split at h
  · simp at h
  · rcases List.mem_cons.1 h with rfl | h
    · exact ⟨[], (below_nil q).symm, by simp⟩
    · obtain ⟨e, he, hq⟩ := List.mem_filterMap.1 h
      split at hq
      · exact ⟨_, (Option.some.inj hq).symm, fun n hn => ⟨e, he, List.mem_of_mem_drop hn⟩⟩
      · cases hq

/-- **One part of a pattern**: the search fails, or is done, or goes on with the other parts further
down. -/
theorem select_cons (tree : FileTree) (part : Part) (parts : List Part) (p : Path) :
    (∃ q, tree.select (part :: parts) p = .error (.tooLong, q)) ∨
      tree.select (part :: parts) p = .ok [p] ∨
      ∃ nexts : List Path, tree.select (part :: parts) p =
        (do return (← nexts.mapM (tree.select parts)).flatten) ∧
        ∀ r ∈ nexts, ∃ ns, r = p.below ns ∧ ∀ n ∈ ns, tree.Known [part] n := by
  have hone : ∀ r, tree.select parts r = (do return (← [r].mapM (tree.select parts)).flatten) := by
    intro r
    cases h : tree.select parts r <;> simp [h, bind, Except.bind, pure, Except.pure]
  cases part with
  | directory => exact .inr (.inl rfl)
  | anyDepth =>
    refine .inr (.inr ?_)
    by_cases hdeep : ∃ rest, parts = .anyDepth :: rest
    · obtain ⟨rest, rfl⟩ := hdeep
      rw [select, hone]
      exact ⟨[p], rfl, fun r hr => ⟨[], by simpa [below_nil] using hr, by simp⟩⟩
    · rw [select]
      swap
      · exact fun rest h => hdeep ⟨rest, h⟩
      refine ⟨tree.directoriesBelow p, rfl, fun r hr => ?_⟩
      obtain ⟨ns, hns, hin⟩ := exists_of_mem_directoriesBelow hr
      exact ⟨ns, hns, fun n hn => .inr (hin n hn)⟩
  | exactly name =>
    rw [select]
    cases hprobe : tree.probe (p.below [name]) with
    | error e =>
      obtain ⟨fault, place⟩ := e
      obtain rfl : fault = .tooLong := tooLong_of_probe hprobe
      exact .inl ⟨place, rfl⟩
    | ok o =>
      refine .inr (.inr ?_)
      have hdown : ∃ ns, p.below [name] = p.below ns ∧ ∀ n ∈ ns, tree.Known [.exactly name] n :=
        ⟨[name], rfl, fun n hn => .inl (by simpa using hn)⟩
      cases o with
      | none => exact ⟨[], rfl, by simp⟩
      | some e =>
        by_cases hgo : (parts.isEmpty || e.isDirectory) = true
        · refine ⟨[p.below [name]], ?_, by simpa using hdown⟩
          rw [← hone]
          simp [bind, Except.bind, hgo]
        · refine ⟨[], ?_, by simp⟩
          simp [bind, Except.bind, pure, Except.pure, hgo]
  | matching pieces =>
    refine .inr (.inr ⟨((tree.children p).filter fun child =>
      isSpelled pieces child.1 && (parts.isEmpty || child.2.isDirectory)).map fun child =>
        p.below [child.1], ?_, ?_⟩)
    · rw [select, List.mapM_map]
      rfl
    · intro r hr
      obtain ⟨child, hchild, rfl⟩ := List.mem_map.1 hr
      obtain ⟨e, he, hname⟩ := exists_of_mem_children (List.mem_filter.1 hchild).1
      exact ⟨[child.1], rfl,
        fun n hn => .inr ⟨e, he, by simpa [List.mem_singleton.1 hn] using hname⟩⟩

theorem tooLong_of_select {e : Fault × Path} (h : tree.select parts p = .error e) :
    e.1 = .tooLong := by
  induction parts generalizing p with
  | nil => cases h
  | cons part parts ih =>
    rcases select_cons tree part parts p with ⟨q, hq⟩ | hp | ⟨nexts, hnexts, -⟩
    · obtain rfl := Except.error.inj (hq.symm.trans h)
      rfl
    · rw [hp] at h
      cases h
    · rw [hnexts] at h
      cases hmap : nexts.mapM (tree.select parts) with
      | ok qs => simp [hmap, bind, Except.bind, pure, Except.pure] at h
      | error e' =>
        obtain rfl : e' = e := by simpa [hmap, bind, Except.bind] using h
        obtain ⟨_, r, _, -, -, hr⟩ := mapM_error hmap
        exact ih hr

theorem exists_below_of_mem_select {ps : List Path} (h : tree.select parts p = .ok ps)
    (hq : q ∈ ps) :
    ∃ ns, q = p.below ns ∧ ∀ n ∈ ns, tree.Known parts n := by
  induction parts generalizing p ps with
  | nil =>
    obtain rfl : [p] = ps := Except.ok.inj h
    obtain rfl := List.mem_singleton.1 hq
    exact ⟨[], (below_nil q).symm, by simp⟩
  | cons part parts ih =>
    rcases select_cons tree part parts p with ⟨r, hr⟩ | hp | ⟨nexts, hnexts, hdown⟩
    · rw [hr] at h
      cases h
    · obtain rfl := Except.ok.inj (hp.symm.trans h)
      obtain rfl := List.mem_singleton.1 hq
      exact ⟨[], (below_nil q).symm, by simp⟩
    · rw [hnexts] at h
      cases hmap : nexts.mapM (tree.select parts) with
      | error e => simp [hmap, bind, Except.bind] at h
      | ok qs =>
        obtain rfl : qs.flatten = ps := by
          simpa [hmap, bind, Except.bind, pure, Except.pure] using h
        obtain ⟨rs, hrs, hq⟩ := List.mem_flatten.1 hq
        obtain ⟨r, hr, hsel⟩ := (mapM_ok hmap).2 rs hrs
        obtain ⟨ns, rfl, hns⟩ := hdown r hr
        obtain ⟨ms, rfl, hms⟩ := ih hsel hq
        refine ⟨ns ++ ms, below_below p ns ms, fun n hn => ?_⟩
        rcases List.mem_append.1 hn with hn | hn
        · exact (hns n hn).imp_left fun h => by simp [List.mem_singleton.1 h]
        · exact (hms n hn).imp_left fun h => by simp [h]

/-- A directory has one listing. -/
theorem IsListing.unique {found' : List Path} (h : tree.IsListing parts dir found)
    (h' : tree.IsListing parts dir found') :
    found = found' := by
  have hperm : found.Perm found' :=
    (List.perm_ext_iff_of_nodup h.nodup h'.nodup).2 fun q => (h.mem_iff q).trans (h'.mem_iff q).symm
  refine hperm.eq_of_pairwise (fun p q hp hq hpq hqp => ?_) h.sorted h'.sorted
  obtain ⟨-, -, ps, hps, hp⟩ := (h.mem_iff p).1 hp
  obtain ⟨-, -, qs, hqs, hq⟩ := (h'.mem_iff q).1 hq
  obtain ⟨ns, rfl, -⟩ := exists_below_of_mem_select hps hp
  obtain ⟨ms, rfl, -⟩ := exists_below_of_mem_select hqs hq
  exact congrArg (Path.mk dir.root) (le_antisymm hpq hqp)

/-! ### places -/

/-- A path without a `..` leads straight down. -/
theorem follow_eq_append {here place : Place} {names : List Text} (hn : ['.', '.'] ∉ names)
    (h : tree.follow here names = .ok place) : place = here ++ names := by
  induction names generalizing here with
  | nil =>
    obtain rfl : here = place := Except.ok.inj h
    simp
  | cons name names ih =>
    obtain ⟨hname, hnames⟩ : name ≠ ['.', '.'] ∧ ['.', '.'] ∉ names := by
      simpa [eq_comm] using hn
    rw [follow] at h
    split at h
    · cases h
    · cases h
    · rw [if_neg hname] at h
      split at h
      · cases h
      · simpa using ih hnames h

theorem exists_follow_of_append {here place : Place} {ns ms : List Text}
    (h : tree.follow here (ns ++ ms) = .ok place) :
    ∃ mid, tree.follow here ns = .ok mid ∧ tree.follow mid ms = .ok place := by
  induction ns generalizing here with
  | nil => exact ⟨here, rfl, h⟩
  | cons name ns ih =>
    rw [List.cons_append, follow] at h
    rw [follow]
    split at h
    · cases h
    · cases h
    · split at h
      · cases h
      · next hdir hsize =>
        simp only [if_neg hsize]
        exact ih h

theorem follow_of_locate {place : Place} (h : tree.locate p = .ok place) :
    tree.follow (if p.isRelative then tree.home else []) p.names = .ok place := by
  unfold locate at h
  split at h
  · cases h
  · split at h
    · cases h
    · exact h

theorem locate_below {here place : Place} {ns : List Text} (hn : ['.', '.'] ∉ ns)
    (hp : tree.locate p = .ok here) (h : tree.locate (p.below ns) = .ok place) :
    place = here ++ ns := by
  obtain ⟨mid, hmid, hplace⟩ := exists_follow_of_append (follow_of_locate h)
  obtain rfl : here = mid := Except.ok.inj ((follow_of_locate hp).symm.trans hmid)
  exact follow_eq_append hn hplace

/-- **Matching files are at different places**, if neither the pattern nor a place of the tree goes
back up. -/
theorem locate_inj_of_matched (htree : ∀ e ∈ tree.entries, ['.', '.'] ∉ e.1)
    (hparts : .exactly ['.', '.'] ∉ parts) (hp : tree.Matched parts dir p)
    (hq : tree.Matched parts dir q) (h : tree.locate p = tree.locate q) : p = q := by
  obtain ⟨hdir, hfile, ps, hsel, hmem⟩ := hp
  obtain ⟨-, -, qs, hsel', hmem'⟩ := hq
  obtain rfl := Except.ok.inj (hsel.symm.trans hsel')
  have hdown : ∀ n, tree.Known (.anyDepth :: parts) n → n ≠ ['.', '.'] := by
    rintro n (hn | ⟨e, he, hn⟩) rfl
    · exact hparts (by simpa using hn)
    · exact htree e he hn
  obtain ⟨ns, rfl, hns⟩ := exists_below_of_mem_select hsel hmem
  obtain ⟨ms, rfl, hms⟩ := exists_below_of_mem_select hsel hmem'
  obtain ⟨here, hhere, -⟩ := exists_locate_of_isDirectory hdir
  obtain ⟨place, -, hplace, -⟩ := exists_locate_of_isFile hfile
  have hn := locate_below (fun hn => hdown _ (hns _ hn) rfl) hhere hplace
  have hm := locate_below (fun hm => hdown _ (hms _ hm) rfl) hhere (h ▸ hplace)
  rw [List.append_cancel_left (hn.symm.trans hm)]

end FileTree

theorem Pattern.mem_namesOf_of_exactly {pattern : Text} {parts : List Part}
    (h : ofText pattern = .ok parts) {name : Text} (hn : .exactly name ∈ parts) :
    name ∈ Path.namesOf pattern := by
  unfold ofText at h
  split at h
  · cases h
  · cases hmap : (Path.namesOf pattern).mapM partOf with
    | error e => simp [hmap, bind, Except.bind] at h
    | ok found =>
      have hmem : .exactly name ∈ found := by
        obtain rfl :
            (if pattern.getLast? = some '/' then found ++ [.directory] else found) = parts := by
          simpa [hmap, bind, Except.bind, pure, Except.pure] using h
        split at hn
        · simpa using hn
        · exact hn
      obtain ⟨t, ht, hpart⟩ := (mapM_ok hmap).2 _ hmem
      unfold partOf at hpart
      split at hpart
      · cases hpart
      · split at hpart
        · cases hpart
        · split at hpart
          · cases hpart
          · cases hpart
            exact ht

end SexpLayout
