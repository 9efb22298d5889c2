import SexpLayout.Proofs.Files.Directory

/-!
# Files that are text

A file that is UTF-8 can be formatted unless it cannot be opened or its text cannot be read, and it
stays UTF-8.  A path has a null character only if the text that names it has one.

* `FileTree.Decodable` — every file is UTF-8; `Rewrites.decodable` — **rewriting files keeps this**;
* `formatFiles_of_decodable` — a run over such files fails only at a text that cannot be read.
-/

namespace SexpLayout

/-! ### the characters of a path -/

theorem Text.mem_of_mem_splitOn {sep c : Char} {t piece : Text} (hp : piece ∈ t.splitOn sep)
    (hc : c ∈ piece) : c ∈ t := by
  induction t generalizing piece with
  | nil =>
    obtain rfl := List.mem_singleton.1 hp
    simp at hc
  | cons d t ih =>
    rw [Text.splitOn] at hp
    split at hp
    · obtain rfl := List.mem_singleton.1 hp
      obtain rfl := List.mem_singleton.1 hc
      exact List.mem_cons_self
    · next first rest hsplit =>
      rw [hsplit] at ih
      split at hp
      · rcases List.mem_cons.1 hp with rfl | hp
        · simp at hc
        · exact List.mem_cons_of_mem d (ih hp hc)
      · rcases List.mem_cons.1 hp with rfl | hp
        · rcases List.mem_cons.1 hc with rfl | hc
          · exact List.mem_cons_self
          · exact List.mem_cons_of_mem d (ih List.mem_cons_self hc)
        · exact List.mem_cons_of_mem d (ih (List.mem_cons_of_mem _ hp) hc)

theorem Text.mem_join {c : Char} {sep : Text} {ts : List Text} (h : c ∈ Text.join sep ts) :
    c ∈ sep ∨ ∃ t ∈ ts, c ∈ t := by
  fun_induction Text.join sep ts with
  | case1 => simp at h
  | case2 t => exact .inr ⟨t, by simp, h⟩
  | case3 t ts _ ih =>
    rcases List.mem_append.1 h with h | h
    · rcases List.mem_append.1 h with h | h
      · exact .inr ⟨t, by simp, h⟩
      · exact .inl h
    · exact (ih h).imp_right fun ⟨u, hu, hc⟩ => ⟨u, by simp [hu], hc⟩

theorem Path.mem_of_mem_text {t : Text} {c : Char} (h : c ∈ (Path.ofText t).text) :
    c ∈ t ∨ c = '/' ∨ c = '.' := by
  have hroot : ∀ d ∈ Path.rootOf t, d = '/' := by
    unfold Path.rootOf
    split <;> simp
  have hnames : c ∈ Text.join ['/'] (Path.namesOf t) → c ∈ t ∨ c = '/' := by
    intro hc
    rcases Text.mem_join hc with hc | ⟨name, hname, hc⟩
    · exact .inr (by simpa using hc)
    · exact .inl (Text.mem_of_mem_splitOn (List.mem_filter.1 hname).1 hc)
  unfold Path.text at h
  split at h
  · exact .inr (.inr (by simpa using h))
  · rcases List.mem_append.1 h with h | h
    · exact .inr (.inl (hroot c h))
    · exact (hnames h).imp_right .inl

/-! ### files that are text -/

namespace FileTree

variable {config : Config} {mode : Mode} {tree tree' : FileTree} {p q : Path}

/-- Every file is UTF-8. -/
def Decodable (tree : FileTree) : Prop :=
  ∀ path bytes, tree.read path = .ok bytes → (String.fromUTF8? bytes).isSome = true

theorem nullCharacter_of_read (h : tree.read p = .error .nullCharacter) : '\x00' ∈ p.text := by
  have hfollow : ∀ (names : List Text) (here : Place),
      tree.follow here names ≠ .error .nullCharacter := by
    intro names
    induction names with
    | nil => simp [follow]
    | cons name names ih =>
      intro here
      rw [follow]
      split
      · simp
      · simp
      · split
        · simp
        · exact ih _
  by_contra hnot
  have hnull : p.text.contains '\x00' = false := by simpa using hnot
  unfold read locate at h
  rw [hnull] at h
  split at h
  · next fault hfault =>
    obtain rfl : fault = .nullCharacter := Except.error.inj h
    simp only [Bool.false_eq_true, if_false] at hfault
    split at hfault
    · cases hfault
    · exact hfollow _ _ hfault
  · split at h <;> cases h

/-- A file is read as before, or it is one that was rewritten, and then it is UTF-8. -/
theorem Rewrites.read_cases {changed : List Path} (h : Rewrites config mode tree tree' changed)
    (path : Path) :
    tree'.read path = tree.read path ∨ ∃ bytes, tree'.read path = .ok bytes ∧
      (String.fromUTF8? bytes).isSome = true := by
  by_cases hsame : ∃ p ∈ changed, tree.locate p = tree.locate path
  · obtain ⟨p, hp, hloc⟩ := hsame
    obtain ⟨new, -, hnew⟩ := h.written p hp
    have hread : tree'.read path = tree'.read p := by simp only [read, h.locate, hloc]
    rw [hread]
    unfold readText at hnew
    cases hb : tree'.read p with
    | error fault => simp [hb] at hnew
    | ok bytes =>
      refine .inr ⟨bytes, rfl, ?_⟩
      cases hs : String.fromUTF8? bytes with
      | none => simp [hb, hs] at hnew
      | some s => rfl
  · exact .inl (h.read_eq fun p hp hloc => hsame ⟨p, hp, hloc⟩)

theorem Rewrites.decodable {changed : List Path} (h : Rewrites config mode tree tree' changed)
    (hd : tree.Decodable) :
    tree'.Decodable := by
  intro path bytes hread
  rcases h.read_cases path with heq | ⟨bytes', hbytes, hsome⟩
  · exact hd path bytes (heq ▸ hread)
  · obtain rfl := Except.ok.inj (hbytes.symm.trans hread)
    exact hsome

theorem decodable_of_entries
    (h : ∀ place bytes, (place, .file bytes) ∈ tree.entries →
      (String.fromUTF8? bytes).isSome = true) :
    tree.Decodable := by
  intro path bytes hread
  obtain ⟨place, -, hentry⟩ := exists_of_read hread
  cases place with
  | nil => cases hentry
  | cons name names =>
    obtain ⟨before, after, heq, -⟩ := List.lookup_eq_some_iff.1 hentry
    exact h (name :: names) bytes (by simp [heq])

/-- A file that is UTF-8 cannot be formatted only if it cannot be opened, or its text cannot be
read. -/
theorem verdict_error (hd : tree.Decodable) {e : FileError}
    (h : tree.verdict config mode p = .error e) :
    (∃ fault, tree.read p = .error fault ∧ e = .io fault p) ∨ ∃ bad, e = .read bad := by
  unfold verdict readText at h
  cases hread : tree.read p with
  | error fault =>
    rw [hread] at h
    exact .inl ⟨fault, rfl, (Except.error.inj h).symm⟩
  | ok bytes =>
    obtain ⟨s, hs⟩ := Option.isSome_iff_exists.1 (hd p bytes hread)
    simp only [hread, hs] at h
    split at h
    · exact .inr ⟨_, (Except.error.inj h).symm⟩
    · cases h

/-- **A run over files that are UTF-8** leaves files that are UTF-8, and fails only at a text that
cannot be read. -/
theorem formatFiles_of_decodable (config : Config) (mode : Mode) (write : Bool) {paths : List Path}
    (hd : tree.Decodable) (hread : ∀ p ∈ paths, ∃ bytes, tree.read p = .ok bytes) :
    (formatFiles config mode write tree paths).tree.Decodable ∧
      ∀ e, (formatFiles config mode write tree paths).outcome = .error e →
        ∃ bad, e = .read bad := by
  induction paths generalizing tree with
  | nil => exact ⟨hd, fun e h => (nomatch h)⟩
  | cons path paths ih =>
    have hstep := rewrites_formatFile config mode write tree path
    have hd' := hstep.decodable hd
    rw [formatFiles_cons]
    cases hv : tree.verdict config mode path with
    | error e =>
      refine ⟨hd', fun e' h => ?_⟩
      obtain rfl := Except.error.inj h
      refine (verdict_error hd hv).resolve_left ?_
      rintro ⟨fault, hfault, -⟩
      obtain ⟨bytes, hbytes⟩ := hread path (by simp)
      rw [hbytes] at hfault
      cases hfault
    | ok new =>
      have hnext : ∀ p ∈ paths, ∃ bytes,
          (tree.formatFile (.ok config) mode write path).tree.read p = .ok bytes := by
        intro p hp
        rcases hstep.read_cases p with heq | ⟨bytes, hbytes, -⟩
        · exact heq ▸ hread p (by simp [hp])
        · exact ⟨bytes, hbytes⟩
      obtain ⟨htree, hout⟩ := ih hd' hnext
      refine ⟨htree, fun e h => ?_⟩
      dsimp only at h
      cases hrest :
          (formatFiles config mode write
            (tree.formatFile (.ok config) mode write path).tree paths).outcome with
      | error e' =>
        obtain rfl : e' = e := by simpa [hrest, Except.map] using h
        exact hout e' hrest
      | ok ps => simp [hrest, Except.map] at h

end FileTree

end SexpLayout
