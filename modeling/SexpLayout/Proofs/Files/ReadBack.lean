import SexpLayout.Files.Format

/-!
# Reading back what was written

A text that is written to a file is read back as it is, if it holds no carriage return: writing
changes no directory, so the path leads to the same place, and UTF-8 is decoded to what was encoded.
-/

namespace SexpLayout

namespace Text

theorem unifyLineEnds_eq_self {t : Text} (h : '\r' ∉ t) : unifyLineEnds t = t := by
  fun_induction unifyLineEnds t with
  | case1 => rfl
  | case2 cs ih => simp at h
  | case3 c cs _ ih =>
    simp only [List.mem_cons, not_or] at h
    rw [if_neg (Ne.symm h.1), ih h.2]

theorem not_mem_unifyLineEnds (t : Text) : '\r' ∉ unifyLineEnds t := by
  fun_induction unifyLineEnds t with
  | case1 => simp
  | case2 cs ih => simp [ih]
  | case3 c cs _ ih =>
    by_cases hc : c = '\r'
    · simp [hc, ih]
    · simp [hc, ih, Ne.symm hc]

end Text

theorem fromUTF8?_toUTF8 (s : String) : String.fromUTF8? s.toUTF8 = some s := by
  have hvalid : s.toUTF8.IsValidUTF8 := s.isValidUTF8
  rw [String.fromUTF8?, dif_pos hvalid]
  rfl

namespace FileTree

variable {tree : FileTree} {place : Place} {old new : ByteArray}

/-! ### writing at a place -/

theorem lookup_map_file {entries : List (Place × Entry)} {e : Entry}
    (h : entries.lookup place = some e) :
    (entries.map fun e => if e.1 = place then (e.1, Entry.file new) else e).lookup place =
      some (.file new) := by
  induction entries with
  | nil => simp at h
  | cons x xs ih =>
    obtain ⟨key, entry⟩ := x
    by_cases hx : key = place
    · simp [hx]
    · have hne : (place == key) = false := by simpa using Ne.symm hx
      simp only [List.lookup_cons, hne] at h
      simp only [List.map_cons, hx, if_false, List.lookup_cons, hne]
      exact ih h

theorem lookup_map_of_ne {entries : List (Place × Entry)} {key : Place} (hk : key ≠ place) :
    (entries.map fun e => if e.1 = place then (e.1, Entry.file new) else e).lookup key =
      entries.lookup key := by
  induction entries with
  | nil => rfl
  | cons x xs ih =>
    obtain ⟨key', entry⟩ := x
    by_cases hx : key' = place
    · have hne : (key == key') = false := by simpa [hx] using hk
      simp only [List.map_cons, hx, if_true, List.lookup_cons, ih]
      rw [← hx, hne]
    · simp only [List.map_cons, hx, if_false, List.lookup_cons, ih]

theorem entry?_writeAt_self (h : tree.entry? place = some (.file old)) :
    entry? (tree.writeAt place new) place = some (.file new) := by
  cases place with
  | nil => cases h
  | cons name names => exact lookup_map_file h

theorem entry?_writeAt_of_ne {key : Place} (hk : key ≠ place) :
    entry? (tree.writeAt place new) key = tree.entry? key := by
  cases key with
  | nil => rfl
  | cons name names => exact lookup_map_of_ne hk

/-- **Writing a file moves no path.** -/
theorem follow_writeAt (h : tree.entry? place = some (.file old)) (here : Place)
    (names : List Text) :
    (tree.writeAt place new).follow here names = tree.follow here names := by
  induction names generalizing here with
  | nil => rfl
  | cons name names ih =>
    rw [follow, follow]
    by_cases hp : here = place
    · rw [hp, entry?_writeAt_self h, h]
    · rw [entry?_writeAt_of_ne hp]
      simp only [ih]

theorem locate_writeAt (h : tree.entry? place = some (.file old)) (path : Path) :
    (tree.writeAt place new).locate path = tree.locate path := by
  unfold locate
  rw [follow_writeAt h]
  rfl

/-! ### texts -/

theorem exists_of_read {path : Path} {bytes : ByteArray} (h : tree.read path = .ok bytes) :
    ∃ place, tree.locate path = .ok place ∧ tree.entry? place = some (.file bytes) := by
  unfold read at h
  split at h
  · cases h
  · next place hplace =>
    split at h
    · cases h
    · cases h
    · next hentry =>
      cases h
      exact ⟨place, hplace, hentry⟩

theorem read_write {path : Path} {bytes : ByteArray} (h : tree.read path = .ok bytes)
    (new : ByteArray) :
    (tree.write path new).read path = .ok new := by
  obtain ⟨place, hplace, hentry⟩ := exists_of_read h
  have hwrite : tree.write path new = tree.writeAt place new := by rw [write, hplace]
  rw [hwrite, read, locate_writeAt hentry, hplace]
  simp only [entry?_writeAt_self hentry]

theorem exists_of_readText {path : Path} {text : Text} (h : tree.readText path = .ok text) :
    (∃ bytes, tree.read path = .ok bytes) ∧ '\r' ∉ text := by
  unfold readText at h
  split at h
  · cases h
  · next bytes hbytes =>
    split at h
    · cases h
    · cases h
      exact ⟨⟨bytes, hbytes⟩, Text.not_mem_unifyLineEnds _⟩

/-- **A text without carriage returns is read back as it was written.** -/
theorem readText_writeText {path : Path} {text new : Text} (h : tree.readText path = .ok text)
    (hr : '\r' ∉ new) :
    (tree.writeText path new).readText path = .ok new := by
  obtain ⟨⟨bytes, hbytes⟩, -⟩ := exists_of_readText h
  rw [readText, writeText, read_write hbytes]
  simp only [fromUTF8?_toUTF8, String.toList_ofList, Text.unifyLineEnds_eq_self hr]

end FileTree

end SexpLayout
