import SexpLayout.Config.Json

/-!
# Which objects are configurations, and what skip counts they give

The checks of a configuration stand one behind the other, and each of them can be the last.  So what
is known of a check is said for both ends at once, with `Ends`: of the result if there is one, and
otherwise of the error.

* `Config.Valid` — the settings of an object are what they have to be;
* `ConfigError.Blames` — an error finds fault with a setting of the object, and rightly so;
  `Blames.not_valid` — an object with a fault is not valid;
* `Config.resolution` — the skip count of a symbol, from the first of four places that has one;
* `Config.ends_ofFields` — **what the checks accept is valid and resolved so**, and what they do not
  accept is at fault;
* `config_valid_and_resolved` — an object is a configuration exactly if it is valid.
-/

namespace SexpLayout

/-- A computation ends with a result for which `P` holds, or with an error for which `Q` holds. -/
def Ends {ε α : Type} (P : α → Prop) (Q : ε → Prop) : Except ε α → Prop
  | .ok a => P a
  | .error e => Q e

namespace Ends

variable {ε α β : Type} {P P' : α → Prop} {Q Q' : ε → Prop} {R : β → Prop} {x : Except ε α}
  {f : α → Except ε β}

theorem mono (h : Ends P Q x) (hok : ∀ a, P a → P' a) (herror : ∀ e, Q e → Q' e) :
    Ends P' Q' x := by
  cases x with
  | ok a => exact hok a h
  | error e => exact herror e h

theorem bind (h : Ends P Q x) (hf : ∀ a, P a → Ends R Q (f a)) : Ends R Q (x >>= f) := by
  cases x with
  | ok a => exact hf a h
  | error e => exact h

end Ends

/-! ## What an object may write -/

namespace Json

/-- A natural number.  Truth values and numbers with a fraction or an exponent are none. -/
def IsCount (value : Json) : Prop := ∃ n : Nat, value = .int n

def IsPair (value : Json) : Prop := ∃ name count, value = .arr [name, count]

/-- An object, or a list of pairs. -/
inductive IsTable : Json → Prop
  | object (fields : List (Letters × Json)) : IsTable (.obj fields)
  | list {items : List Json} (h : ∀ item ∈ items, item.IsPair) : IsTable (.arr items)

/-- A value that does not count as set, or an object of natural numbers. -/
inductive IsArities : Json → Prop
  | unset {value : Json} (h : value.isSet = false) : IsArities value
  | object {fields : List (Letters × Json)} (h : ∀ p ∈ fields, p.2.IsCount) :
      IsArities (.obj fields)

def pair? : Json → Option (Json × Json)
  | .arr [name, count] => some (name, count)
  | _ => none

/-- The names and values of a table, in order. -/
def entries : Json → List (Json × Json)
  | .obj fields => fields.map fun p => (.str p.1, p.2)
  | .arr items => items.filterMap pair?
  | _ => []

/-- The value of a field, if the value is an object that has it. -/
def member? : Json → Text → Option Json
  | .obj fields, name => field? fields name
  | _, _ => none

theorem count?_eq_some_iff {value : Json} {n : Nat} : value.count? = some n ↔ value = .int n := by
  fun_cases count? value with
  | case1 m =>
    rw [Option.some.injEq, int.injEq]
    exact Int.ofNat_inj.symm
  | case2 _ h => exact ⟨nofun, fun hv => absurd hv (h n)⟩

theorem count?_eq_none_iff {value : Json} : value.count? = none ↔ ¬ value.IsCount := by
  simp [IsCount, ← count?_eq_some_iff, Option.eq_none_iff_forall_ne_some]

theorem isCount_of_count? {value : Json} {n : Nat} (h : value.count? = some n) : value.IsCount :=
  ⟨n, count?_eq_some_iff.1 h⟩

instance (value : Json) : Decidable value.IsCount :=
  match h : value.count? with
  | some _ => isTrue (isCount_of_count? h)
  | none => isFalse (count?_eq_none_iff.1 h)

end Json

namespace Config

variable (fields : List (Letters × Json))

abbrev setting? (name : String) : Option Json := Json.field? fields (Text.ofString name)

def skipEntries : List (Json × Json) := ((setting? fields "skip_table").map Json.entries).getD []

/-- The settings of an object are what they have to be. -/
structure Valid : Prop where
  table : ∀ value ∈ setting? fields "skip_table", value.IsTable
  counts : ∀ p ∈ skipEntries fields, p.2.IsCount
  arity : ∀ value ∈ setting? fields "arity", value.IsArities
  threshold : ∀ value ∈ setting? fields "newline_threshold", value.IsCount
  width : ∀ value ∈ setting? fields "indent_width", value.IsCount

/-- The skip count of a symbol: the first written entry with its name, or else the usual entry if
the table is not replaced, or else the written arity, or else the usual one. -/
def resolution (symbol : Text) : Option Int :=
  let entry := (skipEntries fields).find? fun p => p.1.asName == Letters.ofText symbol
  let usual :=
    if (setting? fields "replace_skip_table").any Json.isSet then none
      else SkipTable.standard.lookup symbol
  let arity := (setting? fields "arity").bind fun value => value.member? symbol
  let count := (entry.bind fun p => p.2.count?).or (usual.or (arity.bind Json.count?))
  (count.map fun n : Nat => (n : Int)).or (Arity.standard symbol)

end Config

/-- The error finds fault with a setting that the object writes, and rightly so. -/
def ConfigError.Blames (fields : List (Letters × Json)) : ConfigError → Prop
  | notObject _ => False
  | tableShape =>
    ∃ value ∈ Config.setting? fields "skip_table", (∀ fs, value ≠ .obj fs) ∧
      ∀ items, value ≠ .arr items
  | entryShape item =>
    ∃ items, Json.arr items ∈ Config.setting? fields "skip_table" ∧ item ∈ items ∧ ¬ item.IsPair
  | skipCount name got => (name, got) ∈ Config.skipEntries fields ∧ ¬ got.IsCount
  | arityShape =>
    ∃ value ∈ Config.setting? fields "arity", value.isSet = true ∧ ∀ fs, value ≠ .obj fs
  | arityCount name got =>
    ∃ fs, Json.obj fs ∈ Config.setting? fields "arity" ∧ (name, got) ∈ fs ∧ ¬ got.IsCount
  | setting name got =>
    name ∈ ["newline_threshold", "indent_width"] ∧ got ∈ Config.setting? fields name ∧ ¬ got.IsCount

theorem ConfigError.Blames.not_valid {fields : List (Letters × Json)} {e : ConfigError}
    (h : e.Blames fields) :
    ¬ Config.Valid fields := by
  intro hvalid
  cases e with
  | notObject got => exact h
  | tableShape =>
    obtain ⟨value, hvalue, hobj, harr⟩ := h
    cases hvalid.table value hvalue with
    | object fs => exact hobj fs rfl
    | list => exact harr _ rfl
  | entryShape item =>
    obtain ⟨items, hvalue, hitem, hpair⟩ := h
    cases hvalid.table _ hvalue with
    | list hpairs => exact hpair (hpairs item hitem)
  | skipCount name got => exact h.2 (hvalid.counts _ h.1)
  | arityShape =>
    obtain ⟨value, hvalue, hset, hobj⟩ := h
    cases hvalid.arity value hvalue with
    | unset hunset => simp [hunset] at hset
    | object => exact hobj _ rfl
  | arityCount name got =>
    obtain ⟨fs, hvalue, hmem, hcount⟩ := h
    cases hvalid.arity _ hvalue with
    | unset hunset =>
      -- an object with a field counts as set
      cases fs with
      | nil => simp at hmem
      | cons => simp [Json.isSet] at hunset
    | object hcounts => exact hcount (hcounts _ hmem)
  | setting name got =>
    obtain ⟨hname, hvalue, hcount⟩ := h
    obtain rfl | rfl : name = "newline_threshold" ∨ name = "indent_width" := by simpa using hname
    · exact hcount (hvalid.threshold got hvalue)
    · exact hcount (hvalid.width got hvalue)

/-! ## The skip table -/

namespace SkipTable

theorem lookup_append (xs ys : List SkipEntry) (symbol : Text) :
    lookup ⟨xs ++ ys⟩ symbol = (lookup ⟨xs⟩ symbol).or (lookup ⟨ys⟩ symbol) := by
  simp only [lookup, List.find?_append, Option.map_or]

theorem ends_pairsOfItems (items : List Json) :
    Ends (fun pairs => (∀ item ∈ items, item.IsPair) ∧ pairs = items.filterMap Json.pair?)
      (fun e => ∃ item ∈ items, ¬ item.IsPair ∧ e = .entryShape item) (pairsOfItems items) := by
  fun_induction pairsOfItems items with
  | case1 => simp [Ends]
  | case2 name count items ih =>
    refine (ih.mono (fun _ h => h) ?_).bind ?_
    · rintro e ⟨item, hitem, he⟩
      exact ⟨item, List.mem_cons_of_mem _ hitem, he⟩
    · rintro pairs ⟨hpairs, rfl⟩
      exact ⟨List.forall_mem_cons.2 ⟨⟨name, count, rfl⟩, hpairs⟩, rfl⟩
  | case3 item items hne =>
    refine ⟨item, List.mem_cons_self, ?_, rfl⟩
    rintro ⟨name, count, rfl⟩
    exact hne name count rfl

theorem ends_pairsOfJson (value : Json) :
    Ends (fun pairs => value.IsTable ∧ pairs = value.entries)
      (fun e => (e = .tableShape ∧ (∀ fs, value ≠ .obj fs) ∧ ∀ items, value ≠ .arr items) ∨
        ∃ items item, value = .arr items ∧ item ∈ items ∧ ¬ item.IsPair ∧ e = .entryShape item)
      (pairsOfJson value) := by
  fun_cases pairsOfJson value with
  | case1 fields => exact ⟨.object fields, rfl⟩
  | case2 items =>
    refine (ends_pairsOfItems items).mono ?_ ?_
    · rintro pairs ⟨hpairs, heq⟩
      exact ⟨.list hpairs, heq⟩
    · rintro e ⟨item, hitem, hpair, he⟩
      exact .inr ⟨items, item, rfl, hitem, hpair, he⟩
  | case3 _ hobj harr => exact .inl ⟨rfl, hobj, harr⟩

theorem ends_ofPairs (pairs : List (Json × Json)) :
    Ends (fun table => (∀ p ∈ pairs, p.2.IsCount) ∧
        ∀ symbol, table.lookup symbol =
          (pairs.find? fun p => p.1.asName == Letters.ofText symbol).bind fun p => p.2.count?)
      (fun e => ∃ p ∈ pairs, ¬ p.2.IsCount ∧ e = .skipCount p.1 p.2) (ofPairs pairs) := by
  fun_induction ofPairs pairs with
  | case1 => exact ⟨by simp, fun symbol => rfl⟩
  | case2 name count pairs hnone =>
    exact ⟨_, List.mem_cons_self, Json.count?_eq_none_iff.1 hnone, rfl⟩
  | case3 name count pairs n hn ih =>
    refine (ih.mono (fun _ h => h) ?_).bind ?_
    · rintro e ⟨p, hp, he⟩
      exact ⟨p, List.mem_cons_of_mem _ hp, he⟩
    · rintro table ⟨hcounts, hlookup⟩
      refine ⟨List.forall_mem_cons.2 ⟨Json.isCount_of_count? hn, hcounts⟩, fun symbol => ?_⟩
      rw [← List.singleton_append, lookup_append, hlookup]
      cases hname : name.asName == Letters.ofText symbol <;> simp [lookup, hname, hn]

end SkipTable

/-! ## The arities -/

namespace Arity

theorem ofCounts_cons (name : Text) (n : Nat) (counts : List (Text × Nat)) (symbol : Text) :
    ofCounts ((name, n) :: counts) symbol =
      if name = symbol then some (n : Int) else ofCounts counts symbol := by
  by_cases h : name = symbol <;> simp [ofCounts, h]

theorem ofCounts_nonneg {counts : List (Text × Nat)} {symbol : Text} {n : Int}
    (h : ofCounts counts symbol = some n) :
    0 ≤ n := by
  obtain ⟨p, -, rfl⟩ := Option.map_eq_some_iff.1 h
  exact Int.natCast_nonneg p.2

/-- The arities of an object are those of its fields; a field whose name is not a text is no
symbol's. -/
theorem ends_countsOfFields (fields : List (Letters × Json)) :
    Ends (fun counts => (∀ p ∈ fields, p.2.IsCount) ∧ ∀ symbol,
        ofCounts counts symbol =
          ((Json.field? fields symbol).bind Json.count?).map fun n : Nat => (n : Int))
      (fun e => ∃ p ∈ fields, ¬ p.2.IsCount ∧ e = .arityCount p.1 p.2) (countsOfFields fields) := by
  fun_induction countsOfFields fields with
  | case1 => exact ⟨by simp, fun symbol => rfl⟩
  | case2 name value fields hnone =>
    exact ⟨_, List.mem_cons_self, Json.count?_eq_none_iff.1 hnone, rfl⟩
  | case3 name value fields n hn ih =>
    refine (ih.mono (fun _ h => h) ?_).bind ?_
    · rintro e ⟨p, hp, he⟩
      exact ⟨p, List.mem_cons_of_mem _ hp, he⟩
    rintro counts ⟨hcounts, harity⟩
    have hall : ∀ p ∈ (name, value) :: fields, p.2.IsCount :=
      List.forall_mem_cons.2 ⟨Json.isCount_of_count? hn, hcounts⟩
    split
    · next text htext =>
      refine ⟨hall, fun symbol => ?_⟩
      obtain rfl := Letters.text?_eq_some_iff.1 htext
      rw [ofCounts_cons, Json.field?_cons, harity]
      by_cases h : text = symbol <;> simp [h, hn, Letters.ofText_inj]
    · next htext =>
      refine ⟨hall, fun symbol => ?_⟩
      have hname : name ≠ Letters.ofText symbol := fun h => by
        simp [Letters.text?_eq_some_iff.2 h] at htext
      rw [harity, Json.field?_cons, if_neg hname]

theorem ends_ofJson (value : Json) :
    Ends (fun arity => value.IsArities ∧ ∀ symbol,
        arity symbol =
          (((value.member? symbol).bind Json.count?).map fun n : Nat => (n : Int)).or
          (standard symbol))
      (fun e => (e = .arityShape ∧ value.isSet = true ∧ ∀ fs, value ≠ .obj fs) ∨
        ∃ fs p, value = .obj fs ∧ p ∈ fs ∧ ¬ p.2.IsCount ∧ e = .arityCount p.1 p.2)
      (ofJson value) := by
  fun_cases ofJson value with
  | case1 _ hunset =>
    have hunset : value.isSet = false := by simpa using hunset
    refine ⟨.unset hunset, fun symbol => ?_⟩
    -- only an object has members, and one that is not set has no fields
    have hmember : value.member? symbol = none := by
      cases value with
      | obj fields =>
        obtain rfl : fields = [] := by simpa [Json.isSet] using hunset
        rfl
      | _ => rfl
    simp [hmember]
  | case2 fields =>
    refine ((ends_countsOfFields fields).mono (fun _ h => h) ?_).bind ?_
    · rintro e ⟨p, hp, hcount, he⟩
      exact .inr ⟨fields, p, rfl, hp, hcount, he⟩
    · rintro counts ⟨hcounts, harity⟩
      refine ⟨.object hcounts, fun symbol => ?_⟩
      rw [orElse, harity]
      rfl
  | case3 _ hset hobj => exact .inl ⟨rfl, by simpa using hset, hobj⟩

end Arity

/-! ## The whole configuration -/

theorem skipCount_eq_or (table : SkipTable) (arity : Arity) (symbol : Text) :
    skipCount table arity symbol =
      ((table.lookup symbol).map fun n : Nat => (n : Int)).or (arity symbol) := by
  unfold skipCount
  cases table.lookup symbol <;> rfl

namespace Config

variable {fields : List (Letters × Json)}

theorem resolution_nonneg {symbol : Text} {n : Int} (h : resolution fields symbol = some n) :
    0 ≤ n := by
  obtain hcount | ⟨-, hstandard⟩ := Option.or_eq_some_iff.1 h
  · obtain ⟨m, -, rfl⟩ := Option.map_eq_some_iff.1 hcount
    exact Int.natCast_nonneg m
  · exact Arity.ofCounts_nonneg hstandard

theorem flagSetting_eq_any (fields : List (Letters × Json)) (name : String) :
    flagSetting fields name = (setting? fields name).any Json.isSet := by
  unfold flagSetting setting?
  cases Json.field? fields (Text.ofString name) <;> rfl

variable (fields)

theorem ends_table :
    Ends (fun pairs => (∀ value ∈ setting? fields "skip_table", value.IsTable) ∧
      pairs = skipEntries fields)
      (ConfigError.Blames fields)
        (SkipTable.pairsOfJson ((setting? fields "skip_table").getD (.arr []))) := by
  cases h : setting? fields "skip_table" with
  | none => simp [Ends, SkipTable.pairsOfJson, SkipTable.pairsOfItems, skipEntries, h]
  | some value =>
    refine (SkipTable.ends_pairsOfJson value).mono ?_ ?_
    · rintro pairs ⟨htable, rfl⟩
      simpa [skipEntries, h] using htable
    · rintro e (⟨rfl, hobj, harr⟩ | ⟨items, item, rfl, hitem, hpair, rfl⟩)
      · exact ⟨value, h, hobj, harr⟩
      · exact ⟨items, h, hitem, hpair⟩

theorem ends_arity :
    Ends (fun arity => (∀ value ∈ setting? fields "arity", value.IsArities) ∧
        ∀ symbol, arity symbol =
          ((((setting? fields "arity").bind fun value => value.member? symbol).bind Json.count?).map
            fun n : Nat => (n : Int)).or (Arity.standard symbol))
      (ConfigError.Blames fields) (Arity.ofJson ((setting? fields "arity").getD .null)) := by
  cases h : setting? fields "arity" with
  | none => simp [Ends, Arity.ofJson, Json.isSet]
  | some value =>
    refine (Arity.ends_ofJson value).mono ?_ ?_
    · rintro arity ⟨hshape, harity⟩
      exact ⟨by simpa using hshape, harity⟩
    · rintro e (⟨rfl, hset, hobj⟩ | ⟨fs, p, rfl, hp, hcount, rfl⟩)
      · exact ⟨value, h, hset, hobj⟩
      · exact ⟨fs, h, hp, hcount⟩

theorem ends_countSetting {name : String} (hname : name ∈ ["newline_threshold", "indent_width"])
    (usual : Nat) :
    Ends (fun _ => ∀ value ∈ setting? fields name, value.IsCount) (ConfigError.Blames fields)
      (countSetting fields name usual) := by
  unfold countSetting
  split
  · next hnone =>
    simp [Ends, hnone]
  · next value hvalue =>
    cases hcount : value.count? with
    | none => exact ⟨hname, hvalue, Json.count?_eq_none_iff.1 hcount⟩
    | some n =>
      intro v hv
      obtain rfl : value = v := Option.some.inj (hvalue.symm.trans hv)
      exact Json.isCount_of_count? hcount

theorem ends_entries :
    Ends (fun table => (∀ p ∈ skipEntries fields, p.2.IsCount) ∧
        ∀ symbol, table.lookup symbol =
          ((skipEntries fields).find? fun p => p.1.asName == Letters.ofText symbol).bind
            fun p => p.2.count?)
      (ConfigError.Blames fields) (SkipTable.ofPairs (skipEntries fields)) := by
  refine (SkipTable.ends_ofPairs _).mono (fun _ h => h) ?_
  rintro e ⟨p, hp, hcount, rfl⟩
  exact ⟨hp, hcount⟩

/-- **The checks of a configuration.**  What they accept is valid and resolved, and what they do not
is at fault. -/
theorem ends_ofFields :
    Ends (fun config => Valid fields ∧ ∀ symbol,
        skipCount config.skipTable config.arity symbol = resolution fields symbol)
      (ConfigError.Blames fields) (ofFields fields) := by
  refine (ends_table fields).bind ?_
  rintro _ ⟨htable, rfl⟩
  refine (ends_arity fields).bind ?_
  rintro arity ⟨hshape, harity⟩
  refine (ends_countSetting fields (by simp) _).bind fun threshold hthreshold => ?_
  refine (ends_countSetting fields (by simp) _).bind fun width hwidth => ?_
  refine (ends_entries fields).bind ?_
  rintro table ⟨hcounts, hlookup⟩
  refine ⟨⟨htable, hcounts, hshape, hthreshold, hwidth⟩, fun symbol => ?_⟩
  have hkept : SkipTable.lookup (if flagSetting fields "replace_skip_table" then table
      else ⟨table.entries ++ SkipTable.standard.entries⟩) symbol =
      (table.lookup symbol).or (if (setting? fields "replace_skip_table").any Json.isSet then none
        else SkipTable.standard.lookup symbol) := by
    rw [flagSetting_eq_any]
    split
    · simp
    · exact SkipTable.lookup_append ..
  rw [skipCount_eq_or, hkept, hlookup]
  simp only [harity, resolution, Option.map_or, Option.or_assoc]

end Config

/-- **Which objects are configurations, and what their skip counts are.**  An object is a
configuration exactly if its settings are valid, and otherwise there is an error that finds fault
with one of them.  The skip count of a symbol is that of the first written entry with its name, or
else the usual one if the table is kept, or else the written arity, or else the usual one; it is
never negative. -/
theorem config_valid_and_resolved (fields : List (Letters × Json)) :
    ((∃ config, Config.ofJson (.obj fields) = .ok config) ↔ Config.Valid fields) ∧
      (¬ Config.Valid fields → ∃ e, Config.ofJson (.obj fields) = .error e ∧ e.Blames fields) ∧
      ∀ config, Config.ofJson (.obj fields) = .ok config → ∀ symbol,
        skipCount config.skipTable config.arity symbol = Config.resolution fields symbol ∧
          ∀ n, skipCount config.skipTable config.arity symbol = some n → 0 ≤ n := by
  have hends := Config.ends_ofFields fields
  rw [Config.ofJson]
  cases h : Config.ofFields fields with
  | ok config =>
    rw [h] at hends
    obtain ⟨hvalid, hresolved⟩ := hends
    refine ⟨⟨fun _ => hvalid, fun _ => ⟨config, rfl⟩⟩, fun hnot => absurd hvalid hnot, ?_⟩
    rintro _ ⟨⟩ symbol
    rw [hresolved symbol]
    exact ⟨rfl, fun n hn => Config.resolution_nonneg hn⟩
  | error e =>
    rw [h] at hends
    have hnot := ConfigError.Blames.not_valid hends
    exact ⟨⟨nofun, fun hvalid => absurd hvalid hnot⟩, fun _ => ⟨e, rfl, hends⟩, nofun⟩

/-- A name that is not a string, a name twice, a name that is not a text, and arities.  Then a count
that is a truth value. -/
theorem config_valid_and_resolved_names :
    (∃ fields config,
      fields =
        [(Letters.ofText "skip_table".toList,
            .arr [.arr [.null, .int 3], .arr [.str ['n', 'o', 't'], .int 0],
              .arr [.str ['n', 'o', 't'], .int 7], .arr [.str [.half 0xD800], .int 5]]),
          (Letters.ofText "arity".toList,
            .obj [(['f'], .int 4), (Letters.ofText "None".toList, .int 9)])] ∧
        Config.ofJson (.obj fields) = .ok config ∧
        ["None", "not", "when", "f", "prog2", "\uFFFD"].map
            (fun s => skipCount config.skipTable config.arity s.toList) =
          [some 3, some 0, some 1, some 4, some 2, none] ∧
        ∃ n, skipCount config.skipTable config.arity ['f'] = some n ∧ 0 ≤ n) ∧
    ∃ e, Config.ofJson (.obj [(Letters.ofText "skip_table".toList, .obj [(['f'], .bool true)])]) =
      .error e ∧ e.Blames [(Letters.ofText "skip_table".toList, .obj [(['f'], .bool true)])] := by
  constructor
  · obtain ⟨fields, hfields⟩ : ∃ fields : List (Letters × Json),
        fields = [(Letters.ofText "skip_table".toList,
          .arr [.arr [.null, .int 3], .arr [.str ['n', 'o', 't'], .int 0],
            .arr [.str ['n', 'o', 't'], .int 7], .arr [.str [.half 0xD800], .int 5]]),
          (Letters.ofText "arity".toList,
            .obj [(['f'], .int 4), (Letters.ofText "None".toList, .int 9)])] := ⟨_, rfl⟩
    have hvalid : Config.Valid fields := by
      subst hfields
      refine ⟨?_, ?_, ?_, nofun, nofun⟩
      · rintro _ ⟨⟩
        exact .list (by simp [Json.IsPair])
      · decide +kernel
      · rintro _ ⟨⟩
        exact .object (by decide +kernel)
    obtain ⟨hok, -, hresolved⟩ := config_valid_and_resolved fields
    obtain ⟨config, hconfig⟩ := hok.2 hvalid
    have hcount : ∀ symbol, skipCount config.skipTable config.arity symbol =
        Config.resolution fields symbol :=
      fun symbol => (hresolved config hconfig symbol).1
    have hf : skipCount config.skipTable config.arity ['f'] = some 4 := by
      rw [hcount, hfields]
      decide +kernel
    refine ⟨fields, config, hfields, hconfig, ?_, 4, hf, (hresolved config hconfig _).2 4 hf⟩
    simp only [hcount, hfields]
    decide +kernel
  · refine (config_valid_and_resolved _).2.1 fun hvalid => ?_
    obtain ⟨n, hn⟩ := hvalid.counts (.str ['f'], .bool true) (List.mem_singleton.2 rfl)
    cases hn

end SexpLayout
