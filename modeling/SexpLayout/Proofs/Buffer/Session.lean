import SexpLayout.Proofs.Buffer.Selection
import SexpLayout.Proofs.Format.Ink

/-!
# Editing sessions

The commands that lay lists out replace a region of the buffer by a text with the same ink, and the
point is found again by the ink before it.

* `SameCode` — two buffers hold the same non-blank characters, and as many of them stand before the
  point;
* `Tracks` — how the point moves: with the character before it if this is not blank, and else to the
  next non-blank character;
* `Stages`, `stages_perform` — a command fails before it has assigned anything, or replaces one
  region;
* `exists_replace`, `perform_keeps_code` — what a replacement and a command keep;
* `step_eq_self_of_error` — a command that fails keeps the buffer;
* `session_keeps_code` — what a whole session keeps.
-/

namespace SexpLayout

/-! ### parts of a text -/

namespace Text

theorem getLast?_nonBlank {t : Text} {c : Char} (h : t.getLast? = some c) (hc : isBlank c = false) :
    t.nonBlank.getLast? = some c := by
  obtain ⟨s, rfl⟩ := List.getLast?_eq_some_iff.1 h
  simp [nonBlank, hc]

end Text

/-! ### spans -/

theorem Forms.le_of_mem_spansOf {src : Text} {spans : List (Nat × Nat)}
    (h : Forms.spansOf src = .ok spans) {s : Nat × Nat} (hs : s ∈ spans) : s.1 ≤ s.2 := by
  obtain ⟨f, tail, hf, rfl, -⟩ := Forms.exists_of_spansOf h
  obtain ⟨-, hb, -, -, hp⟩ := Forms.ofText_eq_ok_iff.1 hf
  rw [← Forms.placed_eq_self hb hp] at hs
  have hbounds := Forms.bounds_of_mem_spans_placed hb hs
  omega

namespace Buffer

theorem enclosingList_le {text : Text} {point : Int} {span : Span}
    (h : enclosingList text point = .ok span) :
    span.1 ≤ span.2 := by
  unfold enclosingList at h
  split at h
  · cases h
  · next spans hspans =>
    split at h
    · next s hs =>
      obtain rfl : s = span := Except.ok.inj h
      exact Forms.le_of_mem_spansOf hspans (List.mem_of_mem_filter (List.mem_of_getLast? hs))
    · cases h

theorem topLevelForm_le {text : Text} {point : Int} {span : Span}
    (h : topLevelForm text point = .ok span) :
    span.1 ≤ span.2 := by
  unfold topLevelForm at h
  split at h
  · cases h
  · next p hp =>
    split at h
    · next l hl =>
      obtain rfl : (l.start, l.stop) = span := Except.ok.inj h
      obtain ⟨-, -, -, -, -, hplaced⟩ := Passage.reading_of_ofDocument hp
      have hmem := List.mem_of_find?_eq_some hl
      rw [← hplaced] at hmem
      rw [Lexeme.stop_of_mem_placed hmem]
      exact Nat.le_add_right ..
    · cases h

/-! ### anchors -/

/-- **Where an anchor is found**: the text is cut into two parts, the first one with as much ink as
the anchor counts.  The first part ends with ink if the anchor sticks, and else the second one
starts with ink. -/
theorem Anchor.exists_offsetFrom (sticks : Bool) (offset : Nat) {ink : Nat} {t : Text}
    (hink : ink ≤ t.ink) (hs : sticks = true → 0 < ink) :
    ∃ s r, t = s ++ r ∧ offsetFrom sticks offset ink t = offset + s.length ∧ s.ink = ink ∧
      (sticks = true → ∃ c ∈ s.getLast?, isBlank c = false) ∧
      (sticks = false → ∀ c ∈ r.head?, isBlank c = false) := by
  -- a part found behind a character is one in front of which the character stands
  have cons : ∀ (c : Char) {s : Text}, (sticks = true → ∃ d ∈ s.getLast?, isBlank d = false) →
      sticks = true → ∃ d ∈ (c :: s).getLast?, isBlank d = false := by
    intro c s h hsticks
    obtain ⟨d, hd, hb⟩ := h hsticks
    exact ⟨d, by rw [List.getLast?_cons, Option.mem_def.1 hd]; rfl, hb⟩
  fun_induction offsetFrom sticks offset ink t with
  | case1 ink offset =>
    obtain rfl : ink = 0 := by simpa using hink
    exact ⟨[], [], rfl, rfl, rfl, fun h => absurd (hs h) (by omega), by simp⟩
  | case2 offset ink c cs hc ih =>
    have hskip : ∀ u : Text, Text.ink (c :: u) = u.ink :=
      fun u => by simp [Text.ink, Text.nonBlank, hc]
    obtain ⟨s, r, rfl, he, hi, hlast, hhead⟩ := ih (hskip _ ▸ hink) hs
    exact ⟨c :: s, r, rfl, by simp only [he, List.length_cons]; omega, hskip s ▸ hi,
      cons c hlast, hhead⟩
  | case3 offset c cs hc hsticks ih => exact absurd (hs hsticks) (by omega)
  | case4 offset c cs hc hsticks =>
    refine ⟨[], c :: cs, rfl, rfl, rfl, fun h => absurd h hsticks, fun _ d hd => ?_⟩
    obtain rfl : c = d := Option.some.inj hd
    simpa using hc
  | case5 offset ink c cs hc hne hone =>
    obtain ⟨rfl, hsticks⟩ : ink = 1 ∧ sticks = true := by simpa using hone
    exact ⟨[c], cs, rfl, rfl, by simp [Text.ink, Text.nonBlank, hc],
      fun _ => ⟨c, rfl, by simpa using hc⟩, by simp [hsticks]⟩
  | case6 offset ink c cs hc hne hone ih =>
    have hcount : ∀ u : Text, Text.ink (c :: u) = u.ink + 1 :=
      fun u => by simp [Text.ink, Text.nonBlank, hc]
    have hpos : sticks = true → 0 < ink - 1 := by
      intro h
      have : ink ≠ 1 := fun e => hone (by simp [e, h])
      omega
    rw [hcount] at hink
    obtain ⟨s, r, rfl, he, hi, hlast, hhead⟩ := ih (by omega) hpos
    exact ⟨c :: s, r, rfl, by simp only [he, List.length_cons]; omega, by rw [hcount]; omega,
      cons c hlast, hhead⟩

/-! ### what a replacement keeps -/

def InText (b : Buffer) : Prop := 0 ≤ b.point ∧ b.point ≤ b.text.length

/-- The second buffer has the code of the first one, its point is in the text, and as much code
stands before it. -/
structure SameCode (b b' : Buffer) : Prop where
  code : b'.text.nonBlank = b.text.nonBlank
  inText : b'.InText
  ink : (b'.text.before b'.point).ink = (b.text.before b.point).ink

/-- The point has moved with the code: a non-blank character before it stays before it; behind a
blank, the point goes on to a non-blank character or to the end. -/
structure Tracks (b b' : Buffer) : Prop where
  behind : ∀ c ∈ (b.text.before b.point).getLast?, isBlank c = false →
    c ∈ (b'.text.before b'.point).getLast?
  ahead : (∀ c ∈ (b.text.before b.point).getLast?, isBlank c = true) →
    ∀ c ∈ (b'.text.since b'.point).head?, isBlank c = false

theorem SameCode.refl {b : Buffer} (h : b.InText) : SameCode b b := ⟨rfl, h, rfl⟩

theorem SameCode.trans {b₁ b₂ b₃ : Buffer} (h₁ : SameCode b₁ b₂) (h₂ : SameCode b₂ b₃) :
    SameCode b₁ b₃ :=
  ⟨h₂.code.trans h₁.code, h₂.inText, h₂.ink.trans h₁.ink⟩

theorem anchor?_eq_some {b : Buffer} (h : b.InText) :
    b.anchor? = some
      ⟨(b.text.before b.point).ink, (b.text.before b.point).getLast?.any fun c => !isBlank c⟩ := by
  rw [anchor?, if_neg (by have := h.2; omega)]
  by_cases hpoint : 0 < b.point
  · simp [hpoint]
  · -- at the start of the text there is no character before the point
    have hnil : b.text.before b.point = [] := by
      have : b.point = 0 := by have := h.1; omega
      simp [Text.before, Text.position, this]
    simp [hpoint, hnil]

theorem on_get_bind {α : Type} (f : Buffer → Edit α) (b : Buffer) : (get >>= f).on b = (f b).on b :=
  rfl

theorem on_replaceRegion (b : Buffer) (start stop : Int) (new : Text) :
    (replaceRegion start stop new).on b = match b.anchor? with
      | none => (.error .pointOutside, b)
      | some a =>
        (.ok (), ⟨b.text.before start ++ new ++ b.text.since stop,
          a.offset (b.text.before start ++ new ++ b.text.since stop)⟩) := by
  rw [replaceRegion, on_get_bind]
  cases b.anchor? <;> rfl

/-- **A region replaced by a text with its ink** leaves the code as it is, and the point follows
it. -/
theorem exists_replace {b : Buffer} (h : b.InText) {start stop : Int} {new : Text}
    (hnew : (b.text.before start ++ new ++ b.text.since stop).nonBlank = b.text.nonBlank) :
    ∃ b', (replaceRegion start stop new).on b = (.ok (), b') ∧ SameCode b b' ∧ Tracks b b' := by
  have hcut := congrArg Text.nonBlank (Text.before_append_since b.text b.point)
  rw [Text.nonBlank_append] at hcut
  have hink : (b.text.before b.point).ink ≤
      (b.text.before start ++ new ++ b.text.since stop).ink := by
    rw [Text.ink, Text.ink, hnew, ← hcut, List.length_append]
    omega
  have hsticks : ((b.text.before b.point).getLast?.any fun c => !isBlank c) = true →
      0 < (b.text.before b.point).ink := by
    intro hany
    obtain ⟨c, hc, hb⟩ := (Option.any_eq_true ..).1 hany
    have hlast := Text.getLast?_nonBlank hc (by simpa using hb)
    exact List.length_pos_of_mem (List.mem_of_getLast? hlast)
  obtain ⟨s, r, htext, hoffset, hs, hbehind, hahead⟩ := Anchor.exists_offsetFrom _ 0 hink hsticks
  have hin : InText ⟨s ++ r, s.length⟩ := ⟨Int.natCast_nonneg _, Int.ofNat_le.2 (by simp)⟩
  refine ⟨⟨s ++ r, s.length⟩, ?_, ⟨htext ▸ hnew, hin, ?_⟩, ?_, ?_⟩
  · rw [Nat.zero_add, htext] at hoffset
    simp only [on_replaceRegion, anchor?_eq_some h, Anchor.offset, htext, hoffset]
  · rw [Text.before_append, hs]
  · -- the two parts before the point have the same ink, so they end with the same character
    intro c hc hb
    have hpre : s.nonBlank = (b.text.before b.point).nonBlank := by
      rw [htext, ← hcut, Text.nonBlank_append] at hnew
      exact (List.append_inj hnew hs).1
    obtain ⟨d, hd, hdb⟩ := hbehind (by rw [Option.mem_def.1 hc]; simp [hb])
    have hlast := Text.getLast?_nonBlank hd hdb
    rw [hpre, Text.getLast?_nonBlank hc hb] at hlast
    rw [Text.before_append]
    exact hd.trans hlast.symm
  · intro hblank
    rw [Text.since_append]
    refine hahead ((Option.any_eq_false ..).2 fun c hc => ?_)
    simpa using hblank c hc

/-! ### commands -/

/-- What a command that lays lists out does to a buffer: it fails while it stages the new text, and
has assigned nothing then, or it replaces a region by a text with the same ink. -/
inductive Stages (b : Buffer) : Except CommandError Unit × Buffer → Prop
  | fails {e : CommandError} (he : e ≠ .pointOutside) : Stages b (.error e, b)
  | replaces {start stop : Int} {new : Text}
      (hnew : (b.text.before start ++ new ++ b.text.since stop).nonBlank = b.text.nonBlank) :
      Stages b ((replaceRegion start stop new).on b)

theorem Stages.bind {α : Type} {b : Buffer} {x : Except CommandError α} {f : α → Edit Unit}
    (hx : x ≠ .error .pointOutside) (hf : ∀ a, x = .ok a → Stages b ((f a).on b)) :
    Stages b ((liftM x >>= f).on b) := by
  cases x with
  | ok a => exact hf a rfl
  | error e => exact .fails fun he => hx (he ▸ rfl)

theorem on_formatSpan (config : Config) (mode : Mode) (deep : Bool) (span : Span) (b : Buffer) :
    (formatSpan config mode deep span).on b =
      match (formatAt config mode deep (b.text.columnAt span.1)
          (b.text.slice span.1 span.2)).outcome with
      | .error e => (.error (.read e), b)
      | .ok new => (replaceRegion span.1 span.2 new).on b := by
  rw [formatSpan, on_get_bind]
  dsimp only
  cases (formatAt config mode deep (b.text.columnAt span.1)
    (b.text.slice span.1 span.2)).outcome <;> rfl

theorem on_formatAll (config : Config) (b : Buffer) :
    (formatAll config).on b = match (formatText config .multiLine b.text).outcome with
      | .error e => (.error (.read e), b)
      | .ok new => (replaceRegion 0 b.text.length new).on b := by
  rw [formatAll, on_get_bind]
  dsimp only
  cases (formatText config .multiLine b.text).outcome <;> rfl

theorem stages_formatSpan {b : Buffer} (config : Config) (mode : Mode) (deep : Bool) {span : Span}
    (hspan : span.1 ≤ span.2) : Stages b ((formatSpan config mode deep span).on b) := by
  rw [on_formatSpan]
  split
  · exact .fails (by simp)
  · next new hnew =>
    refine .replaces ?_
    rw [Text.nonBlank_append, Text.nonBlank_append, nonBlank_formatAt hnew, ← Text.nonBlank_append,
      ← Text.nonBlank_append, Text.before_slice_since _ hspan]

theorem stages_formatAll {b : Buffer} (config : Config) : Stages b ((formatAll config).on b) := by
  rw [on_formatAll]
  split
  · exact .fails (by simp)
  · next new hnew =>
    refine .replaces ?_
    have hbefore : b.text.before 0 = [] := by simp [Text.before, Text.position]
    have hsince : b.text.since b.text.length = [] := by
      rw [Text.since, Text.position_natCast (Nat.le_refl _), List.drop_length]
    rw [hbefore, hsince, List.append_nil, List.nil_append, nonBlank_formatText hnew]

theorem valid_ne_pointOutside (config : Except ConfigError Config) :
    valid config ≠ .error .pointOutside := by
  cases config <;> simp [valid]

theorem enclosingList_ne_pointOutside (text : Text) (point : Int) :
    enclosingList text point ≠ .error .pointOutside := by
  unfold enclosingList
  split
  · simp
  · split <;> simp

theorem topLevelForm_ne_pointOutside (text : Text) (point : Int) :
    topLevelForm text point ≠ .error .pointOutside := by
  unfold topLevelForm
  split
  · simp
  · split <;> simp

/-- The commands for a single list differ in how they choose it and in how they lay it out. -/
theorem stages_formatChosen (b : Buffer) (config : Config) (mode : Mode) (deep : Bool)
    {choose : Text → Int → Except CommandError Span}
    (hne : ∀ text point, choose text point ≠ .error .pointOutside)
    (hle : ∀ {text point span}, choose text point = .ok span → span.1 ≤ span.2) :
    Stages b (Edit.on (do
      let b ← get
      formatSpan config mode deep (← choose b.text b.point)) b) := by
  rw [on_get_bind]
  refine .bind (hne _ _) fun span hspan => ?_
  exact stages_formatSpan config mode deep (hle hspan)

/-- The commands that lay lists out; the others are edits by hand. -/
def Command.laysOut : Command → Bool
  | .formatBuffer | .formatCurrentForm | .expand | .collapse _ => true
  | .replace .. | .goto _ => false

/-- **How a command goes that lays lists out**: all that can fail comes before the buffer is
touched. -/
theorem stages_perform (b : Buffer) (config : Except ConfigError Config) {command : Command}
    (hc : command.laysOut = true) : Stages b ((perform config command).on b) := by
  have hvalid := valid_ne_pointOutside config
  cases command with
  | formatBuffer => exact .bind hvalid fun config _ => stages_formatAll config
  | formatCurrentForm =>
    refine .bind hvalid fun config _ => ?_
    exact stages_formatChosen b config .multiLine true topLevelForm_ne_pointOutside topLevelForm_le
  | expand =>
    refine .bind hvalid fun config _ => ?_
    exact stages_formatChosen b config .multiLine true enclosingList_ne_pointOutside
      enclosingList_le
  | collapse deep =>
    refine .bind hvalid fun config _ => ?_
    exact stages_formatChosen b config .oneLine deep enclosingList_ne_pointOutside enclosingList_le
  | replace start stop new => cases hc
  | goto point => cases hc

/-- **A command that lays lists out keeps the code**, and one that fails keeps the whole buffer. -/
theorem perform_keeps_code {b : Buffer} (h : b.InText) (config : Except ConfigError Config)
    {command : Command} (hc : command.laysOut = true) :
    (∃ b', (perform config command).on b = (.ok (), b') ∧ SameCode b b' ∧ Tracks b b') ∨
      ∃ e, (perform config command).on b = (.error e, b) ∧ e ≠ .pointOutside := by
  generalize hrun : (perform config command).on b = r
  have hstages := hrun ▸ stages_perform b config hc
  cases hstages with
  | fails he => exact .inr ⟨_, rfl, he⟩
  | replaces hnew => exact .inl (exists_replace h hnew)

theorem replaceRegion_of_error {b : Buffer} {start stop : Int} {new : Text} {e : CommandError}
    (h : ((replaceRegion start stop new).on b).1 = .error e) :
    ((replaceRegion start stop new).on b).2 = b := by
  rw [on_replaceRegion] at h ⊢
  cases ha : b.anchor? with
  | none => rfl
  | some a => simp [ha] at h

theorem Stages.of_error {b : Buffer} {r : Except CommandError Unit × Buffer} {e : CommandError}
    (h : Stages b r) (he : r.1 = .error e) : r.2 = b := by
  cases h with
  | fails => rfl
  | replaces => exact replaceRegion_of_error he

/-- **A command that fails keeps the buffer**: the text and the point are assigned last. -/
theorem step_eq_self_of_error {b : Buffer} {config : Except ConfigError Config} {command : Command}
    {e : CommandError} (h : b.run config command = .error e) : b.step config command = b := by
  have he : ((perform config command).on b).1 = .error e := by
    unfold run at h
    cases hr : ((perform config command).on b).1 <;> simp_all [Except.map]
  cases command with
  | replace start stop new => exact replaceRegion_of_error he
  | goto point => cases he
  | _ => exact (stages_perform b config rfl).of_error he

/-! ### sessions -/

/-- A command, with the configuration that is looked up for it. -/
abbrev Request := Except ConfigError Config × Command

/-- The buffer after some commands, each made whether the ones before it succeeded or not. -/
def session (b : Buffer) (requests : List Request) : Buffer :=
  requests.foldl (fun b r => b.step r.1 r.2) b

theorem sameCode_step {b : Buffer} (h : b.InText) (config : Except ConfigError Config)
    {command : Command} (hc : command.laysOut = true) : SameCode b (b.step config command) := by
  rw [step]
  rcases perform_keeps_code h config hc with ⟨b', hb', hsame, -⟩ | ⟨e, he, -⟩
  · rwa [hb']
  · rw [he]
    exact SameCode.refl h

theorem sameCode_session {b : Buffer} (h : b.InText) {requests : List Request}
    (hr : ∀ r ∈ requests, r.2.laysOut = true) : SameCode b (b.session requests) := by
  induction requests generalizing b with
  | nil => exact SameCode.refl h
  | cons r requests ih =>
    have hstep := sameCode_step h r.1 (hr r List.mem_cons_self)
    exact hstep.trans (ih hstep.inText fun s hs => hr s (List.mem_cons_of_mem r hs))

/-- **A session keeps the code.**  Whatever commands that lay lists out are given, with whatever
configurations, the buffer has the code of the first one, and the point is in the text with as much
code before it.  The next command that succeeds takes the point along with the character before it
or on to the next one, and one that fails changes nothing. -/
theorem session_keeps_code {b : Buffer} (h : b.InText) {requests : List Request}
    (hr : ∀ r ∈ requests, r.2.laysOut = true) :
    SameCode b (b.session requests) ∧
      ∀ (config : Except ConfigError Config) (command : Command), command.laysOut = true →
        (∀ b', (b.session requests).run config command = .ok b' →
          (b.session requests).step config command = b' ∧ SameCode b b' ∧
            Tracks (b.session requests) b') ∧
        ∀ e, (b.session requests).run config command = .error e →
          (b.session requests).step config command = b.session requests ∧ e ≠ .pointOutside := by
  have hsame := sameCode_session h hr
  refine ⟨hsame, fun config command hc => ?_⟩
  rcases perform_keeps_code hsame.inText config hc with ⟨b', hb', hnext⟩ | ⟨e, he, hne⟩
  · rw [run, step, hb']
    refine ⟨?_, nofun⟩
    rintro _ ⟨⟩
    exact ⟨rfl, hsame.trans hnext.1, hnext.2⟩
  · refine ⟨?_, fun e' he' => ⟨step_eq_self_of_error he', ?_⟩⟩
    · rw [run, he]
      nofun
    · rw [run, he] at he'
      exact Except.error.inj he' ▸ hne

theorem session_keeps_code_comment :
    InText ⟨"(a (b)  ;x\n (c))".toList, 7⟩ ∧
    (Buffer.mk "(a (b)  ;x\n (c))".toList 7).session
        [(.ok .standard, .formatBuffer), (.error .tableShape, .expand)] =
      ⟨"(a (b)\n;x\n(c))".toList, 7⟩ ∧
    SameCode ⟨"(a (b)  ;x\n (c))".toList, 7⟩ ⟨"(a (b)\n;x\n(c))".toList, 7⟩ ∧
    ∃ b', (Buffer.mk "(a (b)\n;x\n(c))".toList 7).run (.ok .standard) (.collapse false) = .ok b' ∧
      Tracks ⟨"(a (b)\n;x\n(c))".toList, 7⟩ b' := by
  have hin : InText ⟨"(a (b)  ;x\n (c))".toList, 7⟩ := by
    unfold InText
    decide
  have hr : ∀ r ∈ ([(.ok .standard, .formatBuffer), (.error .tableShape, .expand)] : List Request),
      r.2.laysOut = true := by
    simp [Command.laysOut]
  have hsession : (Buffer.mk "(a (b)  ;x\n (c))".toList 7).session
      [(.ok .standard, .formatBuffer), (.error .tableShape, .expand)] =
        ⟨"(a (b)\n;x\n(c))".toList, 7⟩ := by
    decide +kernel
  obtain ⟨hsame, hnext⟩ := session_keeps_code hin hr
  rw [hsession] at hsame hnext
  obtain ⟨b', hrun⟩ := exists_of_isOk
    (x := (Buffer.mk "(a (b)\n;x\n(c))".toList 7).run (.ok .standard) (.collapse false))
      (by decide +kernel)
  exact ⟨hin, hsession, hsame, b', hrun, ((hnext _ _ rfl).1 b' hrun).2.2⟩

end Buffer

end SexpLayout
