import SexpLayout.Proofs.Format.Canonical
import SexpLayout.Proofs.Forms.Grouping
import SexpLayout.Proofs.Layout.Separators

/-!
# The separators of a formatted form

Formatting a formatted form changes nothing, so each of its lists has the gaps of its own layout,
and the lists inside are formatted too.  From that, level by level, what stands between any two
neighbours in the text is known from their kinds.

* `Forms.sites` — the lexemes in reading order, each with what decides about line ends in front of
  it;
* `isChain_of_settled`, `settled_of_mem` — one level of a form that formatting does not change, and
  `tidy_of_settled` — all levels;
* `formatForm_separates` — all neighbours of a formatted form are separated as their kinds and their
  place say.
-/

namespace SexpLayout

open Lexeme (spell spell_cons spell_append word Legible)

/-! ### neighbours -/

namespace Lexeme

/-- What a lexeme shows to its neighbours: its kind, and the gap in front of it. -/
def face (l : Lexeme) : Kind × Text := (l.kind, l.gap)

theorem map_face_placed (offset : Nat) (ls : List Lexeme) :
    (placed offset ls).map face = ls.map face :=
  map_placed (fun _ _ => rfl) offset ls

theorem map_face_retext (f : Lexeme → Text) (ls : List Lexeme) :
    (ls.map (retext f)).map face = ls.map face := by
  rw [List.map_map]
  refine List.map_congr_left fun l _ => ?_
  simp [face]

theorem isChain_congr {ls ms : List Lexeme} (h : ls.map face = ms.map face) {lines : Bool}
    (hls : ls.IsChain (Parted lines)) : ms.IsChain (Parted lines) := by
  have key : ∀ ls : List Lexeme, ls.IsChain (Parted lines) ↔
      (ls.map face).IsChain fun x y => Separates lines x.1 y.1 y.2 := by
    intro ls
    rw [List.isChain_map]
    rfl
  rwa [key, ← h, ← key]

theorem any_compound_congr {ls ms : List Lexeme} (h : ls.map face = ms.map face) :
    (ls.any fun l => l.kind = .compound) = ms.any fun l => l.kind = .compound := by
  have key : ∀ ls : List Lexeme,
      (ls.any fun l => l.kind = .compound) = (ls.map face).any fun x => x.1 = .compound := by
    intro ls
    rw [List.any_map]
    rfl
  rw [key, key, h]

end Lexeme

/-- A lexeme, and whether the innermost list around the gap in front of it holds a list itself. -/
abbrev Site := Lexeme × Bool

/-- The second lexeme is separated from the first one: over several lines, and next to a list, a
line end may take the place of a space. -/
def Site.Parted (mode : Mode) (l r : Site) : Prop := l.1.Parted (mode = .multiLine && r.2) r.1

instance (mode : Mode) (l r : Site) : Decidable (Site.Parted mode l r) :=
  inferInstanceAs (Decidable (Separates ..))

theorem separates_compound_left {lines : Bool} {next : Kind} {gap : Text} :
    Separates lines .compound next gap ↔ Separates lines .closeParen next gap := by
  simp [Separates]

theorem separates_compound_right {lines : Bool} {k : Kind} {gap : Text} :
    Separates lines k .compound gap ↔ Separates lines k .openParen gap := by
  simp [Separates]

namespace Forms

def holdsList : Forms → Bool
  | nil => false
  | atom _ rest => rest.holdsList
  | list .. => true

/-- The lexemes of a sequence in reading order, where `nested` says whether what is around the
sequence holds a list. -/
def sites (nested : Bool) : Forms → List Site
  | nil => []
  | atom x rest => (x, nested) :: rest.sites nested
  | list o inner c rest =>
    (o, nested) :: (inner.sites inner.holdsList ++ (c, inner.holdsList) :: rest.sites nested)

theorem map_fst_sites (nested : Bool) (f : Forms) : (f.sites nested).map Prod.fst = f.lexemes := by
  induction f generalizing nested with
  | nil => rfl
  | atom x rest ih => simp [sites, lexemes, ih]
  | list o inner c rest ihi ihr => simp [sites, lexemes, ihi, ihr]

theorem any_compound_grouped {f : Forms} (h : ∀ l ∈ f.lexemes, l.kind ≠ .compound) :
    (f.grouped.any fun l => l.kind = .compound) = f.holdsList := by
  induction f with
  | nil => rfl
  | atom x rest ih =>
    have hx := h x (by simp [lexemes])
    simpa [grouped, holdsList, hx] using ih fun l hl => h l (by simp [lexemes, hl])
  | list o inner c rest _ _ => simp [grouped, holdsList, compound]

theorem any_compound_list {o c : Lexeme} {inner : Forms} (ho : o.kind = .openParen)
    (hc : c.kind = .closeParen) (h : ∀ l ∈ inner.lexemes, l.kind ≠ .compound) :
    ((o :: (inner.grouped ++ [c])).any fun l => l.kind = .compound) = inner.holdsList := by
  rw [List.any_cons, List.any_append, any_compound_grouped h]
  simp [ho, hc]

theorem opened_cases (f : Forms) :
    (∃ o inner c, f = list o inner c nil) ∨ f.opened = f.grouped := by
  fun_cases opened f with
  | case1 o inner c => exact .inl ⟨o, inner, c, rfl⟩
  | case2 => exact .inr rfl

theorem map_gap_head?_grouped (f : Forms) :
    f.grouped.head?.map Lexeme.gap = f.lexemes.head?.map Lexeme.gap := by
  cases f <;> rfl

theorem map_gap_head?_opened (f : Forms) :
    f.opened.head?.map Lexeme.gap = f.lexemes.head?.map Lexeme.gap := by
  rcases f.opened_cases with ⟨o, inner, c, rfl⟩ | hopened
  · rfl
  · rw [hopened, map_gap_head?_grouped]

/-- What every list holds is separated, the lists inside taken as one lexeme each. -/
def Tidy (mode : Mode) : Forms → Prop
  | nil => True
  | atom _ rest => rest.Tidy mode
  | list o inner c rest =>
    (o :: (inner.grouped ++ [c])).IsChain (Lexeme.Parted (mode = .multiLine && inner.holdsList)) ∧
      inner.Tidy mode ∧ rest.Tidy mode

/-- **From levels to the text**: if what every list holds is separated, so are all neighbours. -/
theorem Tidy.isChain_sites {mode : Mode} {f : Forms} (hf : f.Tidy mode) (hb : f.Balanced)
    {nested : Bool} {a : Site} {bs : List Site}
    (h : (a :: (f.grouped.map (fun l => (l, nested)) ++ bs)).IsChain (Site.Parted mode)) :
    (a :: (f.sites nested ++ bs)).IsChain (Site.Parted mode) := by
  induction f generalizing nested a bs with
  | nil => exact h
  | atom x rest ih =>
    obtain ⟨hx, hrest⟩ := List.isChain_cons_cons.1 h
    exact List.isChain_cons_cons.2 ⟨hx, ih hf hb.2 hrest⟩
  | list o inner c rest ihi ihr =>
    obtain ⟨hlevel, hinner, hrest⟩ := hf
    obtain ⟨⟨ho, hc, -⟩, hbi, hbr⟩ := hb
    obtain ⟨ha, hbs⟩ := List.isChain_cons_cons.1 h
    -- a list is its opening bracket for what stands before it, and its closing bracket for what
    -- stands behind it
    have hopen : Site.Parted mode a (o, nested) := by
      have hsep := separates_compound_right.1 ha
      rwa [← ho] at hsep
    have hclose :
        ((c, inner.holdsList) :: (rest.sites nested ++ bs)).IsChain (Site.Parted mode) := by
      refine ihr hrest hbr (hbs.imp_head fun {z} hz => ?_)
      have hsep := separates_compound_left.1 hz
      rwa [← hc] at hsep
    have hinside : ((o, nested) :: inner.grouped.map (fun l => (l, inner.holdsList)) ++
        [(c, inner.holdsList)]).IsChain (Site.Parted mode) := by
      have h := (List.isChain_map (R := Site.Parted mode) fun l => (l, inner.holdsList)).2 hlevel
      rw [List.map_cons, List.map_append] at h
      exact List.IsChain.imp_head (x := (o, inner.holdsList)) (y := (o, nested)) (fun hz => hz) h
    have hall := ihi hinner hbi (List.isChain_split.2 ⟨hinside, hclose⟩)
    rw [sites, List.cons_append, List.append_assoc]
    exact List.isChain_cons_cons.2 ⟨hopen, hall⟩

theorem Tidy.isChain_sites_of_grouped {mode : Mode} {f : Forms} (hf : f.Tidy mode) (hb : f.Balanced)
    (h : f.grouped.IsChain (Lexeme.Parted (mode = .multiLine && f.holdsList)))
    (hgap : ∀ g ∈ f.lexemes.head?.map Lexeme.gap, g = []) :
    (f.sites f.holdsList).IsChain (Site.Parted mode) := by
  -- as if the sequence stood behind an opening bracket
  let bracket : Site := (⟨⟨.openParen, [], 0, 0⟩, []⟩, false)
  have hall :
      (bracket :: (f.grouped.map (fun l => (l, f.holdsList)) ++ [])).IsChain
        (Site.Parted mode) := by
    rw [List.append_nil]
    refine List.isChain_cons.2 ⟨fun y hy => ?_, (List.isChain_map _).2 h⟩
    rw [List.head?_map] at hy
    obtain ⟨l, hl, rfl⟩ := Option.map_eq_some_iff.1 hy
    have hl := hgap l.gap (by rw [← map_gap_head?_grouped, hl]; rfl)
    simp [Site.Parted, Lexeme.Parted, Separates, bracket, hl]
  have h := hf.isChain_sites hb hall
  rw [List.append_nil] at h
  exact h.tail

end Forms

/-! ### one level of a formatted form -/

section Settled

variable {config : Config} {mode : Mode} {context : Option Bool} {text : Text} {p : Passage}
  {ws : List Word}

theorem exists_gapsOf (config : Config) (mode : Mode) (context : Option Bool)
    (hne : p.lexemes ≠ []) :
    ∃ n, gapsOf config mode context p =
      (Layout.fold n (Layout.cellsFrom (Layout.effectiveMode mode p.tokens) .free p.tokens)).map
        Cell.gap := by
  have htokens : p.tokens.isEmpty = false := by simpa [Passage.tokens] using hne
  rw [gapsOf, Layout.gaps, layoutOf, Layout.ofTokens, htokens]
  exact ⟨_, rfl⟩

theorem effectiveMode_eq_multiLine (mode : Mode) (p : Passage) :
    decide (Layout.effectiveMode mode p.tokens = .multiLine) =
      (decide (mode = .multiLine) && p.lexemes.any fun l => l.kind = .compound) := by
  have hany : (p.tokens.any fun t => t.kind = .compound) = p.lexemes.any fun l =>
      l.kind = .compound := by
    rw [Passage.tokens, List.any_map]
    rfl
  rw [Layout.effectiveMode, hany]
  cases p.lexemes.any fun l => l.kind = .compound with
  | true => simp
  | false => simp

variable (hp : Passage.ofExpression text = .ok p) (hw : wordsOf text = .ok ws) (hs : SpliceFree ws)
  (hne : p.lexemes ≠ []) (hfix : (formatForm config mode true context text).outcome = .ok text)
include hp hw hs hne hfix

theorem lexemes_of_settled :
    p.lexemes =
      Lexeme.placed 0 (Lexeme.spaced [] (p.formatted config mode (contextOf config context p))
        (gapsOf config mode context p)) := by
  have hout := outcome_formatForm_of_words config mode context hp hw hs hne
  have htext := Except.ok.inj (hfix.symm.trans hout)
  have hread := (ofExpression_formatted config mode context hp hw hs).1
  rw [← htext, hp] at hread
  exact congrArg Passage.lexemes (Except.ok.inj hread)

theorem map_face_of_settled :
    (Lexeme.spaced [] p.lexemes (gapsOf config mode context p)).map Lexeme.face =
      p.lexemes.map Lexeme.face := by
  have h := congrArg (List.map Lexeme.face) (lexemes_of_settled hp hw hs hne hfix)
  rwa [Lexeme.map_face_placed, Passage.formatted, ← map_retext_spaced,
    Lexeme.map_face_retext, eq_comm] at h

theorem isChain_of_settled :
    p.lexemes.IsChain
      (Lexeme.Parted (mode = .multiLine && p.lexemes.any fun l => l.kind = .compound)) := by
  obtain ⟨_, -, hread, hexp, -, hplaced⟩ := Passage.reading_of_ofExpression hp
  obtain ⟨n, hgaps⟩ := exists_gapsOf config mode context hne
  have hchain :=
    Layout.isChain_spaced (Layout.effectiveMode mode p.tokens) (unsplit_of_reading hread hplaced)
    hexp.isChain_kinds (fun u _ => Gap.Phase.suits_free _ u.kind) n []
  rw [effectiveMode_eq_multiLine, ← Passage.tokens, ← hgaps] at hchain
  exact Lexeme.isChain_congr (map_face_of_settled hp hw hs hne hfix) hchain

theorem settled_of_mem {l : Lexeme} (hl : l ∈ p.lexemes) (hk : l.kind = .compound) :
    (formatForm config mode true (some (contextOf config context p)) l.text).outcome =
      .ok l.text := by
  have hwords := congrArg (List.map word) (lexemes_of_settled hp hw hs hne hfix)
  rw [Lexeme.map_word_placed, Lexeme.map_word_spaced, Passage.formatted, List.map_map,
    List.map_inj_left] at hwords
  have htext : l.text = formatted config mode (contextOf config context p) l.text := by
    have h := congrArg Prod.snd (hwords l hl)
    simpa [word, Lexeme.retext_text, hk] using h
  rw [(formats_of_mem config mode hp hw hs (contextOf config context p) hl hk).outcome, ← htext]

end Settled

/-! ### all levels -/

/-- **All levels**: if formatting does not change the lists of some forms, what every list holds is
separated. -/
theorem tidy_of_settled {config : Config} {mode : Mode} {context : Bool} {f : Forms} {r : Text}
    (hb : f.Balanced) (hl : Legible f.lexemes r) (hs : SpliceFree (f.lexemes.map word))
    (hfix : ∀ l ∈ f.grouped, l.kind = .compound →
      (formatForm config mode true (some context) l.text).outcome = .ok l.text) :
    f.Tidy mode := by
  induction f generalizing r with
  | nil => trivial
  | atom x rest ih => exact ih hb.2 hl.2 hs.tail fun l hl => hfix l (List.mem_cons_of_mem x hl)
  | list o inner c rest ihi ihr =>
    obtain ⟨hp, hw⟩ := ofExpression_compound hb hl
    obtain ⟨⟨ho, hc, -⟩, hbi, hbr⟩ := hb
    obtain ⟨hli, -, hlr⟩ := Lexeme.legible_append.1 hl.2
    have hwords : (Forms.list o inner c rest).lexemes.map word =
        (o.word :: (inner.lexemes.map word ++ [c.word])) ++ rest.lexemes.map word := by
      simp [Forms.lexemes]
    rw [hwords] at hs
    have hslist := hs.left_of_append
    have hlist := hfix _ List.mem_cons_self rfl
    have hfaces := Lexeme.map_face_placed 0 ({ o with gap := [] } :: (inner.grouped ++ [c]))
    refine ⟨?_, ihi hbi hli hslist.tail.left_of_append ?_, ihr hbr hlr hs.right_of_append ?_⟩
    · have h :=
        Lexeme.isChain_congr hfaces
          (isChain_of_settled hp hw hslist (by simp [Lexeme.placed]) hlist)
      rw [Lexeme.any_compound_congr hfaces,
        Forms.any_compound_list (o := { o with gap := [] }) ho hc (lexemes_ne_compound hli)] at h
      exact List.IsChain.imp_head (x := { o with gap := [] }) (y := o) (fun hz => hz) h
    · intro l hl hk
      obtain ⟨m, hm, hkind, htext⟩ := Lexeme.exists_mem_of_map_word
        (Lexeme.map_word_placed 0 ({ o with gap := [] } :: (inner.grouped ++ [c]))).symm (l := l)
          (by simp [hl])
      rw [← htext]
      exact settled_of_mem hp hw hslist (by simp [Lexeme.placed]) hlist hm (hkind.trans hk)
    · exact fun l hl => hfix l (List.mem_cons_of_mem _ hl)

theorem isChain_sites_of_settled {config : Config} {mode : Mode} {context : Bool} {f : Forms}
    {r : Text} (hb : f.Balanced) (hl : Legible f.lexemes r) (hs : SpliceFree (f.lexemes.map word))
    (hgap : ∀ g ∈ f.lexemes.head?.map Lexeme.gap, g = [])
    (hlevel : f.opened.IsChain
      (Lexeme.Parted (mode = .multiLine && f.opened.any fun l => l.kind = .compound)))
    (hlists : ∀ l ∈ f.opened, l.kind = .compound →
      (formatForm config mode true (some context) l.text).outcome = .ok l.text) :
    (f.sites f.holdsList).IsChain (Site.Parted mode) := by
  rcases f.opened_cases with ⟨o, inner, c, rfl⟩ | hopened
  · obtain ⟨⟨ho, hc, hcl⟩, hbi, -⟩ := hb
    have hli := (Lexeme.legible_append.1 hl.2).1
    have hsi : SpliceFree (inner.lexemes.map word) := by
      rw [Forms.lexemes, List.map_cons, List.map_append] at hs
      exact hs.tail.left_of_append
    have htidy : (Forms.list o inner c .nil).Tidy mode := by
      rw [Forms.opened, Forms.any_compound_list ho hc (lexemes_ne_compound hli)] at hlevel
      exact ⟨hlevel,
        tidy_of_settled hbi hli hsi fun l hl => hlists l (by simp [Forms.opened, hl]), trivial⟩
    exact htidy.isChain_sites_of_grouped ⟨⟨ho, hc, hcl⟩, hbi, trivial⟩ (.singleton _) hgap
  · rw [hopened] at hlevel hlists
    rw [Forms.any_compound_grouped (lexemes_ne_compound hl)] at hlevel
    exact (tidy_of_settled hb hl hs hlists).isChain_sites_of_grouped hb hlevel hgap

/-! ### forms -/

section Forms

variable (config : Config) (mode : Mode) (context : Option Bool) {text : Text} {p : Passage}
  {ws : List Word}

/-- **The separators of a formatted form.**  Every form with tokens in which no `,` is in front of
an `@` is formatted.  The formatted text holds the same words, with nothing before the first and
behind the last one, and what stands between two neighbours is what separates their kinds; there is
a line end in place of a space only over several lines, and only if the innermost list around it, or
the whole text, holds a list. -/
theorem formatForm_separates (hp : Passage.ofExpression text = .ok p) (hw : wordsOf text = .ok ws)
    (hne : ws ≠ []) (hs : SpliceFree ws) :
    ∃ out f, (formatForm config mode true context text).outcome = .ok out ∧
      Forms.ofText out = .ok (f, []) ∧
      spell f.lexemes = out ∧ f.lexemes.map word = ws ∧ (∀ l ∈ f.lexemes.head?, l.gap = []) ∧
      (f.sites f.holdsList).map Prod.fst = f.lexemes ∧
        (f.sites f.holdsList).IsChain (Site.Parted mode) := by
  have hout := outcome_formatForm_of_words config mode context hp hw hs (lexemes_ne_nil hp hw hne)
  obtain ⟨hexp, hwout⟩ := ofExpression_formatted config mode context hp hw hs
  have hfix := (outcome_formatForm_congr config mode context hexp hp hwout hw hne hs).trans hout
  obtain ⟨f, hf, hopened⟩ := Passage.exists_of_ofExpression hexp
  obtain ⟨hspell, hb, hl, -, -⟩ := Forms.ofText_eq_ok_iff.1 hf
  have hwords : f.lexemes.map word = ws := Except.ok.inj ((wordsOf_of_ofText hf).symm.trans hwout)
  have hlevel := isChain_of_settled hexp hwout hs (lexemes_ne_nil hexp hwout hne) hfix
  have hlists := fun l => settled_of_mem (l := l) hexp hwout hs (lexemes_ne_nil hexp hwout hne) hfix
  have hgap : ∀ g ∈ f.lexemes.head?.map Lexeme.gap, g = [] := by
    rw [← Forms.map_gap_head?_opened, ← hopened]
    cases p.formatted config mode (contextOf config context p) with
    | nil => simp [Lexeme.spaced, Lexeme.placed]
    | cons u us => simp [Lexeme.spaced, Lexeme.placed]
  rw [hopened] at hlevel hlists
  refine ⟨_, f, hout, hf, by simpa using hspell, hwords, ?_, f.map_fst_sites _, ?_⟩
  · exact fun l hl => hgap l.gap (by rw [Option.mem_def.1 hl]; rfl)
  · exact isChain_sites_of_settled hb hl (hwords ▸ hs) hgap hlevel hlists

theorem formatForm_separates_marks :
    SpliceFree [(.openParen, ['(']), (.symbol, ['f']), (.openParen, ['(']), (.symbol, [':', 'k']),
        (.punctuation, ['\x27']), (.symbol, ['v']), (.closeParen, [')']), (.comment, [';', 'c']),
        (.punctuation, [',']), (.comment, [';', 'd']), (.closeParen, [')'])] ∧
      ∃ f : Forms,
        (formatForm .standard .multiLine true none "(f( :k 'v);c\n, ;d\n)".toList).outcome =
          .ok (spell f.lexemes) ∧
        spell f.lexemes = "(f (:k 'v)\n;c\n,;d\n)".toList ∧
        (f.sites f.holdsList).IsChain (Site.Parted .multiLine) := by
  have hs :
      SpliceFree [(.openParen, ['(']), (.symbol, ['f']), (.openParen, ['(']), (.symbol, [':', 'k']),
        (.punctuation, ['\x27']), (.symbol, ['v']), (.closeParen, [')']), (.comment, [';', 'c']),
        (.punctuation, [',']), (.comment, [';', 'd']), (.closeParen, [')'])] := by
    decide +kernel
  obtain ⟨p, hp⟩ :=
    exists_of_isOk (x := Passage.ofExpression "(f( :k 'v);c\n, ;d\n)".toList) (by decide +kernel)
  obtain ⟨_, f, hout, -, rfl, -, -, -, hsites⟩ :=
    formatForm_separates .standard .multiLine none hp (by decide +kernel) (by simp) hs
  have htext : (formatForm .standard .multiLine true none "(f( :k 'v);c\n, ;d\n)".toList).outcome =
      .ok "(f (:k 'v)\n;c\n,;d\n)".toList := by
    decide +kernel
  exact ⟨hs, f, hout, Except.ok.inj (hout.symm.trans htext), hsites⟩

end Forms

end SexpLayout
