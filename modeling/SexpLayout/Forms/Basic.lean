import SexpLayout.Token.Basic

/-!
# Forms

A sequence of forms: atoms (any token that is not a bracket) and bracketed lists, each with the
forms that follow it.  Views of a sequence:

* `Forms.lexemes` — its lexemes in reading order;
* `Forms.grouped` — its lexemes with every list taken as one `compound` lexeme;
* `Forms.opened` — the same, but the brackets of a list that stands alone are shown;
* `Forms.spans` — where its lists start and stop, an outer list before the lists inside it.

`grouped` and `opened` spell the same text as `lexemes` (`source_grouped`, `source_opened`).
-/

namespace SexpLayout

/-- A sequence of forms: empty, or an atom or a list followed by a sequence of forms. -/
inductive Forms where
  | nil
  | atom (lexeme : Lexeme) (rest : Forms)
  | list (opener : Lexeme) (inner : Forms) (closer : Lexeme) (rest : Forms)
  deriving DecidableEq, Repr

open Lexeme (spell spell_nil spell_cons spell_append ink_text_le)

namespace Forms

/-- The forms of the first sequence, the last one first, in front of the second sequence. -/
def reverseOnto : Forms → Forms → Forms
  | nil, g => g
  | atom x rest, g => rest.reverseOnto (atom x g)
  | list o inner c rest, g => rest.reverseOnto (list o inner c g)

def reverse (f : Forms) : Forms := f.reverseOnto nil

/-- The lexemes of a sequence in reading order. -/
def lexemes : Forms → List Lexeme
  | nil => []
  | atom x rest => x :: rest.lexemes
  | list o inner c rest => o :: (inner.lexemes ++ c :: rest.lexemes)

/-- A whole list as one lexeme. -/
def compound (opener : Lexeme) (inner : Forms) (closer : Lexeme) : Lexeme where
  kind := .compound
  text := opener.text ++ spell inner.lexemes ++ closer.source
  start := opener.start
  stop := closer.stop
  gap := opener.gap

/-- The lexemes of a sequence, every list taken as one. -/
def grouped : Forms → List Lexeme
  | nil => []
  | atom x rest => x :: rest.grouped
  | list o inner c rest => compound o inner c :: rest.grouped

/-- The lexemes of one expression: of a list that stands alone, the brackets and what is grouped
between them. -/
def opened : Forms → List Lexeme
  | list o inner c nil => o :: (inner.grouped ++ [c])
  | forms => forms.grouped

/-- The offsets where the lists of a sequence start and stop, in the order of their openers. -/
def spans : Forms → List (Nat × Nat)
  | nil => []
  | atom _ rest => rest.spans
  | list o inner c rest => (o.start, c.stop) :: (inner.spans ++ rest.spans)

/-! ### views -/

theorem lexemes_reverseOnto (f g : Forms) :
    (f.reverseOnto g).lexemes = f.reverse.lexemes ++ g.lexemes := by
  unfold reverse
  induction f generalizing g with
  | nil => rfl
  | atom x rest ih =>
    rw [reverseOnto, ih, reverseOnto, ih (atom x nil)]
    simp [lexemes]
  | list o inner c rest _ ih =>
    rw [reverseOnto, ih, reverseOnto, ih (list o inner c nil)]
    simp [lexemes]

theorem lexemes_reverse_atom (x : Lexeme) (rest : Forms) :
    (atom x rest).reverse.lexemes = rest.reverse.lexemes ++ [x] :=
  lexemes_reverseOnto rest (atom x nil)

theorem lexemes_reverse_list (o : Lexeme) (inner : Forms) (c : Lexeme) (rest : Forms) :
    (list o inner c rest).reverse.lexemes =
      rest.reverse.lexemes ++ o :: (inner.lexemes ++ [c]) :=
  lexemes_reverseOnto rest (list o inner c nil)

theorem source_compound (o : Lexeme) (inner : Forms) (c : Lexeme) :
    (compound o inner c).source = o.source ++ spell inner.lexemes ++ c.source := by
  simp [compound, Lexeme.source]

theorem source_grouped (f : Forms) : spell f.grouped = spell f.lexemes := by
  induction f with
  | nil => rfl
  | atom x rest ih => simp [grouped, lexemes, ih]
  | list o inner c rest _ ih => simp [grouped, lexemes, ih, source_compound]

theorem source_opened (f : Forms) : spell f.opened = spell f.lexemes := by
  fun_cases opened f with
  | case1 o inner c => simp [lexemes, source_grouped]
  | case2 => exact source_grouped f

/-! ### ink -/

theorem compound_proper {o : Lexeme} (inner : Forms) (c : Lexeme) (h : o.Proper) :
    (compound o inner c).Proper where
  gap_blank := h.gap_blank
  ink_pos := by
    have := h.ink_pos
    simp only [compound, Text.ink_append]
    omega

theorem grouped_proper {f : Forms} (h : ∀ l ∈ f.lexemes, l.Proper) :
    ∀ l ∈ f.grouped, l.Proper := by
  induction f with
  | nil => simp [grouped]
  | atom x rest ih =>
    simp only [lexemes, grouped, List.mem_cons, forall_eq_or_imp] at h ⊢
    exact ⟨h.1, ih h.2⟩
  | list o inner c rest _ ih =>
    simp only [lexemes, grouped, List.mem_cons, List.mem_append, forall_eq_or_imp] at h ⊢
    exact ⟨compound_proper inner c h.1, ih fun l hl => h.2 l (.inr (.inr hl))⟩

theorem opened_proper {f : Forms} (h : ∀ l ∈ f.lexemes, l.Proper) : ∀ l ∈ f.opened, l.Proper := by
  fun_cases opened f with
  | case1 o inner c =>
    simp only [lexemes, List.mem_cons, List.mem_append, List.not_mem_nil, or_false,
      forall_eq_or_imp] at h ⊢
    refine ⟨h.1, fun l hl => ?_⟩
    rcases hl with hl | rfl
    · exact grouped_proper (fun m hm => h.2 m (.inl hm)) l hl
    · exact h.2 l (.inr rfl)
  | case2 => exact grouped_proper h

/-- A list inside an expression has less ink than the expression: the brackets of the expression
are missing, or else something beside the list. -/
theorem ink_lt_of_mem_opened {f : Forms} (hf : ∀ l ∈ f.lexemes, l.Proper)
    (hatom : ∀ l ∈ f.lexemes, l.kind ≠ .compound) {l : Lexeme} (h : l ∈ f.opened)
    (hk : l.kind = .compound) : l.text.ink < (spell f.lexemes).ink := by
  have key : ∀ {x : Lexeme} {ms : List Lexeme}, x.Proper → l ∈ ms →
      l.text.ink < (spell (x :: ms)).ink := by
    intro x ms hx hm
    have h1 := ink_text_le hm
    have h2 := hx.ink_pos
    simp only [spell_cons, Lexeme.source, Text.ink_append]
    omega
  have tail : ∀ {x : Lexeme} {ms : List Lexeme}, (∀ y ∈ ms, y.Proper) → ms ≠ [] →
      x.text.ink < (spell (x :: ms)).ink := by
    intro x ms hms hne
    obtain ⟨y, ys, rfl⟩ := List.exists_cons_of_ne_nil hne
    have h1 := (hms y (by simp)).ink_pos
    simp only [spell_cons, Lexeme.source, Text.ink_append]
    omega
  rw [← source_opened]
  have hp := opened_proper hf
  cases f with
  | nil => simp [opened, grouped] at h
  | atom x rest =>
    simp only [opened, grouped, List.mem_cons] at h hp ⊢
    rcases h with rfl | h
    · exact absurd hk (hatom l (by simp [lexemes]))
    · exact key (hp x (by simp)) h
  | list o inner c rest =>
    cases rest with
    | nil =>
      simp only [opened, List.mem_cons, List.mem_append] at h hp ⊢
      rcases h with rfl | h
      · exact absurd hk (hatom l (by simp [lexemes]))
      · exact key (hp o (by simp)) (by simpa using h)
    | atom x rest' =>
      simp only [opened, grouped, List.mem_cons] at h hp ⊢
      rcases h with rfl | h
      · exact tail (fun y hy => hp y (.inr (by simpa using hy))) (by simp)
      · exact key (hp _ (by simp)) (by simpa using h)
    | list o' inner' c' rest' =>
      simp only [opened, grouped, List.mem_cons] at h hp ⊢
      rcases h with rfl | h
      · exact tail (fun y hy => hp y (.inr (by simpa using hy))) (by simp)
      · exact key (hp _ (by simp)) (by simpa using h)

end Forms

end SexpLayout
