import Mathlib.Data.List.Forall2
import Mathlib.Data.List.TakeWhile
import SexpLayout.CommandLine.Options

/-!
# Options written out

Options can be written out as arguments: the flags that are set by their long names, the values
behind equals signs, and the paths behind the divider, where every text is a path.  They are read
back as they were.

* `Options.arguments` — the arguments that ask for some options;
* `ofTexts_append_divider` — every argument before the divider is classified by itself;
* `takeArguments_flags`, `takeArguments_divider` — what is taken from the flags and from the paths;
* `ofArguments_arguments` — **what is written out is understood**.
-/

namespace SexpLayout.CommandLine

/-! ### writing -/

def Flag.spelling : Flag → Text
  | help => "--help".toList
  | oneLine => "--one-line".toList
  | check => "--check".toList
  | stdout => "--stdout".toList
  | noIndent => "--no-indent".toList
  | verbose => "--verbose".toList
  | config => "--config".toList
  | pattern => "--pattern".toList

def Options.flags (o : Options) : List Flag :=
  (if o.oneLine then [.oneLine] else []) ++ (if o.check then [.check] else []) ++
    (if o.stdout then [.stdout] else []) ++ (if o.noIndent then [.noIndent] else []) ++
    (if o.verbose then [.verbose] else [])

/-- The arguments that ask for some options. -/
def Options.arguments (o : Options) : List Text :=
  o.flags.map Flag.spelling ++
    [Flag.config.spelling ++ '=' :: o.config, Flag.pattern.spelling ++ '=' :: o.pattern] ++
      ['-', '-'] :: o.paths

/-! ### one argument -/

namespace Argument

theorem ofText_spelling (flag : Flag) : ofText flag.spelling = .ok (.option flag none) := by
  cases flag <;> rfl

theorem splitValue_append {name : Text} (h : '=' ∉ name) (value : Text) :
    splitValue (name ++ '=' :: value) = (name, some value) := by
  have hall : ∀ c ∈ name, decide (c ≠ '=') = true := by
    rintro c hc
    refine decide_eq_true fun e => h ?_
    rwa [← e]
  have hdrop : (name ++ '=' :: value).dropWhile (· ≠ '=') = '=' :: value := by
    rw [List.dropWhile_append_of_pos hall, List.dropWhile_cons_of_neg (by simp)]
  have htake : (name ++ '=' :: value).takeWhile (· ≠ '=') = name := by
    rw [List.takeWhile_append_of_pos hall, List.takeWhile_cons_of_neg (by simp), List.append_nil]
  simp only [splitValue, hdrop, htake]

theorem spelled?_eq_none {t : Text} (h : '=' ∈ t) : spelled? t = none := by
  have hnames : ∀ s ∈ spellings, '=' ∉ Text.ofString s.1 := by decide
  refine Option.map_eq_none_iff.2 (List.find?_eq_none.2 fun s hs heq => hnames s hs ?_)
  rwa [eq_of_beq heq]

theorem ofText_value (flag : Flag) (value : Text) :
    ofText (flag.spelling ++ '=' :: value) = .ok (.option flag (some value)) := by
  have hname : '=' ∉ flag.spelling := by cases flag <;> decide
  have hspelled : spelled? flag.spelling = some flag := by cases flag <;> rfl
  obtain ⟨cs, hcs⟩ : ∃ cs, flag.spelling ++ '=' :: value = '-' :: '-' :: cs := by
    cases flag <;> exact ⟨_, rfl⟩
  unfold ofText
  rw [spelled?_eq_none (by simp), splitValue_append hname, hcs]
  simp only [hspelled]

/-- **Every argument before the divider is classified by itself**, and those behind it are plain. -/
theorem ofTexts_append_divider {ts : List Text} {as : List Argument}
    (h : List.Forall₂ (fun t a => t ≠ ['-', '-'] ∧ ofText t = .ok a) ts as) (paths : List Text) :
    ofTexts (ts ++ ['-', '-'] :: paths) = .ok (as ++ .divider :: paths.map .plain) := by
  induction h with
  | nil => simp [ofTexts]
  | cons hta _ ih => simp [ofTexts, hta.1, hta.2, ih, bind, Except.bind, pure, Except.pure]

end Argument

/-! ### taking the arguments -/

theorem takeArguments_flags (p : Progress) {flags : List Flag}
    (h : ∀ f ∈ flags, f.takesValue = false ∧ f ≠ .help) (rest : List Argument) :
    takeArguments p (flags.map (.option · none) ++ rest) =
      takeArguments { p with options := flags.foldl Options.set p.options } rest := by
  induction flags generalizing p with
  | nil => rfl
  | cons flag flags ih =>
    obtain ⟨htakes, hhelp⟩ := h flag (by simp)
    have hset : p.setFlags [flag] = .ok { p with options := p.options.set flag } := by
      cases flag <;> first | rfl | exact absurd rfl hhelp
    rw [List.map_cons, List.cons_append]
    conv_lhs => unfold takeArguments
    simp only [htakes, Bool.false_eq_true, if_false, hset]
    exact ih _ fun f hf => h f (by simp [hf])

theorem takeArguments_value (p : Progress) {flag : Flag} (h : flag.takesValue = true) (value : Text)
    (rest : List Argument) :
    takeArguments p (.option flag (some value) :: rest) =
      takeArguments { p with options := p.options.setValue flag value } rest := by
  rw [takeArguments, if_pos h]

theorem takeArguments_divider (p : Progress) (hp : p.taken = false) {paths : List Text}
    (h : paths ≠ []) :
    takeArguments p (.divider :: paths.map .plain) =
      .ok { p with options := { p.options with paths := paths }, taken := true } := by
  have hall : ∀ a ∈ paths.map Argument.plain, a.isPath = true := by
    intro a ha
    obtain ⟨t, -, rfl⟩ := List.mem_map.1 ha
    rfl
  have hany : ((.divider :: paths.map Argument.plain).any fun a => a ≠ .divider) = true := by
    obtain ⟨t, ts, rfl⟩ := List.exists_cons_of_ne_nil h
    rfl
  have hpaths :
      ((.divider :: paths.map Argument.plain).filterMap Argument.path?).erase ['-', '-'] =
        paths := by
    have hplain : (paths.map Argument.plain).filterMap Argument.path? = paths := by
      rw [List.filterMap_map]
      exact List.filterMap_some
    have hhead : Argument.path? .divider = some ['-', '-'] := rfl
    rw [List.filterMap_cons_some hhead, hplain, List.erase_cons_head]
  rw [takeArguments, List.takeWhile_eq_self_iff.2 hall, List.dropWhile_eq_nil_iff.2 hall,
    takeArguments]
  simp only [Progress.takePaths, hp, hany, hpaths, Bool.not_true, Bool.or_false,
    Bool.false_eq_true, if_false]

/-! ### reading back -/

theorem mem_flags {o : Options} {f : Flag} (h : f ∈ o.flags) :
    f.takesValue = false ∧ f ≠ .help := by
  have hall : ∀ a b c d e : Bool, ∀ f ∈ Options.flags ⟨a, b, c, d, e, [], [], []⟩,
      f.takesValue = false ∧ f ≠ .help := by
    decide
  exact hall _ _ _ _ _ f h

theorem foldl_set_flags (o : Options) :
    o.flags.foldl Options.set {} =
      { o with config := [], pattern := Pattern.standard, paths := [] } := by
  obtain ⟨a, b, c, d, e, config, pattern, paths⟩ := o
  cases a <;> cases b <;> cases c <;> cases d <;> cases e <;> rfl

theorem forall₂_ofText_arguments (flags : List Flag) (config pattern : Text) :
    List.Forall₂ (fun t a => t ≠ ['-', '-'] ∧ Argument.ofText t = .ok a)
      (flags.map Flag.spelling ++
        [Flag.config.spelling ++ '=' :: config, Flag.pattern.spelling ++ '=' :: pattern])
      (flags.map (.option · none) ++
        [.option .config (some config), .option .pattern (some pattern)]) := by
  have hvalue : ∀ (flag : Flag) (value : Text), flag.spelling ++ '=' :: value ≠ ['-', '-'] := by
    intro flag value h
    have hmem : '=' ∈ flag.spelling ++ '=' :: value := by simp
    simp [h] at hmem
  refine List.rel_append ?_ (.cons ⟨hvalue _ _, Argument.ofText_value ..⟩
    (.cons ⟨hvalue _ _, Argument.ofText_value ..⟩ .nil))
  rw [List.forall₂_map_left_iff, List.forall₂_map_right_iff]
  refine List.forall₂_same.2 fun f _ => ⟨?_, Argument.ofText_spelling f⟩
  cases f <;> decide

/-- **What is written out is understood.**  Only the divider cannot be a value. -/
theorem ofArguments_arguments (o : Options) (hconfig : o.config ≠ ['-', '-'])
    (hpattern : o.pattern ≠ ['-', '-']) (hpaths : o.paths ≠ []) :
    Options.ofArguments o.arguments = .ok o := by
  have htexts := Argument.ofTexts_append_divider
    (forall₂_ofText_arguments o.flags o.config o.pattern) o.paths
  rw [Options.ofArguments, Options.arguments, htexts]
  simp only [bind, Except.bind, List.append_assoc]
  rw [takeArguments_flags _ fun _ => mem_flags, List.cons_append, List.cons_append, List.nil_append,
    takeArguments_value _ rfl, takeArguments_value _ rfl, takeArguments_divider _ rfl hpaths,
    foldl_set_flags]
  simp only [Options.setValue, hconfig, hpattern, if_false]
  rfl

end SexpLayout.CommandLine
