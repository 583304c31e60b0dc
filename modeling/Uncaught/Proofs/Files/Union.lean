import Uncaught.Files.Collect
import Uncaught.Proofs.Files.Order

/-!
The files that arguments name are a sorted union. Each argument is expanded on its own, a file to itself
and a directory to the tree files of its walk; the answer is the union of what the arguments name. The
first argument that names nothing is the error. How patterns are read and compiled is left open.
-/

namespace Uncaught

section FirstFailure

variable {α β ε : Type} {f : α → Except ε β} {x : α} {xs : List α} {ys : List β} {e : ε}

/-- The first element of a list that fails does so with this error. -/
def FailsFirst (f : α → Except ε β) (xs : List α) (e : ε) : Prop :=
  ∃ before x after, xs = before ++ x :: after ∧ (∀ y ∈ before, ∃ b, f y = .ok b) ∧ f x = .error e

theorem not_failsFirst_nil (f : α → Except ε β) (e : ε) : ¬FailsFirst f [] e := by
  rintro ⟨before, x, after, hnil, -⟩
  exact List.append_ne_nil_of_right_ne_nil before (List.cons_ne_nil x after) hnil.symm

theorem failsFirst_cons_of_error {e' : ε} (hx : f x = .error e') :
    FailsFirst f (x :: xs) e ↔ e' = e := by
  constructor
  · rintro ⟨before, y, after, hsplit, hbefore, hy⟩
    cases before with
    | nil =>
        obtain ⟨rfl, -⟩ := List.cons.inj hsplit
        exact Except.error.inj (hx.symm.trans hy)
    | cons z before =>
        obtain ⟨rfl, -⟩ := List.cons.inj hsplit
        obtain ⟨b, hb⟩ := hbefore x List.mem_cons_self
        cases hx.symm.trans hb
  · rintro rfl
    exact ⟨[], x, xs, rfl, fun y hy => absurd hy List.not_mem_nil, hx⟩

theorem failsFirst_cons_of_ok {b : β} (hx : f x = .ok b) :
    FailsFirst f (x :: xs) e ↔ FailsFirst f xs e := by
  constructor
  · rintro ⟨before, y, after, hsplit, hbefore, hy⟩
    cases before with
    | nil =>
        obtain ⟨rfl, -⟩ := List.cons.inj hsplit
        cases hx.symm.trans hy
    | cons z before =>
        obtain ⟨rfl, rfl⟩ := List.cons.inj hsplit
        exact ⟨before, y, after, rfl, fun w hw => hbefore w (List.mem_cons_of_mem x hw), hy⟩
  · rintro ⟨before, y, after, rfl, hbefore, hy⟩
    refine ⟨x :: before, y, after, rfl, fun w hw => ?_, hy⟩
    rcases List.mem_cons.mp hw with rfl | hw
    · exact ⟨b, hx⟩
    · exact hbefore w hw

theorem exists_failsFirst_iff : (∃ e, FailsFirst f xs e) ↔ ∃ x ∈ xs, ∃ e, f x = .error e := by
  induction xs with
  | nil => exact iff_of_false (fun ⟨e, he⟩ => not_failsFirst_nil f e he) (by simp)
  | cons x xs ih =>
      rw [List.exists_mem_cons_iff]
      cases hx : f x with
      | error e =>
          exact iff_of_true ⟨e, (failsFirst_cons_of_error hx).mpr rfl⟩ (Or.inl ⟨e, rfl⟩)
      | ok b =>
          simp only [failsFirst_cons_of_ok hx, ih, reduceCtorEq, exists_false, false_or]

/-- A list is traversed up to the first element that fails. -/
theorem mapM_eq_error_iff : xs.mapM f = .error e ↔ FailsFirst f xs e := by
  induction xs with
  | nil => exact iff_of_false (by simp [pure, Except.pure]) (not_failsFirst_nil f e)
  | cons x xs ih =>
      rw [List.mapM_cons]
      cases hx : f x with
      | error e' =>
          rw [failsFirst_cons_of_error hx]
          simp [bind, Except.bind]
      | ok y =>
          rw [failsFirst_cons_of_ok hx, ← ih]
          cases xs.mapM f <;> simp [bind, Except.bind, pure, Except.pure]

theorem mapM_eq_ok_iff : xs.mapM f = .ok ys ↔ List.Forall₂ (fun x y => f x = .ok y) xs ys := by
  induction xs generalizing ys with
  | nil => simp [pure, Except.pure, eq_comm]
  | cons x xs ih =>
      rw [List.mapM_cons, List.forall₂_cons_left_iff]
      cases hx : f x with
      | error e => simp [bind, Except.bind]
      | ok y =>
          simp only [← ih]
          cases xs.mapM f <;> simp [bind, Except.bind, pure, Except.pure, eq_comm]

end FirstFailure

theorem Path.names_ne_nil (path : String) : names path ≠ [] := by
  rw [names, ne_eq, List.map_eq_nil_iff]
  exact List.splitOn_ne_nil _ _

theorem Path.hasSuffix_iff {suffix path : String} :
    hasSuffix suffix path = true ↔
      ∃ name, (names path).getLast? = some name ∧ suffix.toList <:+ name.toList := by
  have hlast := List.getLast?_eq_some_getLast (names_ne_nil path)
  rw [hasSuffix, List.isSuffixOf_iff_suffix, List.getLastD_eq_getLast?, hlast]
  simp

namespace FileView

variable {ρ μ : Type} {v : FileView ρ μ} {s : Settings} {arg dir file pattern : String}
  {patterns paths files : List String} {rule : ρ} {matcher : μ} {e : CollectError}

/-- Patterns stand for rules, one each. -/
def Reads (v : FileView ρ μ) (patterns : List String) (rules : List ρ) : Prop :=
  List.Forall₂ (fun pattern rule => v.readRule pattern = .ok rule) patterns rules

/-- Patterns stand for no matcher in a directory, for this reason: one of them cannot be read, where the
first such pattern counts, or all of them can be read but not be compiled for the directory. -/
inductive Invalid (v : FileView ρ μ) (patterns : List String) (dir : String) : CollectError → Prop
  | badPattern {before after : List String} {pattern cause : String}
      (hpatterns : patterns = before ++ pattern :: after)
      (hbefore : ∀ other ∈ before, ∃ rule, v.readRule other = .ok rule)
      (hcause : v.readRule pattern = .error cause) : Invalid v patterns dir (.badPattern pattern cause)
  | badPatterns {rules : List ρ} {cause : String} (hrules : v.Reads patterns rules)
      (hcause : v.compile dir rules = .error cause) : Invalid v patterns dir (.badPatterns cause)

/-- An argument names nothing, for this reason: it is neither a file nor a directory, or it is a
directory for which the patterns are invalid. -/
inductive Refuses (v : FileView ρ μ) (s : Settings) (arg : String) : CollectError → Prop
  | notFound (hfile : v.isFile arg = false) (hdir : v.isDir arg = false) :
      Refuses v s arg (.notFound arg)
  | invalid {e : CollectError} (hfile : v.isFile arg = false) (hdir : v.isDir arg = true)
      (hinvalid : v.Invalid s.ignorePatterns arg e) : Refuses v s arg e

/-- The paths that an argument names: itself if it is a file, whatever its suffix, and otherwise the
files of the walk whose names end in the suffix of tree files. -/
inductive Names (v : FileView ρ μ) (s : Settings) (arg : String) : String → Prop
  | file (hfile : v.isFile arg = true) : Names v s arg arg
  | walked {rules : List ρ} {matcher : μ} {file name : String} (hfile : v.isFile arg = false)
      (hdir : v.isDir arg = true) (hrules : v.Reads s.ignorePatterns rules)
      (hmatcher : v.compile arg rules = .ok matcher) (hwalked : file ∈ v.walk matcher arg)
      (hname : (Path.names file).getLast? = some name)
      (hsuffix : s.treeSuffix.toList <:+ name.toList) : Names v s arg file

@[simp] theorem readPattern_eq_error_iff :
    v.readPattern pattern = .error e ↔
      ∃ cause, v.readRule pattern = .error cause ∧ e = .badPattern pattern cause := by
  rw [readPattern]
  cases v.readRule pattern <;> simp [Except.mapError, eq_comm]

@[simp] theorem readPattern_eq_ok_iff :
    v.readPattern pattern = .ok rule ↔ v.readRule pattern = .ok rule := by
  rw [readPattern]
  cases v.readRule pattern <;> simp [Except.mapError]

@[simp] theorem mapM_readPattern_eq_ok_iff {rules : List ρ} :
    patterns.mapM v.readPattern = .ok rules ↔ v.Reads patterns rules := by
  simp [mapM_eq_ok_iff, Reads]

theorem readPatterns_eq_ok_iff :
    v.readPatterns patterns dir = .ok matcher ↔
      ∃ rules, v.Reads patterns rules ∧ v.compile dir rules = .ok matcher := by
  simp only [← mapM_readPattern_eq_ok_iff, readPatterns]
  cases patterns.mapM v.readPattern with
  | error e => simp [bind, Except.bind]
  | ok rules =>
      cases hcompile : v.compile dir rules <;> simp [bind, Except.bind, Except.mapError, hcompile]

theorem readPatterns_eq_error_iff :
    v.readPatterns patterns dir = .error e ↔ v.Invalid patterns dir e := by
  rw [readPatterns]
  constructor
  · intro herror
    cases hrules : patterns.mapM v.readPattern with
    | error e' =>
        rw [hrules] at herror
        cases herror
        obtain ⟨before, pattern, after, hsplit, hbefore, hfails⟩ := mapM_eq_error_iff.mp hrules
        obtain ⟨cause, hcause, rfl⟩ := readPattern_eq_error_iff.mp hfails
        simp only [readPattern_eq_ok_iff] at hbefore
        exact .badPattern hsplit hbefore hcause
    | ok rules =>
        rw [hrules] at herror
        cases hcompile : v.compile dir rules with
        | ok matcher => simp [bind, Except.bind, hcompile, Except.mapError] at herror
        | error cause =>
            simp only [bind, Except.bind, hcompile, Except.mapError, Except.error.injEq] at herror
            obtain rfl := herror
            exact .badPatterns (mapM_readPattern_eq_ok_iff.mp hrules) hcompile
  · intro hinvalid
    cases hinvalid with
    | badPattern hsplit hbefore hcause =>
        simp only [← readPattern_eq_ok_iff] at hbefore
        have hfails := readPattern_eq_error_iff.mpr ⟨_, hcause, rfl⟩
        rw [mapM_eq_error_iff.mpr ⟨_, _, _, hsplit, hbefore, hfails⟩]
        rfl
    | badPatterns hrules hcause =>
        rw [mapM_readPattern_eq_ok_iff.mpr hrules]
        simp [bind, Except.bind, hcause, Except.mapError]

/-- Patterns are invalid exactly if one of them cannot be read or all of them not be compiled. -/
theorem exists_invalid_iff :
    (∃ e, v.Invalid patterns dir e) ↔
      (∃ pattern ∈ patterns, ∃ cause, v.readRule pattern = .error cause) ∨
        ∃ rules cause, v.Reads patterns rules ∧ v.compile dir rules = .error cause := by
  constructor
  · rintro ⟨e, hinvalid⟩
    cases hinvalid with
    | badPattern hsplit _ hcause => exact Or.inl ⟨_, by simp [hsplit], _, hcause⟩
    | badPatterns hrules hcause => exact Or.inr ⟨_, _, hrules, hcause⟩
  · rintro (⟨pattern, hmem, cause, hcause⟩ | ⟨rules, cause, hrules, hcause⟩)
    · have hfails : ∃ pattern ∈ patterns, ∃ e, v.readPattern pattern = .error e :=
        ⟨pattern, hmem, _, readPattern_eq_error_iff.mpr ⟨cause, hcause, rfl⟩⟩
      obtain ⟨e, before, first, after, hsplit, hbefore, hfirst⟩ := exists_failsFirst_iff.mpr hfails
      obtain ⟨cause, hcause, rfl⟩ := readPattern_eq_error_iff.mp hfirst
      simp only [readPattern_eq_ok_iff] at hbefore
      exact ⟨_, .badPattern hsplit hbefore hcause⟩
    · exact ⟨_, .badPatterns hrules hcause⟩

theorem expand_file (s : Settings) (hfile : v.isFile arg = true) : v.expand s arg = .ok [arg] :=
  if_pos hfile

theorem expand_nothing (s : Settings) (hfile : v.isFile arg = false) (hdir : v.isDir arg = false) :
    v.expand s arg = .error (.notFound arg) := by
  simp [expand, hfile, hdir]

theorem expand_dir (s : Settings) (hfile : v.isFile arg = false) (hdir : v.isDir arg = true) :
    v.expand s arg = (v.readPatterns s.ignorePatterns arg).map fun matcher =>
      (v.walk matcher arg).filter (Path.hasSuffix s.treeSuffix) := by
  simp only [expand, hfile, hdir, Bool.false_eq_true, if_false, if_true]
  cases v.readPatterns s.ignorePatterns arg <;> rfl

theorem expand_eq_error_iff : v.expand s arg = .error e ↔ v.Refuses s arg e := by
  constructor
  · intro herror
    cases hfile : v.isFile arg with
    | true =>
        rw [expand_file s hfile] at herror
        cases herror
    | false =>
        cases hdir : v.isDir arg with
        | false =>
            rw [expand_nothing s hfile hdir] at herror
            cases herror
            exact .notFound hfile hdir
        | true =>
            rw [expand_dir s hfile hdir] at herror
            cases hpatterns : v.readPatterns s.ignorePatterns arg with
            | ok matcher =>
                rw [hpatterns] at herror
                cases herror
            | error e' =>
                rw [hpatterns] at herror
                cases herror
                exact .invalid hfile hdir (readPatterns_eq_error_iff.mp hpatterns)
  · intro hrefuses
    cases hrefuses with
    | notFound hfile hdir => exact expand_nothing s hfile hdir
    | invalid hfile hdir hinvalid =>
        rw [expand_dir s hfile hdir, readPatterns_eq_error_iff.mpr hinvalid]
        rfl

theorem mem_expand_iff (hok : v.expand s arg = .ok files) : file ∈ files ↔ v.Names s arg file := by
  cases hfile : v.isFile arg with
  | true =>
      rw [expand_file s hfile, Except.ok.injEq] at hok
      rw [← hok, List.mem_singleton]
      constructor
      · rintro rfl
        exact .file hfile
      · intro hnames
        cases hnames with
        | file => rfl
        | walked hnot => rw [hfile] at hnot; cases hnot
  | false =>
      cases hdir : v.isDir arg with
      | false =>
          rw [expand_nothing s hfile hdir] at hok
          cases hok
      | true =>
          rw [expand_dir s hfile hdir] at hok
          cases hmatcher : v.readPatterns s.ignorePatterns arg with
          | error e =>
              rw [hmatcher] at hok
              cases hok
          | ok matcher =>
              rw [hmatcher] at hok
              cases hok
              rw [List.mem_filter, Path.hasSuffix_iff]
              constructor
              · rintro ⟨hwalked, name, hname, hsuffix⟩
                obtain ⟨rules, hrules, hcompile⟩ := readPatterns_eq_ok_iff.mp hmatcher
                exact .walked hfile hdir hrules hcompile hwalked hname hsuffix
              · intro hnames
                cases hnames with
                | file hyes => rw [hfile] at hyes; cases hyes
                | walked _ _ hrules hcompile hwalked hname hsuffix =>
                    have hread := readPatterns_eq_ok_iff.mpr ⟨_, hrules, hcompile⟩
                    obtain rfl := Except.ok.inj (hmatcher.symm.trans hread)
                    exact ⟨hwalked, _, hname, hsuffix⟩

/-- An argument is refused exactly if it is neither a file nor a directory, or a directory for which the
patterns are invalid. -/
theorem exists_refuses_iff :
    (∃ e, v.Refuses s arg e) ↔
      v.isFile arg = false ∧ (v.isDir arg = false ∨ ∃ e, v.Invalid s.ignorePatterns arg e) := by
  constructor
  · rintro ⟨e, hrefuses⟩
    cases hrefuses with
    | notFound hfile hdir => exact ⟨hfile, Or.inl hdir⟩
    | invalid hfile _ hinvalid => exact ⟨hfile, Or.inr ⟨e, hinvalid⟩⟩
  · rintro ⟨hfile, hwhy⟩
    cases hdir : v.isDir arg with
    | false => exact ⟨_, .notFound hfile hdir⟩
    | true =>
        obtain ⟨e, hinvalid⟩ := hwhy.resolve_left (by simp [hdir])
        exact ⟨e, .invalid hfile hdir hinvalid⟩

theorem collect_eq (v : FileView ρ μ) (s : Settings) (paths : List String) :
    v.collect s paths = (paths.mapM (v.expand s)).map fun named => Path.sortedUnion named.flatten := by
  rw [collect]
  cases paths.mapM (v.expand s) <;> rfl

theorem collect_eq_error_iff :
    v.collect s paths = .error e ↔ FailsFirst (v.expand s) paths e := by
  rw [collect_eq, ← mapM_eq_error_iff]
  cases paths.mapM (v.expand s) <;> simp [Except.map]

theorem mem_flatten_iff {named : List (List String)}
    (hnamed : List.Forall₂ (fun arg files => v.expand s arg = .ok files) paths named) :
    file ∈ named.flatten ↔ ∃ arg ∈ paths, v.Names s arg file := by
  induction hnamed with
  | nil => simp
  | cons hfirst _ ih =>
      rw [List.flatten_cons, List.mem_append, mem_expand_iff hfirst, ih, List.exists_mem_cons_iff]

/-- What is collected is the sorted union of what the arguments name. -/
theorem exists_sortedUnion_of_collect (hok : v.collect s paths = .ok files) :
    ∃ named, files = Path.sortedUnion named ∧
      ∀ file, file ∈ named ↔ ∃ arg ∈ paths, v.Names s arg file := by
  rw [collect_eq] at hok
  cases hnamed : paths.mapM (v.expand s) with
  | error e =>
      rw [hnamed] at hok
      cases hok
  | ok named =>
      rw [hnamed] at hok
      cases hok
      exact ⟨_, rfl, fun file => mem_flatten_iff (mapM_eq_ok_iff.mp hnamed)⟩

theorem refuses_of_failsFirst (hfails : FailsFirst (v.expand s) paths e) :
    ∃ before arg after, paths = before ++ arg :: after ∧
      (∀ other ∈ before, ∀ e', ¬v.Refuses s other e') ∧ v.Refuses s arg e := by
  obtain ⟨before, arg, after, hsplit, hbefore, harg⟩ := hfails
  refine ⟨before, arg, after, hsplit, fun other hother e' hrefuses => ?_, expand_eq_error_iff.mp harg⟩
  obtain ⟨named, hnamed⟩ := hbefore other hother
  cases hnamed.symm.trans (expand_eq_error_iff.mpr hrefuses)

theorem failsFirst_of_refuses {before after : List String} (harg : v.Refuses s arg e)
    (hbefore : ∀ other ∈ before, ∀ e', ¬v.Refuses s other e') :
    FailsFirst (v.expand s) (before ++ arg :: after) e := by
  refine ⟨before, arg, after, rfl, fun other hother => ?_, expand_eq_error_iff.mpr harg⟩
  cases hnamed : v.expand s other with
  | ok named => exact ⟨named, rfl⟩
  | error e' => exact absurd (expand_eq_error_iff.mp hnamed) (hbefore other hother e')

theorem exists_collect_eq_error_iff :
    (∃ e, v.collect s paths = .error e) ↔ ∃ arg ∈ paths, ∃ e, v.Refuses s arg e := by
  simp only [collect_eq_error_iff, exists_failsFirst_iff, expand_eq_error_iff]

theorem exists_collect_eq_ok (hall : ∀ arg ∈ paths, ∀ e, ¬v.Refuses s arg e) :
    ∃ files, v.collect s paths = .ok files := by
  cases hcollect : v.collect s paths with
  | ok files => exact ⟨files, rfl⟩
  | error e =>
      obtain ⟨arg, harg, e', hrefuses⟩ := exists_collect_eq_error_iff.mp ⟨e, hcollect⟩
      exact absurd hrefuses (hall arg harg e')

theorem not_refuses_of_collect (hok : v.collect s paths = .ok files) :
    ∀ arg ∈ paths, ∀ e, ¬v.Refuses s arg e := by
  intro arg harg e hrefuses
  obtain ⟨e', he'⟩ := exists_collect_eq_error_iff.mpr ⟨arg, harg, e, hrefuses⟩
  cases hok.symm.trans he'

/-- The files are those that the arguments name, each path in one of its spellings. -/
theorem exists_same_collect_iff (hok : v.collect s paths = .ok files) (path : String) :
    (∃ p ∈ files, Path.same p path = true) ↔
      ∃ arg ∈ paths, ∃ p, v.Names s arg p ∧ Path.same p path = true := by
  obtain ⟨named, rfl, hnamed⟩ := exists_sortedUnion_of_collect hok
  rw [Path.exists_same_sortedUnion_iff]
  constructor
  · rintro ⟨p, hp, hsame⟩
    obtain ⟨arg, harg, hnames⟩ := (hnamed p).mp hp
    exact ⟨arg, harg, p, hnames, hsame⟩
  · rintro ⟨arg, harg, p, hnames, hsame⟩
    exact ⟨p, (hnamed p).mpr ⟨arg, harg, hnames⟩, hsame⟩

theorem exists_names_of_mem_collect (hok : v.collect s paths = .ok files) (hfile : file ∈ files) :
    ∃ arg ∈ paths, v.Names s arg file := by
  obtain ⟨named, rfl, hnamed⟩ := exists_sortedUnion_of_collect hok
  exact (hnamed file).mp (Path.mem_of_mem_sortedUnion hfile)

theorem pairwise_lt_collect (hok : v.collect s paths = .ok files) :
    files.Pairwise fun a b => Path.components a < Path.components b := by
  obtain ⟨named, rfl, -⟩ := exists_sortedUnion_of_collect hok
  exact Path.pairwise_lt_sortedUnion named

/-- Arguments in another order or number name the same files. -/
theorem collect_congr {paths' : List String} (hok : v.collect s paths = .ok files)
    (hpaths : ∀ arg, arg ∈ paths' ↔ arg ∈ paths) :
    ∃ files', v.collect s paths' = .ok files' ∧
      List.Forall₂ (fun a b => Path.same a b = true) files files' := by
  have hall : ∀ arg ∈ paths', ∀ e, ¬v.Refuses s arg e :=
    fun arg harg => not_refuses_of_collect hok arg ((hpaths arg).mp harg)
  obtain ⟨files', hok'⟩ := exists_collect_eq_ok hall
  refine ⟨files', hok', ?_⟩
  obtain ⟨named, rfl, hnamed⟩ := exists_sortedUnion_of_collect hok
  obtain ⟨named', rfl, hnamed'⟩ := exists_sortedUnion_of_collect hok'
  apply Path.sortedUnion_congr
  intro c
  simp only [List.mem_map, hnamed, hnamed', hpaths]

/-- **Collecting files is a sorted union.** For any file system and any way to read and to compile
patterns, it fails exactly if some argument is neither a file nor a directory, or a directory while some
pattern cannot be read or the patterns cannot be compiled for it, and then with the error of the first
such argument. Otherwise the answer is strictly increasing in the order of paths, it holds the paths that
the arguments name and no others, as they are spelled there, and other arguments that are the same up to
order and repetition give the same paths. -/
theorem collect_sorted_union (v : FileView ρ μ) (s : Settings) (paths : List String) :
    ((∃ e, v.collect s paths = .error e) ↔
      ∃ arg ∈ paths, v.isFile arg = false ∧ (v.isDir arg = false ∨
        (∃ pattern ∈ s.ignorePatterns, ∃ cause, v.readRule pattern = .error cause) ∨
        ∃ rules cause, v.Reads s.ignorePatterns rules ∧ v.compile arg rules = .error cause)) ∧
    (∀ e, v.collect s paths = .error e ↔
      ∃ before arg after, paths = before ++ arg :: after ∧
        (∀ other ∈ before, ∀ e', ¬v.Refuses s other e') ∧ v.Refuses s arg e) ∧
    ∀ files, v.collect s paths = .ok files →
      files.Pairwise (fun a b => Path.components a < Path.components b) ∧
      (∀ path, (∃ p ∈ files, Path.components p = Path.components path) ↔
        ∃ arg ∈ paths, ∃ p, v.Names s arg p ∧ Path.components p = Path.components path) ∧
      (∀ p ∈ files, ∃ arg ∈ paths, v.Names s arg p) ∧
      ∀ paths', (∀ arg, arg ∈ paths' ↔ arg ∈ paths) →
        ∃ files', v.collect s paths' = .ok files' ∧
          List.Forall₂ (fun a b => Path.components a = Path.components b) files files' := by
  refine ⟨?_, fun e => ⟨fun herror => ?_, ?_⟩, fun files hok => ⟨?_, fun path => ?_, ?_, ?_⟩⟩
  · simp only [exists_collect_eq_error_iff, exists_refuses_iff, exists_invalid_iff]
  · exact refuses_of_failsFirst (collect_eq_error_iff.mp herror)
  · rintro ⟨before, arg, after, rfl, hbefore, harg⟩
    exact collect_eq_error_iff.mpr (failsFirst_of_refuses harg hbefore)
  · exact pairwise_lt_collect hok
  · simpa using exists_same_collect_iff hok path
  · exact fun p hp => exists_names_of_mem_collect hok hp
  · intro paths' hpaths
    simpa using collect_congr hok hpaths

/-- A directory `a` with a tree file and another file in it, and a file `a-b` beside it. The tree file is
named twice and comes before `a-b`, whichever way the arguments are given. Of two arguments that name
nothing, the first is the error. A pattern that cannot be read, or one that can be read but has too many
groups in each other to be compiled, is an error once there is a directory. -/
theorem collect_sorted_union_overlap :
    let groups := String.ofList (List.replicate 250 '{' ++ 'c' :: List.replicate 250 '}')
    let unread := "error parsing glob '[z-a]': invalid range; 'z' > 'a'"
    let uncompiled := "error parsing pattern 0"
    let v : FileView String Unit :=
      { isFile := fun p => p == "a-b" || p == "a/b.tree.json"
        isDir := fun p => p == "a"
        readRule := fun p => if p = "[z-a]" then .error unread else .ok p
        compile := fun _ rules => if rules = [groups] then .error uncompiled else .ok ()
        walk := fun _ _ => ["a/b.tree.json", "a/notes.md"] }
    let under : List String → Settings := fun patterns =>
      { Settings.default with ignorePatterns := patterns }
    v.collect .default ["a", "a/b.tree.json", "a-b"] = .ok ["a/b.tree.json", "a-b"] ∧
    (∃ files, v.collect .default ["a-b", "a", "a/b.tree.json", "a"] = .ok files ∧
      List.Forall₂ (fun a b => Path.components a = Path.components b) ["a/b.tree.json", "a-b"] files) ∧
    v.collect .default ["a", "c", "b"] = .error (.notFound "c") ∧
    v.collect (under ["*.md", "[z-a]"]) ["a-b", "a", "c"] = .error (.badPattern "[z-a]" unread) ∧
    v.collect (under [groups]) ["a-b", "a", "c"] = .error (.badPatterns uncompiled) := by
  intro groups unread uncompiled v under
  have hgroups : groups ≠ "[z-a]" := by
    intro hsame
    have hhead : groups.toList.head? = some '{' := by
      rw [String.toList_ofList]
      rfl
    rw [hsame] at hhead
    exact absurd hhead (by decide)
  clear_value groups
  have hsorted : Path.sortedUnion ["a/b.tree.json", "a/b.tree.json", "a-b"] =
      ["a/b.tree.json", "a-b"] := by
    rw [Path.sortedUnion, List.mergeSort_of_pairwise (by decide)]
    decide
  have hnamed : v.collect .default ["a", "a/b.tree.json", "a-b"] =
      .ok (Path.sortedUnion ["a/b.tree.json", "a/b.tree.json", "a-b"]) := rfl
  have hok := hnamed.trans (congrArg Except.ok hsorted)
  have hread : v.readRule groups = .ok groups := if_neg hgroups
  have hcompile : v.compile "a" [groups] = .error uncompiled := if_pos rfl
  obtain ⟨-, -, hunion⟩ := collect_sorted_union v .default ["a", "a/b.tree.json", "a-b"]
  obtain ⟨-, hmissing, -⟩ := collect_sorted_union v .default ["a", "c", "b"]
  obtain ⟨-, hunread, -⟩ := collect_sorted_union v (under ["*.md", "[z-a]"]) ["a-b", "a", "c"]
  obtain ⟨-, huncompiled, -⟩ := collect_sorted_union v (under [groups]) ["a-b", "a", "c"]
  have hfile : ∀ s, ∀ other ∈ ["a-b"], ∀ e, ¬v.Refuses s other e := by
    intro s other hother e hrefuses
    rw [List.mem_singleton.mp hother] at hrefuses
    cases expand_eq_error_iff.mpr hrefuses
  refine ⟨hok, (hunion _ hok).2.2.2 _ fun arg => ?_, (hmissing _).mpr ⟨["a"], "c", ["b"], rfl, ?_, ?_⟩,
    (hunread _).mpr ⟨["a-b"], "a", ["c"], rfl, hfile _, .invalid rfl rfl ?_⟩,
    (huncompiled _).mpr ⟨["a-b"], "a", ["c"], rfl, hfile _, .invalid rfl rfl ?_⟩⟩
  · simp only [List.mem_cons, List.not_mem_nil, or_false]
    tauto
  · intro other hother e hrefuses
    rw [List.mem_singleton.mp hother] at hrefuses
    cases expand_eq_error_iff.mpr hrefuses
  · exact .notFound rfl rfl
  · have hsplit : ["*.md", "[z-a]"] = ["*.md"] ++ "[z-a]" :: [] := rfl
    refine .badPattern hsplit (fun other hother => ?_) rfl
    rw [List.mem_singleton.mp hother]
    exact ⟨_, rfl⟩
  · exact .badPatterns (.cons hread .nil) hcompile

end FileView

end Uncaught
