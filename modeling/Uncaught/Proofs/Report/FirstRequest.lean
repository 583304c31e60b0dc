import Mathlib.Data.Set.Card
import Uncaught.Report.Suppression

/-!
The suppressions keep two records, a set of issues and a list of who asked for them, and answer some
questions from the one and some from the other. Both grow together, so they never disagree: the list
names each issue of the set once, with the first request for it, and what comes later changes nothing.
-/

namespace Uncaught.Suppressions

variable {s : Suppressions} {id x : String} {source : SuppressionSource}

/-- The list of sources names the issues of the set, each once. -/
structure InStep (s : Suppressions) : Prop where
  nodup : (s.sources.map Prod.fst).Nodup
  perm : s.suppressed.Perm (s.sources.map Prod.fst)

@[simp] theorem isSuppressed_iff : s.isSuppressed x = true ↔ x ∈ s.suppressed := List.contains_iff_mem

theorem suppress_of_isSuppressed (hid : s.isSuppressed id = true) (source : SuppressionSource) :
    s.suppress id source = s := by
  rw [suppress, if_pos hid, List.insert_of_mem (isSuppressed_iff.mp hid)]

theorem suppress_of_fresh (hid : ¬s.isSuppressed id = true) (source : SuppressionSource) :
    s.suppress id source = ⟨id :: s.suppressed, s.sources ++ [(id, source)]⟩ := by
  rw [suppress, if_neg hid, List.insert_of_not_mem (mt isSuppressed_iff.mpr hid)]

theorem inStep_empty : empty.InStep := ⟨List.nodup_nil, List.Perm.refl []⟩

theorem InStep.mem_iff (hs : s.InStep) : x ∈ s.sources.map Prod.fst ↔ x ∈ s.suppressed :=
  hs.perm.mem_iff.symm

theorem InStep.suppress (hs : s.InStep) (id : String) (source : SuppressionSource) :
    (s.suppress id source).InStep := by
  by_cases hid : s.isSuppressed id = true
  · rwa [suppress_of_isSuppressed hid]
  · have hfresh : id ∉ s.sources.map Prod.fst := by
      rwa [hs.mem_iff, ← isSuppressed_iff]
    rw [suppress_of_fresh hid]
    constructor
    · rw [List.map_append, List.map_singleton]
      exact (List.perm_append_singleton id _).nodup_iff.mpr (List.nodup_cons.mpr ⟨hfresh, hs.nodup⟩)
    · rw [List.map_append, List.map_singleton]
      exact (hs.perm.cons id).trans (List.perm_append_singleton id _).symm

theorem source?_eq_none_iff : s.source? x = none ↔ x ∉ s.sources.map Prod.fst := by
  rw [source?, List.lookup_eq_none_iff, List.mem_map]
  constructor
  · rintro hall ⟨entry, hentry, rfl⟩
    simpa using hall entry hentry
  · intro hnone entry hentry
    exact bne_iff_ne.mpr fun heq => hnone ⟨entry, hentry, heq.symm⟩

/-- A source is known of exactly the suppressed issues. -/
theorem InStep.exists_source?_iff (hs : s.InStep) :
    (∃ source, s.source? x = some source) ↔ s.isSuppressed x = true := by
  rw [← Option.ne_none_iff_exists', ne_eq, source?_eq_none_iff, not_not, hs.mem_iff, isSuppressed_iff]

/-- A request counts where no earlier one does. -/
theorem InStep.source?_suppress (hs : s.InStep) (id : String) (source : SuppressionSource)
    (x : String) :
    (s.suppress id source).source? x = (s.source? x).or ([(id, source)].lookup x) := by
  by_cases hid : s.isSuppressed id = true
  · rw [suppress_of_isSuppressed hid]
    by_cases hx : x = id
    · obtain ⟨first, hfirst⟩ := hs.exists_source?_iff.mpr (hx ▸ hid)
      rw [hfirst, Option.some_or]
    · have hother : [(id, source)].lookup x = none := by simp [hx]
      rw [hother, Option.or_none]
  · rw [suppress_of_fresh hid]
    exact List.lookup_append

theorem InStep.suppressAll (hs : s.InStep) (requests : List (String × SuppressionSource)) :
    (s.suppressAll requests).InStep := by
  induction requests generalizing s with
  | nil => exact hs
  | cons request requests ih => exact ih (hs.suppress request.1 request.2)

theorem suppressAll_append (s : Suppressions) (requests more : List (String × SuppressionSource)) :
    s.suppressAll (requests ++ more) = (s.suppressAll requests).suppressAll more := List.foldl_append

/-- Of requests one after another the first for an issue counts. -/
theorem InStep.source?_suppressAll (hs : s.InStep) (requests : List (String × SuppressionSource))
    (x : String) : (s.suppressAll requests).source? x = (s.source? x).or (requests.lookup x) := by
  induction requests generalizing s with
  | nil => exact Option.or_none.symm
  | cons request requests ih =>
      calc ((s.suppress request.1 request.2).suppressAll requests).source? x
        _ = ((s.suppress request.1 request.2).source? x).or (requests.lookup x) :=
            ih (hs.suppress request.1 request.2)
        _ = ((s.source? x).or ([request].lookup x)).or (requests.lookup x) := by
            rw [hs.source?_suppress]
        _ = (s.source? x).or ((request :: requests).lookup x) := by
            rw [Option.or_assoc, ← List.lookup_append, List.singleton_append]

theorem source?_suppressAll_empty (requests : List (String × SuppressionSource)) (x : String) :
    (empty.suppressAll requests).source? x = requests.lookup x := by
  rw [inStep_empty.source?_suppressAll]
  exact Option.none_or

/-- Requests for issues that are suppressed already change nothing. -/
theorem suppressAll_of_isSuppressed {requests : List (String × SuppressionSource)}
    (hrequests : ∀ request ∈ requests, s.isSuppressed request.1 = true) :
    s.suppressAll requests = s := by
  induction requests with
  | nil => rfl
  | cons request requests ih =>
      have hrest := ih fun other hother => hrequests other (List.mem_cons_of_mem _ hother)
      have hfirst := hrequests request List.mem_cons_self
      rw [← List.singleton_append, suppressAll_append]
      exact (congrArg (·.suppressAll requests) (suppress_of_isSuppressed hfirst request.2)).trans hrest

theorem apply_of_source?_none {v : Violation} (hsource : s.source? v.issueId = none) :
    s.apply v = v := by
  rw [apply, hsource]

theorem apply_of_source?_some {v : Violation} (hsource : s.source? v.issueId = some source) :
    s.apply v =
      { v with
        severity := .info
        suppressed := true
        suppressHint := some ("Suppressed " ++ v.issueId ++ " via " ++ source.toText) } := by
  rw [apply, hsource]
  rfl

theorem apply_apply (s : Suppressions) (v : Violation) : s.apply (s.apply v) = s.apply v := by
  cases hsource : s.source? v.issueId with
  | none => rw [apply_of_source?_none hsource, apply_of_source?_none hsource]
  | some source =>
      rw [apply_of_source?_some hsource]
      -- the issue is as before, so the same source is found
      exact apply_of_source?_some hsource

/-- A use of the suppressions: a request, a question about an issue, or a violation to be marked. -/
inductive Action where
  | suppress (id : String) (source : SuppressionSource)
  | ask (id : String)
  | mark (v : Violation)

/-- The request that an action is. -/
def Action.request? : Action → Option (String × SuppressionSource)
  | .suppress id source => some (id, source)
  | .ask _ | .mark _ => none

/-- What an action leaves behind. Questions are answered and change nothing. -/
def perform (s : Suppressions) : Action → Suppressions
  | .suppress id source => s.suppress id source
  | .ask _ | .mark _ => s

/-- The suppressions after some actions. -/
def after (actions : List Action) : Suppressions := actions.foldl perform empty

@[simp] theorem foldl_perform (s : Suppressions) (actions : List Action) :
    actions.foldl perform s = s.suppressAll (actions.filterMap Action.request?) := by
  induction actions generalizing s with
  | nil => rfl
  | cons action actions ih =>
      rw [List.foldl_cons, ih]
      cases action with
      | suppress id source => rfl
      | ask _ | mark _ => rfl

@[simp] theorem mem_requests_iff {actions : List Action} :
    (x, source) ∈ actions.filterMap Action.request? ↔ .suppress x source ∈ actions := by
  rw [List.mem_filterMap]
  constructor
  · rintro ⟨action, hmem, hrequest⟩
    cases action with
    | suppress id source =>
        cases hrequest
        exact hmem
    | ask _ | mark _ => cases hrequest
  · intro hmem
    exact ⟨_, hmem, rfl⟩

theorem inStep_after (actions : List Action) : (after actions).InStep := by
  rw [after, foldl_perform]
  exact inStep_empty.suppressAll _

@[simp] theorem source?_after (actions : List Action) (x : String) :
    (after actions).source? x = (actions.filterMap Action.request?).lookup x := by
  rw [after, foldl_perform, source?_suppressAll_empty]

theorem source?_after_eq_none_iff (actions : List Action) (x : String) :
    (after actions).source? x = none ↔ ∀ source, .suppress x source ∉ actions := by
  rw [source?_after, List.lookup_eq_none_iff]
  constructor
  · intro hall source hmem
    simpa using hall (x, source) (mem_requests_iff.mpr hmem)
  · rintro hnone ⟨id, source⟩ hmem
    refine bne_iff_ne.mpr fun heq => hnone source ?_
    exact mem_requests_iff.mp (heq ▸ hmem)

/-- The first request for an issue is the one that is remembered. -/
theorem source?_after_first {earlier later : List Action}
    (hfirst : ∀ other, .suppress x other ∉ earlier) :
    (after (earlier ++ .suppress x source :: later)).source? x = some source := by
  have hnone : (earlier.filterMap Action.request?).lookup x = none := by
    rw [← source?_after, source?_after_eq_none_iff]
    exact hfirst
  rw [source?_after, List.filterMap_append, List.lookup_append, hnone, Option.none_or]
  exact List.lookup_cons_self

theorem isSuppressed_after_iff (actions : List Action) (x : String) :
    (after actions).isSuppressed x = true ↔ ∃ source, .suppress x source ∈ actions := by
  rw [← (inStep_after actions).exists_source?_iff, ← Option.ne_none_iff_exists', ne_eq,
    source?_after_eq_none_iff, not_forall_not]

theorem count_after (actions : List Action) :
    (after actions).count = {x | ∃ source, Action.suppress x source ∈ actions}.ncard := by
  have hnodup : (after actions).suppressed.Nodup :=
    (inStep_after actions).perm.nodup_iff.mpr (inStep_after actions).nodup
  have hset : {x | ∃ source, Action.suppress x source ∈ actions} =
      ↑(after actions).suppressed.toFinset := by
    ext x
    rw [Set.mem_ofPred_eq, ← isSuppressed_after_iff, isSuppressed_iff, Finset.mem_coe, List.mem_toFinset]
  rw [hset, Set.ncard_coe_finset, List.toFinset_card_of_nodup hnodup, count]

theorem after_append_of_isSuppressed {earlier repeats : List Action} (later : List Action)
    (hrepeats : ∀ id source, .suppress id source ∈ repeats →
      ∃ first, .suppress id first ∈ earlier) :
    after (earlier ++ repeats ++ later) = after (earlier ++ later) := by
  have hkeeps : (after earlier).suppressAll (repeats.filterMap Action.request?) = after earlier := by
    apply suppressAll_of_isSuppressed
    rintro ⟨id, source⟩ hmem
    exact (isSuppressed_after_iff earlier id).mpr (hrepeats id source (mem_requests_iff.mp hmem))
  calc after (earlier ++ repeats ++ later)
    _ = later.foldl perform (repeats.foldl perform (after earlier)) := by
        rw [after, List.foldl_append, List.foldl_append]
        rfl
    _ = later.foldl perform (after earlier) := by rw [foldl_perform (after earlier), hkeeps]
    _ = after (earlier ++ later) := by
        rw [after, after, List.foldl_append]

/-- **The first request counts.** After any actions on new suppressions, the list of sources names the
suppressed issues, each once; their number is that of the issues asked for, and an issue is suppressed
exactly if it was asked for. A violation of an issue that was never asked for stays as it is, any other
is marked as information with a hint that names who asked first, and nothing else of it changes. Marking
twice is marking once. Requests for issues that were asked for before can be left out, repeated and
reordered, wherever they stand. -/
theorem first_request_counts (actions : List Action) :
    let s := after actions
    (s.sources.map Prod.fst).Nodup ∧
    (∀ x, x ∈ s.sources.map Prod.fst ↔ x ∈ s.suppressed) ∧
    s.count = {x | ∃ source, Action.suppress x source ∈ actions}.ncard ∧
    (∀ x, s.isSuppressed x = true ↔ ∃ source, .suppress x source ∈ actions) ∧
    (∀ v : Violation, (∀ source, .suppress v.issueId source ∉ actions) → s.apply v = v) ∧
    (∀ (v : Violation) (earlier later : List Action) (source : SuppressionSource),
      actions = earlier ++ .suppress v.issueId source :: later →
      (∀ other, .suppress v.issueId other ∉ earlier) →
      s.apply v =
        { v with
          severity := .info
          suppressed := true
          suppressHint := some ("Suppressed " ++ v.issueId ++ " via " ++ source.toText) }) ∧
    (∀ v, s.apply (s.apply v) = s.apply v) ∧
    ∀ repeats later : List Action,
      (∀ id source, .suppress id source ∈ repeats → ∃ first, .suppress id first ∈ actions) →
      after (actions ++ repeats ++ later) = after (actions ++ later) := by
  have hstep := inStep_after actions
  refine ⟨hstep.nodup, fun x => hstep.mem_iff, count_after actions, isSuppressed_after_iff actions,
    fun v hnone => ?_, fun v earlier later source hactions hfirst => ?_, apply_apply _,
    fun repeats later => after_append_of_isSuppressed later⟩
  · exact apply_of_source?_none ((source?_after_eq_none_iff actions v.issueId).mpr hnone)
  · rw [hactions]
    exact apply_of_source?_some (source?_after_first hfirst)

/-- The configuration asks for an issue, then the user asks for it and for another one. The violation is
marked as the configuration's; one of a third issue is not marked, and asking again changes nothing. -/
theorem first_request_counts_asked_twice :
    let v := Violation.ofCall (.ofNames "Checked" "Safe") "Main.kt" none
      ⟨"open", some ⟨0⟩, ⟨40, 44⟩, ⟨40, 50⟩⟩
    let third := { v with issueId := "Third" }
    let actions : List Action := [.mark v, .suppress "CheckedExceptionNotCaught" .config, .ask "Other",
      .suppress "CheckedExceptionNotCaught" .flag, .suppress "Other" .flag]
    let s := after actions
    s.count = 2 ∧ s.isSuppressed "Other" = true ∧ s.apply third = third ∧
    s.apply v =
      { v with
        severity := .info
        suppressed := true
        suppressHint := some "Suppressed CheckedExceptionNotCaught via throwguard.json" } ∧
    after (actions ++ [.suppress "Other" .config, .suppress "CheckedExceptionNotCaught" .flag]) = s := by
  intro v third actions s
  obtain ⟨-, -, -, hsuppressed, hkept, hmarked, -, hrepeats⟩ := first_request_counts actions
  refine ⟨rfl, (hsuppressed "Other").mpr ⟨.flag, by simp [actions]⟩, ?_, ?_, ?_⟩
  · exact hkept third fun source => by simp [actions, third]
  · exact hmarked v [.mark v] _ .config rfl fun other => by simp
  · have hagain := hrepeats [.suppress "Other" .config, .suppress "CheckedExceptionNotCaught" .flag] []
      fun id source hmem => by
        rcases List.mem_pair.mp hmem with heq | heq
        · cases heq
          exact ⟨.flag, by simp [actions]⟩
        · cases heq
          exact ⟨.config, by simp [actions]⟩
    rwa [List.append_nil, List.append_nil] at hagain

end Uncaught.Suppressions
