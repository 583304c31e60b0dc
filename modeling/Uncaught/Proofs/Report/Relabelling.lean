import Mathlib.Data.List.Forall2
import Uncaught.Proofs.Report.Counters
import Uncaught.Proofs.Report.FirstRequest

/-!
Suppression only relabels. What is found depends on the policy and the trees alone; the suppressions of
an analyzer are applied to each finding afterwards and change its labels: severity, suppression and
hint. All findings are of one issue, so either all of them are suppressed or none is, and the request
that counts is the first one for that issue.
-/

namespace Uncaught

namespace Suppressions

theorem lookup_map_pair (ids : List String) (source : SuppressionSource) (x : String) :
    (ids.map fun id => (id, source)).lookup x = if x ∈ ids then some source else none := by
  by_cases hx : x ∈ ids
  · rw [if_pos hx]
    exact List.lookup_graph (fun _ => source) hx
  · rw [if_neg hx, List.lookup_eq_none_iff]
    intro request hrequest
    obtain ⟨id, hid, rfl⟩ := List.mem_map.mp hrequest
    exact bne_iff_ne.mpr fun heq => hx (heq ▸ hid)

end Suppressions

namespace Analyzer

/-- An analyzer with a history: the suppressions of a configuration, then requests of the user. -/
def withHistory (policy : Policy) (config requests : List String) : Analyzer :=
  requests.foldl .suppress (configured policy config)

theorem foldl_suppress (a : Analyzer) (requests : List String) :
    requests.foldl .suppress a =
      ⟨a.policy, a.suppressions.suppressAll (requests.map fun id => (id, .flag))⟩ := by
  induction requests generalizing a with
  | nil => rfl
  | cons request requests ih => exact ih (a.suppress request)

theorem withHistory_policy (p : Policy) (config requests : List String) :
    (withHistory p config requests).policy = p := by
  rw [withHistory, foldl_suppress]
  rfl

/-- The configuration comes before the user. -/
theorem source?_withHistory (p : Policy) (config requests : List String) (x : String) :
    (withHistory p config requests).suppressions.source? x =
      if x ∈ config then some .config else if x ∈ requests then some .flag else none := by
  rw [withHistory, foldl_suppress, configured, ← Suppressions.suppressAll_append,
    Suppressions.source?_suppressAll_empty, List.lookup_append, Suppressions.lookup_map_pair,
    Suppressions.lookup_map_pair]
  by_cases hconfig : x ∈ config
  · rw [if_pos hconfig, if_pos hconfig, Option.some_or]
  · rw [if_neg hconfig, if_neg hconfig, Option.none_or]

end Analyzer

/-- The violations differ at most in their labels. -/
def Violation.SameFinding (v w : Violation) : Prop :=
  { v with severity := w.severity, suppressed := w.suppressed, suppressHint := w.suppressHint } = w

theorem Suppressions.sameFinding_apply (s s' : Suppressions) (v : Violation) :
    (s.apply v).SameFinding (s'.apply v) := by
  rw [Violation.SameFinding, apply, apply]
  cases s.source? v.issueId <;> cases s'.source? v.issueId <;> rfl

namespace Analyzer

variable {a b : Analyzer} {trees : List SyntaxTree} {v : Violation}

/-- A call is judged first and the result labelled afterwards. -/
theorem analyzeCall_eq_map (a : Analyzer) (t : SyntaxTree) (source : Option String) (id : NodeId) :
    a.analyzeCall t source id =
      ((new a.policy).analyzeCall t source id).map a.suppressions.apply := by
  by_cases hkotlin : t.language = .kotlin
  · rw [analyzeCall, analyzeCall, if_pos hkotlin, if_pos hkotlin]
    change a.report? (t.verdict a.policy source id) =
      ((new a.policy).report? (t.verdict a.policy source id)).map a.suppressions.apply
    cases t.verdict a.policy source id <;> rfl
  · rw [a.analyzeCall_of_ne_kotlin hkotlin, (new a.policy).analyzeCall_of_ne_kotlin hkotlin,
      Option.map_none]

theorem violations_eq_map (a : Analyzer) (trees : List SyntaxTree) :
    (a.analyze trees).violations =
      ((new a.policy).analyze trees).violations.map a.suppressions.apply := by
  simp only [analyze_violations_eq, analyzeTree_violations_eq, List.map_flatMap, List.map_filterMap]
  simp only [a.analyzeCall_eq_map]

theorem filesAnalyzed_eq (a : Analyzer) (trees : List SyntaxTree) :
    (a.analyze trees).filesAnalyzed = trees.map (·.file) := rfl

theorem analyzeTree_info_congr (hpolicy : a.policy = b.policy) (t : SyntaxTree) :
    (a.analyzeTree t).info = (b.analyzeTree t).info := by
  have hverdicts : a.verdicts t = b.verdicts t := by rw [verdicts_eq, verdicts_eq, hpolicy]
  rw [analyzeTree, analyzeTree, hverdicts]
  split <;> rfl

theorem analyze_info_congr (hpolicy : a.policy = b.policy) (trees : List SyntaxTree) :
    (a.analyze trees).info = (b.analyze trees).info := by
  rw [analyze_info_eq, analyze_info_eq]
  simp only [analyzeTree_info_congr hpolicy]

/-- Two analyzers with one policy find the same and differ in the labels. -/
theorem violations_sameFinding (hpolicy : a.policy = b.policy) (trees : List SyntaxTree) :
    List.Forall₂ Violation.SameFinding (a.analyze trees).violations (b.analyze trees).violations := by
  rw [violations_eq_map a, violations_eq_map b, hpolicy, List.forall₂_map_left_iff,
    List.forall₂_map_right_iff, List.forall₂_same]
  intro v _
  exact a.suppressions.sameFinding_apply b.suppressions v

theorem exists_eq_apply (hv : v ∈ (a.analyze trees).violations) :
    ∃ file source c, v = a.suppressions.apply (.ofCall a.policy file source c) := by
  obtain ⟨t, -, id, hcall⟩ := exists_analyzeCall_of_mem hv
  obtain ⟨-, w, hverdict, rfl⟩ := analyzeCall_eq_some_iff.mp hcall
  obtain ⟨c, -, -, -, -, -, -, rfl⟩ := (SyntaxTree.verdict_eq_violation_iff _ _).mp hverdict
  exact ⟨t.file, t.source, c, rfl⟩

/-- The labels of every violation in a report, by who asked for the suppression first. -/
theorem labels_eq (hv : v ∈ (a.analyze trees).violations) :
    v.suppressed = (a.suppressions.source? Issue.checkedExceptionNotCaught.id).isSome ∧
      v.suppressHint = (a.suppressions.source? Issue.checkedExceptionNotCaught.id).map
        (Suppressions.hint Issue.checkedExceptionNotCaught.id) := by
  obtain ⟨file, source, c, rfl⟩ := exists_eq_apply hv
  have hissue : (Violation.ofCall a.policy file source c).issueId =
      Issue.checkedExceptionNotCaught.id := rfl
  rw [Suppressions.apply, hissue]
  cases a.suppressions.source? Issue.checkedExceptionNotCaught.id with
  | none => exact ⟨rfl, rfl⟩
  | some first => exact ⟨rfl, rfl⟩

theorem active_eq_nil_iff (a : Analyzer) (trees : List SyntaxTree) :
    (a.analyze trees).active = [] ↔ (a.analyze trees).violations = [] ∨
      (a.suppressions.source? Issue.checkedExceptionNotCaught.id).isSome = true := by
  rw [AnalysisResult.active, List.filter_eq_nil_iff]
  constructor
  · intro hall
    cases hviolations : (a.analyze trees).violations with
    | nil => exact Or.inl rfl
    | cons v rest =>
        have hv : v ∈ (a.analyze trees).violations := by simp [hviolations]
        have hsuppressed := hall v hv
        rw [(labels_eq hv).1, Bool.not_eq_true, Bool.not_eq_false'] at hsuppressed
        exact Or.inr hsuppressed
  · rintro (hnone | hsuppressed) v hv
    · rw [hnone] at hv
      cases hv
    · rw [(labels_eq hv).1, hsuppressed]
      simp

theorem status_eq_ok_iff (a : Analyzer) (trees : List SyntaxTree) :
    (a.analyze trees).status = "ok" ↔ (a.analyze trees).active = [] := by
  rw [status_eq, AnalysisResult.active, List.filter_eq_nil_iff]
  split
  next hany => simpa using hany
  next hnone => simpa using hnone

theorem all_suppressed_or_none (a : Analyzer) (trees : List SyntaxTree) :
    (∀ v ∈ (a.analyze trees).violations, v.suppressed = true) ∨
      ∀ v ∈ (a.analyze trees).violations, v.suppressed = false := by
  cases hsuppressed : (a.suppressions.source? Issue.checkedExceptionNotCaught.id).isSome with
  | true => exact Or.inl fun v hv => (labels_eq hv).1.trans hsuppressed
  | false => exact Or.inr fun v hv => (labels_eq hv).1.trans hsuppressed

theorem isSome_source?_withHistory (p : Policy) (config requests : List String) (x : String) :
    ((withHistory p config requests).suppressions.source? x).isSome = true ↔
      x ∈ config ∨ x ∈ requests := by
  rw [source?_withHistory]
  by_cases hconfig : x ∈ config
  · simp [hconfig]
  · by_cases hrequest : x ∈ requests
    · simp [hconfig, hrequest]
    · simp [hconfig, hrequest]

/-- The hint tells who asked first. -/
theorem suppressHint_eq {p : Policy} {config requests : List String}
    (hv : v ∈ ((withHistory p config requests).analyze trees).violations)
    (hsuppressed : v.suppressed = true) :
    v.suppressHint = some (Suppressions.hint Issue.checkedExceptionNotCaught.id
      (if Issue.checkedExceptionNotCaught.id ∈ config then .config else .flag)) := by
  obtain ⟨hlabel, hhint⟩ := labels_eq hv
  rw [hlabel, isSome_source?_withHistory] at hsuppressed
  rw [hhint, source?_withHistory]
  by_cases hconfig : Issue.checkedExceptionNotCaught.id ∈ config
  · rw [if_pos hconfig, if_pos hconfig, Option.map_some]
  · rw [if_neg hconfig, if_neg hconfig, if_pos (hsuppressed.resolve_left hconfig), Option.map_some]

/-- **Suppression only relabels.** Analyzers with one policy and any two histories of requests find the
same in the same trees, up to the labels. In one report either all violations are suppressed or none
is; the report is clean exactly if its status says so, if nothing in it is active, and if there is
nothing in it or the issue has been suppressed; and a suppressed violation tells whether the
configuration or only the user asked for it. -/
theorem suppression_relabels (p : Policy) (trees : List SyntaxTree) :
    (∀ config requests config' requests' : List String,
      let r := (withHistory p config requests).analyze trees
      let r' := (withHistory p config' requests').analyze trees
      r.filesAnalyzed = r'.filesAnalyzed ∧ r.info = r'.info ∧
        r.violations.length = r'.violations.length ∧
        List.Forall₂ Violation.SameFinding r.violations r'.violations) ∧
    ∀ config requests : List String,
      let r := (withHistory p config requests).analyze trees
      ((∀ v ∈ r.violations, v.suppressed = true) ∨ ∀ v ∈ r.violations, v.suppressed = false) ∧
      (r.isClean = true ↔ r.status = "ok") ∧ (r.status = "ok" ↔ r.active = []) ∧
      (r.active = [] ↔ r.violations = [] ∨ "CheckedExceptionNotCaught" ∈ config ∨
        "CheckedExceptionNotCaught" ∈ requests) ∧
      ∀ v ∈ r.violations, v.suppressed = true →
        (v.suppressHint = some "Suppressed CheckedExceptionNotCaught via throwguard.json" ↔
          "CheckedExceptionNotCaught" ∈ config) ∧
        ("CheckedExceptionNotCaught" ∉ config →
          v.suppressHint = some "Suppressed CheckedExceptionNotCaught via --suppress flag") := by
  constructor
  · intro config requests config' requests' r r'
    have hpolicy : (withHistory p config requests).policy = (withHistory p config' requests').policy := by
      rw [withHistory_policy, withHistory_policy]
    have hsame := violations_sameFinding hpolicy trees
    have hfiles : r.filesAnalyzed = r'.filesAnalyzed := by rw [filesAnalyzed_eq, filesAnalyzed_eq]
    exact ⟨hfiles, analyze_info_congr hpolicy trees, hsame.length_eq, hsame⟩
  · intro config requests r
    have hok := status_eq_ok_iff (withHistory p config requests) trees
    have hclean : r.isClean = true ↔ r.active = [] := List.isEmpty_iff
    refine ⟨all_suppressed_or_none _ trees, hclean.trans hok.symm, hok, ?_, ?_⟩
    · rw [active_eq_nil_iff, isSome_source?_withHistory]
      rfl
    · intro v hv hsuppressed
      rw [suppressHint_eq hv hsuppressed]
      by_cases hconfig : Issue.checkedExceptionNotCaught.id ∈ config
      · rw [if_pos hconfig]
        exact ⟨iff_of_true rfl hconfig, fun hnot => absurd hconfig hnot⟩
      · rw [if_neg hconfig]
        exact ⟨iff_of_false (by decide) hconfig, fun _ => rfl⟩

/-- The nested call is an error at first; suppressed by the configuration and, too late, by the user, it
is information and says that the configuration asked for it. -/
theorem suppression_relabels_nestedCall :
    let p := Policy.ofNames "Checked" "Safe"
    let r := (withHistory p [] []).analyze [.nestedCall]
    let r' := (withHistory p ["Other", "CheckedExceptionNotCaught"]
      ["CheckedExceptionNotCaught"]).analyze [.nestedCall]
    r.info = r'.info ∧ r.violations.length = 1 ∧ r'.violations.length = 1 ∧
    r.isClean = false ∧ r'.isClean = true ∧ r'.status = "ok" ∧
    ∃ v ∈ r'.violations, v.suppressed = true ∧
      v.suppressHint = some "Suppressed CheckedExceptionNotCaught via throwguard.json" := by
  intro p r r'
  obtain ⟨htwo, hone⟩ := suppression_relabels p [.nestedCall]
  obtain ⟨-, hinfo, hlength, -⟩ := htwo [] [] ["Other", "CheckedExceptionNotCaught"]
    ["CheckedExceptionNotCaught"]
  obtain ⟨-, hclean, hok, hactive, hhint⟩ := hone ["Other", "CheckedExceptionNotCaught"]
    ["CheckedExceptionNotCaught"]
  have hstatus : r'.status = "ok" := hok.mpr (hactive.mpr (Or.inr (Or.inl (by decide))))
  have hmem : _ ∈ r'.violations := List.mem_cons_self
  exact ⟨hinfo, rfl, hlength.symm, rfl, hclean.mpr hstatus, hstatus, _, hmem, rfl,
    (hhint _ hmem rfl).1.mpr (by decide)⟩

end Analyzer

end Uncaught
