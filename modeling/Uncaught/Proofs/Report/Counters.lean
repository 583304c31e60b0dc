import Mathlib.Algebra.BigOperators.Group.List.Basic
import Mathlib.Algebra.Order.Ring.Nat
import Uncaught.Proofs.Report.PerCall
import Uncaught.Proofs.Text.LineStarts

/-!
What the counters of a report count. Every verdict adds to the number of calls and, by its outcome, to
at most two further counters, so the counters of a tree are numbers of outcomes; and what the outcome
of a call is depends, up to the choice between the checked outcomes, on what the call resolves to. The
counters of a run are the sums of those of its trees, in whatever order these come.
-/

namespace Uncaught

/-- The kind of a verdict. -/
inductive Outcome where
  | unresolved
  | unchecked
  | handled
  | exempt
  | skipped
  | violation
  deriving DecidableEq, Repr

def Verdict.outcome : Verdict → Outcome
  | .unresolved => .unresolved
  | .unchecked => .unchecked
  | .handled _ => .handled
  | .exempt _ => .exempt
  | .skipped => .skipped
  | .violation _ => .violation

/-- The outcome of a call that throws the checked exception. -/
def Outcome.isChecked : Outcome → Bool
  | .unresolved | .unchecked => false
  | .handled | .exempt | .skipped | .violation => true

namespace AnalysisInfo

/-- The counters, one by one. -/
def counters : List (AnalysisInfo → UInt32) :=
  [callSites, checkedCalls, handled, exempted, unresolved, skippedMalformed, skippedFiles]

theorem counter_zero {counter : AnalysisInfo → UInt32} (hcounter : counter ∈ counters) :
    counter zero = 0 := by
  simp only [counters, List.mem_cons, List.not_mem_nil, or_false] at hcounter
  rcases hcounter with rfl | rfl | rfl | rfl | rfl | rfl | rfl <;> rfl

theorem counter_merge {counter : AnalysisInfo → UInt32} (hcounter : counter ∈ counters)
    (a b : AnalysisInfo) : counter (a.merge b) = counter a + counter b := by
  simp only [counters, List.mem_cons, List.not_mem_nil, or_false] at hcounter
  rcases hcounter with rfl | rfl | rfl | rfl | rfl | rfl | rfl <;> rfl

theorem merge_right_comm (a b c : AnalysisInfo) : (a.merge b).merge c = (a.merge c).merge b := by
  simp only [merge, UInt32.add_assoc, UInt32.add_comm b.callSites, UInt32.add_comm b.checkedCalls,
    UInt32.add_comm b.handled, UInt32.add_comm b.exempted, UInt32.add_comm b.unresolved,
    UInt32.add_comm b.skippedMalformed, UInt32.add_comm b.skippedFiles]

theorem addVerdict_eq_merge (info : AnalysisInfo) (v : Verdict) :
    info.addVerdict v = info.merge (zero.addVerdict v) := by
  cases v <;> simp [addVerdict, merge, zero]

/-- The counters of infos merged one after another, as long as no sum leaves the range. -/
theorem toNat_foldl_merge {counter : AnalysisInfo → UInt32} (hcounter : counter ∈ counters)
    (infos : List AnalysisInfo) (start : AnalysisInfo)
    (hbound : (counter start).toNat + (infos.map fun info => (counter info).toNat).sum < UInt32.size) :
    (counter (infos.foldl merge start)).toNat =
      (counter start).toNat + (infos.map fun info => (counter info).toNat).sum := by
  induction infos generalizing start with
  | nil => rfl
  | cons info infos ih =>
      rw [List.map_cons, List.sum_cons, ← Nat.add_assoc] at hbound ⊢
      have hsum : (counter (start.merge info)).toNat = (counter start).toNat + (counter info).toNat := by
        rw [counter_merge hcounter]
        exact toNat_add_of_lt (by omega)
      rw [← hsum] at hbound ⊢
      exact ih (start.merge info) hbound

/-- The counters are the numbers of the outcomes. -/
structure Tallies (info : AnalysisInfo) (outcomes : List Outcome) : Prop where
  callSites : info.callSites.toNat = outcomes.length
  checkedCalls : info.checkedCalls.toNat =
    outcomes.count .handled + outcomes.count .exempt + outcomes.count .violation
  handled : info.handled.toNat = outcomes.count .handled
  exempted : info.exempted.toNat = outcomes.count .exempt
  unresolved : info.unresolved.toNat = outcomes.count .unresolved
  skippedMalformed : info.skippedMalformed.toNat = outcomes.count .skipped
  skippedFiles : info.skippedFiles = 0

theorem countP_isChecked (outcomes : List Outcome) :
    outcomes.countP Outcome.isChecked = outcomes.count .handled + outcomes.count .exempt +
      outcomes.count .violation + outcomes.count .skipped := by
  induction outcomes with
  | nil => rfl
  | cons outcome outcomes ih =>
      cases outcome <;> simp [ih, Outcome.isChecked, List.countP_cons] <;> omega

/-- No counter exceeds the number of calls. -/
theorem Tallies.counter_le {info : AnalysisInfo} {outcomes : List Outcome}
    (htally : info.Tallies outcomes) {counter : AnalysisInfo → UInt32} (hcounter : counter ∈ counters) :
    (counter info).toNat ≤ outcomes.length := by
  have hchecked := outcomes.countP_le_length (p := Outcome.isChecked)
  rw [countP_isChecked] at hchecked
  simp only [counters, List.mem_cons, List.not_mem_nil, or_false] at hcounter
  rcases hcounter with rfl | rfl | rfl | rfl | rfl | rfl | rfl
  · exact Nat.le_of_eq htally.callSites
  · rw [htally.checkedCalls]
    omega
  · rw [htally.handled]
    exact List.count_le_length
  · rw [htally.exempted]
    exact List.count_le_length
  · rw [htally.unresolved]
    exact List.count_le_length
  · rw [htally.skippedMalformed]
    exact List.count_le_length
  · rw [htally.skippedFiles]
    exact Nat.zero_le _

theorem tallies_addVerdict_zero (v : Verdict) : (zero.addVerdict v).Tallies [v.outcome] := by
  cases v <;> constructor <;> rfl

theorem Tallies.merge {a b : AnalysisInfo} {xs ys : List Outcome} (ha : a.Tallies xs)
    (hb : b.Tallies ys) (hbound : xs.length + ys.length < UInt32.size) :
    (a.merge b).Tallies (xs ++ ys) := by
  have hsum : ∀ counter ∈ counters,
      (counter (a.merge b)).toNat = (counter a).toNat + (counter b).toNat := by
    intro counter hcounter
    rw [counter_merge hcounter]
    have hle := Nat.add_le_add (ha.counter_le hcounter) (hb.counter_le hcounter)
    exact toNat_add_of_lt (Nat.lt_of_le_of_lt hle hbound)
  simp only [counters, List.forall_mem_cons] at hsum
  obtain ⟨hcalls, hchecked, hhandled, hexempted, hunresolved, hskipped, -⟩ := hsum
  constructor
  · rw [hcalls, ha.callSites, hb.callSites, List.length_append]
  · rw [hchecked, ha.checkedCalls, hb.checkedCalls]
    simp only [List.count_append]
    omega
  · rw [hhandled, ha.handled, hb.handled, List.count_append]
  · rw [hexempted, ha.exempted, hb.exempted, List.count_append]
  · rw [hunresolved, ha.unresolved, hb.unresolved, List.count_append]
  · rw [hskipped, ha.skippedMalformed, hb.skippedMalformed, List.count_append]
  · change a.skippedFiles + b.skippedFiles = 0
    rw [ha.skippedFiles, hb.skippedFiles]
    rfl

theorem Tallies.addVerdict {info : AnalysisInfo} {outcomes : List Outcome}
    (htally : info.Tallies outcomes) (hbound : outcomes.length + 1 < UInt32.size) (v : Verdict) :
    (info.addVerdict v).Tallies (outcomes ++ [v.outcome]) := by
  rw [addVerdict_eq_merge]
  exact htally.merge (tallies_addVerdict_zero v) hbound

theorem tallies_foldl (verdicts : List Verdict) (hbound : verdicts.length < UInt32.size) :
    (verdicts.foldl addVerdict zero).Tallies (verdicts.map Verdict.outcome) := by
  -- the fold adds at the end, and there the bound on the whole list gives that on the rest
  induction verdicts using List.reverseRecOn with
  | nil => constructor <;> rfl
  | append_singleton verdicts v ih =>
      rw [List.length_append, List.length_singleton] at hbound
      rw [List.foldl_append, List.map_append]
      exact (ih (by omega)).addVerdict (by rwa [List.length_map]) v

end AnalysisInfo

def NodeKind.call? : NodeKind → Option Call
  | .call c => some c
  | .tryScope _ | .function _ | .lambda _ | .other => none

theorem NodeKind.call?_eq_some_iff {kind : NodeKind} {c : Call} :
    kind.call? = some c ↔ kind = .call c := by
  cases kind <;> simp [call?]

namespace SyntaxTree

variable {t : SyntaxTree} {p : Policy} {id : NodeId} {node : Node} {c : Call}

/-- The number of calls in the table that have a property. -/
def callCount (t : SyntaxTree) (holds : Call → Prop) [DecidablePred holds] : Nat :=
  t.nodes.countP fun node => node.kind.call?.any fun c => holds c

/-- A call has no target, or a target that points nowhere. -/
def Unresolved (t : SyntaxTree) (c : Call) : Prop :=
  ∀ d, c.target = some d → t.declarations.size ≤ d.index.toNat

theorem resolve?_eq_none_iff (t : SyntaxTree) (c : Call) : t.resolve? c = none ↔ t.Unresolved c := by
  simp only [resolve?, Option.bind_eq_none_iff, declaration?, Array.getElem?_eq_none_iff, Unresolved]

instance (t : SyntaxTree) : DecidablePred t.Unresolved := fun c =>
  decidable_of_iff _ (t.resolve?_eq_none_iff c)

instance (t : SyntaxTree) (p : Policy) : DecidablePred (t.Throws p) := fun c =>
  decidable_of_iff ((t.resolve? c).any (fun d => p.covers d.throws) = true)
    ((Option.any_eq_true _ _).trans (t.throws_iff p c))

/-- In a table that handles can name, an entry comes with the handle of its node. -/
theorem node?_of_mem_entries (hsize : t.nodes.size ≤ UInt32.size) (hentry : (id, node) ∈ t.entries) :
    t.node? id = some node := by
  obtain ⟨position, hposition⟩ := List.mem_iff_getElem?.mp hentry
  rw [entries_getElem?, Option.map_eq_some_iff] at hposition
  obtain ⟨_, hnode, hpair⟩ := hposition
  cases hpair
  rw [node?, toNat_toUInt32_of_getElem? hsize hnode, hnode]

theorem calls_eq (t : SyntaxTree) :
    t.calls = t.entries.filterMap fun entry => entry.2.kind.call?.map (entry.1, ·) := by
  rw [calls]
  apply List.filterMap_congr
  rintro ⟨id, node⟩ -
  cases hkind : node.kind <;> simp [hkind, NodeKind.call?]

theorem node?_of_mem_calls (hsize : t.nodes.size ≤ UInt32.size) (hcall : (id, c) ∈ t.calls) :
    ∃ node, t.node? id = some node ∧ node.kind = .call c := by
  rw [calls_eq] at hcall
  obtain ⟨⟨_, node⟩, hentry, hmap⟩ := List.mem_filterMap.mp hcall
  obtain ⟨_, hkind, hpair⟩ := Option.map_eq_some_iff.mp hmap
  cases hpair
  exact ⟨node, node?_of_mem_entries hsize hentry, NodeKind.call?_eq_some_iff.mp hkind⟩

theorem calls_map_snd (t : SyntaxTree) :
    t.calls.map Prod.snd = t.nodes.toList.filterMap (·.kind.call?) := by
  have hnodes : t.entries.map Prod.snd = t.nodes.toList := by
    rw [entries, List.map_map]
    exact List.zipIdx_map_fst 0 t.nodes.toList
  rw [calls_eq, List.map_filterMap, ← hnodes, List.filterMap_map]
  apply List.filterMap_congr
  intro entry _
  cases hkind : entry.2.kind.call? <;> simp [hkind]

/-- Counting verdicts of calls is counting calls, where the call decides. -/
theorem countP_calls (hsize : t.nodes.size ≤ UInt32.size) (judge : NodeId → Bool)
    (holds : Call → Prop) [DecidablePred holds]
    (hjudge : ∀ id node c, t.node? id = some node → node.kind = .call c →
      (judge id = true ↔ holds c)) :
    (t.calls.map Prod.fst).countP judge = t.callCount holds := by
  have hcalls : t.calls.countP (judge ∘ Prod.fst) =
      t.calls.countP ((fun c => decide (holds c)) ∘ Prod.snd) := by
    apply List.countP_congr
    rintro ⟨id, c⟩ hmem
    obtain ⟨node, hnode, hkind⟩ := node?_of_mem_calls hsize hmem
    simpa using hjudge id node c hnode hkind
  rw [List.countP_map, hcalls, ← List.countP_map, calls_map_snd, List.countP_filterMap, callCount,
    ← Array.countP_toList]
  apply List.countP_congr
  intro node _
  cases node.kind.call? <;> simp

/-! ### Outcomes of calls -/

theorem checkedVerdict_isChecked (t : SyntaxTree) (p : Policy) (source : Option String) (id : NodeId)
    (c : Call) : (t.checkedVerdict p source id c).outcome.isChecked = true := by
  rw [checkedVerdict]
  split
  · rfl
  · rfl
  · split <;> rfl

theorem outcome_isChecked_iff (p : Policy) (source : Option String) (hnode : t.node? id = some node)
    (hkind : node.kind = .call c) :
    (t.verdict p source id).outcome.isChecked = true ↔ t.Throws p c := by
  rw [← throws_iff]
  cases hresolve : t.resolve? c with
  | none => simp [verdict, hnode, hkind, hresolve, Verdict.outcome, Outcome.isChecked]
  | some d =>
      by_cases hthrows : p.checkedException ∈ d.throws
      · simp [verdict, hnode, hkind, hresolve, hthrows, checkedVerdict_isChecked]
      · simp [verdict, hnode, hkind, hresolve, hthrows, Verdict.outcome, Outcome.isChecked]

theorem outcome_eq_unresolved_iff (p : Policy) (source : Option String)
    (hnode : t.node? id = some node) (hkind : node.kind = .call c) :
    (t.verdict p source id).outcome = .unresolved ↔ t.Unresolved c := by
  rw [← resolve?_eq_none_iff]
  cases hresolve : t.resolve? c with
  | none => simp [verdict, hnode, hkind, hresolve, Verdict.outcome]
  | some d =>
      cases hcovers : p.covers d.throws with
      | false => simp [verdict, hnode, hkind, hresolve, hcovers, Verdict.outcome]
      | true =>
          have hchecked := t.checkedVerdict_isChecked p source id c
          simp only [verdict, hnode, hkind, hresolve, hcovers, if_true, reduceCtorEq, iff_false]
          intro houtcome
          rw [houtcome] at hchecked
          cases hchecked

end SyntaxTree

/-- The counters agree with the numbers of calls, of calls that resolve to nothing, of calls that throw
the checked exception, and of violations. -/
structure AnalysisInfo.Balances (info : AnalysisInfo) (calls unresolved checked violations : Nat) :
    Prop where
  callSites : info.callSites.toNat = calls
  unresolved : info.unresolved.toNat = unresolved
  checkedCalls : info.checkedCalls.toNat = info.handled.toNat + info.exempted.toNat + violations
  checked : checked = info.checkedCalls.toNat + info.skippedMalformed.toNat

namespace Analyzer

variable {a : Analyzer} {t : SyntaxTree}

theorem countP_verdicts (hsize : t.nodes.size ≤ UInt32.size) (judge : Verdict → Bool)
    (holds : Call → Prop) [DecidablePred holds]
    (hjudge : ∀ id node c, t.node? id = some node → node.kind = .call c →
      (judge (t.verdict a.policy t.source id) = true ↔ holds c)) :
    (a.verdicts t).countP judge = t.callCount holds := by
  rw [verdicts_eq, List.countP_map]
  exact SyntaxTree.countP_calls hsize _ holds hjudge

theorem length_verdicts (a : Analyzer) (hsize : t.nodes.size ≤ UInt32.size) :
    (a.verdicts t).length = t.callCount fun _ => True := by
  rw [← List.countP_true]
  exact countP_verdicts hsize _ _ fun _ _ _ _ _ => iff_of_true rfl trivial

theorem length_report (a : Analyzer) (verdicts : List Verdict) :
    (verdicts.filterMap a.report?).length = (verdicts.map Verdict.outcome).count .violation := by
  rw [List.length_filterMap_eq_countP, List.count_eq_countP, List.countP_map]
  apply List.countP_congr
  intro v _
  cases v <;> simp [report?, Verdict.outcome]

theorem analyzeTree_of_ne_kotlin (a : Analyzer) (hlanguage : t.language ≠ .kotlin) :
    a.analyzeTree t = ⟨[], { AnalysisInfo.zero with skippedFiles := 1 }⟩ :=
  if_neg hlanguage

theorem analyzeTree_balances (a : Analyzer) (hkotlin : t.language = .kotlin)
    (hsize : t.nodes.size < UInt32.size) :
    (a.analyzeTree t).info.Balances (t.callCount fun _ => True) (t.callCount t.Unresolved)
        (t.callCount (t.Throws a.policy)) (a.analyzeTree t).violations.length ∧
      (a.analyzeTree t).info.skippedFiles = 0 := by
  have hcalls := a.length_verdicts (Nat.le_of_lt hsize)
  have hlength : (a.verdicts t).length < UInt32.size := by
    rw [hcalls]
    exact Nat.lt_of_le_of_lt (Array.countP_le_size) hsize
  have htally := AnalysisInfo.tallies_foldl (a.verdicts t) hlength
  have hunresolved : ((a.verdicts t).map Verdict.outcome).count .unresolved =
      t.callCount t.Unresolved := by
    rw [List.count_eq_countP, List.countP_map]
    apply countP_verdicts (Nat.le_of_lt hsize)
    intro id node c hnode hkind
    rw [Function.comp_apply, beq_iff_eq]
    exact SyntaxTree.outcome_eq_unresolved_iff a.policy t.source hnode hkind
  have hchecked : ((a.verdicts t).map Verdict.outcome).countP Outcome.isChecked =
      t.callCount (t.Throws a.policy) := by
    rw [List.countP_map]
    apply countP_verdicts (Nat.le_of_lt hsize)
    intro id node c hnode hkind
    exact SyntaxTree.outcome_isChecked_iff a.policy t.source hnode hkind
  rw [AnalysisInfo.countP_isChecked] at hchecked
  simp only [analyzeTree, if_pos hkotlin, length_report]
  refine ⟨⟨?_, ?_, ?_, ?_⟩, htally.skippedFiles⟩
  · rw [htally.callSites, List.length_map, hcalls]
  · rw [htally.unresolved, hunresolved]
  · rw [htally.checkedCalls, htally.handled, htally.exempted]
  · rw [htally.checkedCalls, htally.skippedMalformed, hchecked]

/-- A counter, summed over the reports on single trees. -/
def total (a : Analyzer) (trees : List SyntaxTree) (counter : AnalysisInfo → UInt32) : Nat :=
  (trees.map fun t => (counter (a.analyzeTree t).info).toNat).sum

theorem analyze_info_eq (a : Analyzer) (trees : List SyntaxTree) :
    (a.analyze trees).info =
      (trees.map fun t => (a.analyzeTree t).info).foldl AnalysisInfo.merge .zero := by
  rw [analyze, List.foldl_map, List.foldl_map]

theorem toNat_analyze_counter (a : Analyzer) (trees : List SyntaxTree)
    {counter : AnalysisInfo → UInt32} (hcounter : counter ∈ AnalysisInfo.counters)
    (hbound : a.total trees counter < UInt32.size) :
    (counter (a.analyze trees).info).toNat = a.total trees counter := by
  have hzero : (counter .zero).toNat = 0 := by rw [AnalysisInfo.counter_zero hcounter]; rfl
  have hsum := AnalysisInfo.toNat_foldl_merge hcounter
    (trees.map fun t => (a.analyzeTree t).info) .zero
  rw [List.map_map, hzero, Nat.zero_add, ← analyze_info_eq] at hsum
  exact hsum hbound

theorem analyze_info_perm (a : Analyzer) {trees trees' : List SyntaxTree}
    (hperm : trees.Perm trees') : (a.analyze trees').info = (a.analyze trees).info := by
  rw [analyze_info_eq, analyze_info_eq]
  refine ((hperm.map _).foldl_eq' ?_ _).symm
  intro info _ info' _ start
  exact start.merge_right_comm info info'

theorem length_analyze_violations (a : Analyzer) (trees : List SyntaxTree) :
    (a.analyze trees).violations.length =
      (trees.map fun t => (a.analyzeTree t).violations.length).sum := by
  rw [analyze_violations_eq, List.length_flatMap]

/-- The reports on single trees balance, so the report on all of them does. -/
theorem analyze_balances_of_forall {trees : List SyntaxTree}
    {calls unresolved checked : SyntaxTree → Nat}
    (htrees : ∀ t ∈ trees, (a.analyzeTree t).info.Balances (calls t) (unresolved t) (checked t)
      (a.analyzeTree t).violations.length)
    (hbound : ∀ counter ∈ AnalysisInfo.counters, a.total trees counter < UInt32.size) :
    (a.analyze trees).info.Balances (trees.map calls).sum (trees.map unresolved).sum
      (trees.map checked).sum (a.analyze trees).violations.length := by
  have htotal : ∀ counter ∈ AnalysisInfo.counters,
      (counter (a.analyze trees).info).toNat = a.total trees counter :=
    fun counter hcounter => a.toNat_analyze_counter trees hcounter (hbound counter hcounter)
  simp only [AnalysisInfo.counters, List.forall_mem_cons] at htotal
  obtain ⟨hcalls, hchecked, hhandled, hexempted, hunresolved, hskipped, -⟩ := htotal
  constructor
  · rw [hcalls, total]
    exact congrArg List.sum (List.map_congr_left fun t ht => (htrees t ht).callSites)
  · rw [hunresolved, total]
    exact congrArg List.sum (List.map_congr_left fun t ht => (htrees t ht).unresolved)
  · rw [hchecked, hhandled, hexempted, length_analyze_violations]
    simp only [total, ← List.sum_map_add]
    exact congrArg List.sum (List.map_congr_left fun t ht => (htrees t ht).checkedCalls)
  · rw [hchecked, hskipped]
    simp only [total, ← List.sum_map_add]
    exact congrArg List.sum (List.map_congr_left fun t ht => (htrees t ht).checked)

/-- The number of calls with a property in the trees that are looked into. -/
def callTotal (trees : List SyntaxTree) (holds : SyntaxTree → Call → Prop)
    [∀ t, DecidablePred (holds t)] : Nat :=
  ((trees.filter (·.language = .kotlin)).map fun t => t.callCount (holds t)).sum

theorem callTotal_eq (trees : List SyntaxTree) (holds : SyntaxTree → Call → Prop)
    [∀ t, DecidablePred (holds t)] :
    callTotal trees holds =
      (trees.map fun t => if t.language = .kotlin then t.callCount (holds t) else 0).sum := by
  rw [List.sum_map_ite, callTotal]
  simp

theorem analyze_balances (a : Analyzer) {trees : List SyntaxTree}
    (hsize : ∀ t ∈ trees, t.nodes.size < UInt32.size)
    (hbound : ∀ counter ∈ AnalysisInfo.counters, a.total trees counter < UInt32.size) :
    (a.analyze trees).info.Balances (callTotal trees fun _ _ => True)
        (callTotal trees SyntaxTree.Unresolved) (callTotal trees (·.Throws a.policy))
        (a.analyze trees).violations.length := by
  simp only [callTotal_eq]
  refine analyze_balances_of_forall (fun t ht => ?_) hbound
  -- a tree in another language has no calls to count, and its counters are zero
  by_cases hkotlin : t.language = .kotlin
  · simp only [if_pos hkotlin]
    exact (a.analyzeTree_balances hkotlin (hsize t ht)).1
  · rw [a.analyzeTree_of_ne_kotlin hkotlin]
    simp only [if_neg hkotlin]
    constructor <;> rfl

theorem analyze_skippedFiles (a : Analyzer) {trees : List SyntaxTree}
    (hsize : ∀ t ∈ trees, t.nodes.size < UInt32.size)
    (hbound : a.total trees AnalysisInfo.skippedFiles < UInt32.size) :
    (a.analyze trees).info.skippedFiles.toNat = trees.countP (·.language ≠ .kotlin) := by
  have hcounter : AnalysisInfo.skippedFiles ∈ AnalysisInfo.counters := by
    simp [AnalysisInfo.counters]
  have hmap : (trees.map fun t => (a.analyzeTree t).info.skippedFiles.toNat) =
      trees.map fun t => if t.language = .kotlin then 0 else 1 := by
    apply List.map_congr_left
    intro t ht
    split
    next hkotlin => rw [(a.analyzeTree_balances hkotlin (hsize t ht)).2, UInt32.toNat_zero]
    next hlanguage => rw [a.analyzeTree_of_ne_kotlin hlanguage, UInt32.toNat_one]
  rw [a.toNat_analyze_counter trees hcounter hbound, total, hmap, List.sum_map_ite,
    List.countP_eq_length_filter]
  simp

/-- **The counters of a report balance.** For a tree that is looked into they are the numbers of its
calls, of those that resolve to nothing, and of those that throw the checked exception, the latter
split into handled, exempted, reported and skipped ones. Any other tree counts as a skipped file. The
counters of a run are the sums over its trees, so they balance as well, and the order of the trees does
not matter. -/
theorem counters_balance (a : Analyzer) :
    (∀ t : SyntaxTree, t.language = .kotlin → t.nodes.size < UInt32.size →
      (a.analyzeTree t).info.Balances (t.callCount fun _ => True) (t.callCount t.Unresolved)
        (t.callCount (t.Throws a.policy)) (a.analyzeTree t).violations.length ∧
      (a.analyzeTree t).info.skippedFiles = 0) ∧
    (∀ t : SyntaxTree, t.language ≠ .kotlin →
      (a.analyzeTree t).info = { AnalysisInfo.zero with skippedFiles := 1 } ∧
      (a.analyzeTree t).violations = []) ∧
    (∀ trees : List SyntaxTree,
      (∀ counter ∈ AnalysisInfo.counters, a.total trees counter < UInt32.size) →
      (∀ counter ∈ AnalysisInfo.counters,
        (counter (a.analyze trees).info).toNat = a.total trees counter) ∧
      ((∀ t ∈ trees, t.nodes.size < UInt32.size) →
        (a.analyze trees).info.Balances (callTotal trees fun _ _ => True)
          (callTotal trees SyntaxTree.Unresolved) (callTotal trees (·.Throws a.policy))
          (a.analyze trees).violations.length ∧
        (a.analyze trees).info.skippedFiles.toNat = trees.countP (·.language ≠ .kotlin))) ∧
    ∀ trees trees' : List SyntaxTree, trees.Perm trees' →
      (a.analyze trees').info = (a.analyze trees).info := by
  refine ⟨fun t => a.analyzeTree_balances, fun t hlanguage => ?_, fun trees hbound => ⟨?_, ?_⟩,
    fun trees trees' => a.analyze_info_perm⟩
  · rw [a.analyzeTree_of_ne_kotlin hlanguage]
    exact ⟨rfl, rfl⟩
  · intro counter hcounter
    exact a.toNat_analyze_counter trees hcounter (hbound counter hcounter)
  · intro hsize
    have hfiles := hbound AnalysisInfo.skippedFiles (by simp [AnalysisInfo.counters])
    exact ⟨a.analyze_balances hsize hbound, a.analyze_skippedFiles hsize hfiles⟩

/-- A run over a reported call, a tree that is not looked into and a call that is skipped: three calls,
two of them throw, one of these is reported. -/
theorem counters_balance_nestedCall :
    let a := Analyzer.new (.ofNames "Checked" "Safe")
    let trees := [SyntaxTree.nestedCall, foreignCall, .danglingCall]
    SyntaxTree.nestedCall.language = .kotlin ∧ SyntaxTree.nestedCall.nodes.size < UInt32.size ∧
    (a.analyzeTree .nestedCall).info.Balances 2 0 1 (a.analyzeTree .nestedCall).violations.length ∧
    foreignCall.language ≠ .kotlin ∧ (a.analyzeTree foreignCall).violations = [] ∧
    (∀ counter ∈ AnalysisInfo.counters, a.total trees counter < UInt32.size) ∧
    (∀ t ∈ trees, t.nodes.size < UInt32.size) ∧
    (a.analyze trees).info.Balances 3 0 2 (a.analyze trees).violations.length ∧
    (a.analyze trees.reverse).info = (a.analyze trees).info := by
  intro a trees
  obtain ⟨htree, hforeign, hrun, hperm⟩ := counters_balance a
  have hlanguage : foreignCall.language ≠ .kotlin := by decide
  have hsize : SyntaxTree.nestedCall.nodes.size < UInt32.size := by decide
  have hbound : ∀ counter ∈ AnalysisInfo.counters, a.total trees counter < UInt32.size := by
    decide
  have hsizes : ∀ t ∈ trees, t.nodes.size < UInt32.size := by decide
  exact ⟨rfl, hsize, (htree _ rfl hsize).1, hlanguage, (hforeign _ hlanguage).2, hbound, hsizes,
    ((hrun trees hbound).2 hsizes).1, hperm _ _ trees.reverse_perm.symm⟩

end Analyzer

end Uncaught
