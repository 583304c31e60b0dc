import Uncaught.Proofs.Check.Undecided

/-!
A report is put together call by call: its violations are those of the single calls, tree after tree
and in the order of each table. So a report on two lists of trees is that on the one and then that on
the other.
-/

namespace Uncaught

def NodeKind.isCall : NodeKind → Bool
  | .call _ => true
  | _ => false

theorem NodeKind.isCall_iff {kind : NodeKind} : kind.isCall = true ↔ ∃ c, kind = .call c := by
  cases kind <;> simp [isCall]

namespace SyntaxTree

/-- The positions of the call nodes, in the order of the table. -/
def callPositions (t : SyntaxTree) : List Nat :=
  (List.range t.nodes.size).filter fun position => t.nodes[position]?.any (·.kind.isCall)

@[simp] theorem mem_callPositions {t : SyntaxTree} {position : Nat} :
    position ∈ t.callPositions ↔ ∃ node c, t.nodes[position]? = some node ∧ node.kind = .call c := by
  simp only [callPositions, List.mem_filter, List.mem_range, Option.any_eq_true, NodeKind.isCall_iff]
  constructor
  · rintro ⟨-, node, hnode, c, hkind⟩
    exact ⟨node, c, hnode, hkind⟩
  · rintro ⟨node, c, hnode, hkind⟩
    obtain ⟨hlt, -⟩ := Array.getElem?_eq_some_iff.mp hnode
    exact ⟨hlt, node, hnode, c, hkind⟩

theorem callPositions_pairwise (t : SyntaxTree) : t.callPositions.Pairwise (· < ·) :=
  List.pairwise_lt_range.filter _

@[simp] theorem calls_map_fst (t : SyntaxTree) :
    t.calls.map Prod.fst = t.callPositions.map fun position => ⟨position.toUInt32⟩ := by
  have hrange : List.range t.nodes.size = t.nodes.toList.zipIdx.map Prod.snd := by
    rw [List.zipIdx_map_snd, Array.length_toList, List.range_eq_range']
  rw [calls, entries, callPositions, hrange, List.filterMap_map, List.map_filterMap, List.filter_map,
    List.map_map, ← List.filterMap_eq_map, List.filterMap_filter]
  apply List.filterMap_congr
  rintro ⟨node, position⟩ hmem
  have hnode := List.mem_zipIdx_iff_getElem?.mp hmem
  rw [Array.getElem?_toList] at hnode
  cases hkind : node.kind <;> simp [hnode, hkind, NodeKind.isCall]

end SyntaxTree

namespace Analyzer

variable {a : Analyzer} {t : SyntaxTree} {source : Option String} {id : NodeId} {v : Violation}

@[simp] theorem report?_eq_some_iff {verdict : Verdict} :
    a.report? verdict = some v ↔ ∃ w, verdict = .violation w ∧ a.suppressions.apply w = v := by
  cases verdict <;> simp [report?]

theorem analyzeCall_eq_some_iff :
    a.analyzeCall t source id = some v ↔ t.language = .kotlin ∧
      ∃ w, t.verdict a.policy source id = .violation w ∧ a.suppressions.apply w = v := by
  by_cases hkotlin : t.language = .kotlin
  · rw [analyzeCall, if_pos hkotlin, report?_eq_some_iff]
    exact (and_iff_right hkotlin).symm
  · rw [analyzeCall, if_neg hkotlin]
    exact ⟨nofun, fun h => absurd h.1 hkotlin⟩

theorem analyzeCall_of_ne_kotlin (a : Analyzer) (hlanguage : t.language ≠ .kotlin)
    (source : Option String) (id : NodeId) : a.analyzeCall t source id = none :=
  if_neg hlanguage

theorem exists_call_of_analyzeCall (hcall : a.analyzeCall t source id = some v) :
    ∃ node c, t.node? id = some node ∧ node.kind = .call c := by
  obtain ⟨-, w, hverdict, -⟩ := analyzeCall_eq_some_iff.mp hcall
  obtain ⟨c, hchecked⟩ := SyntaxTree.exists_checkedCall hverdict
  obtain ⟨node, hnode, hkind⟩ := hchecked.exists_node?
  exact ⟨node, c, hnode, hkind⟩

/-- A reported call is offered the fixes for its statement. -/
theorem fix_eq_offered (hcall : a.analyzeCall t source id = some v) :
    v.fix = .offered a.policy v.statementRange := by
  obtain ⟨-, w, hverdict, rfl⟩ := analyzeCall_eq_some_iff.mp hcall
  obtain ⟨c, -, -, -, -, -, -, rfl⟩ := (SyntaxTree.verdict_eq_violation_iff _ _).mp hverdict
  rw [Suppressions.apply]
  split <;> rfl

theorem verdicts_eq (a : Analyzer) (t : SyntaxTree) :
    a.verdicts t = (t.calls.map Prod.fst).map (t.verdict a.policy t.source) := by
  rw [List.map_map]
  rfl

theorem analyzeTree_violations_eq (a : Analyzer) (t : SyntaxTree) :
    (a.analyzeTree t).violations =
      t.callPositions.filterMap fun position => a.analyzeCall t t.source ⟨position.toUInt32⟩ := by
  have hcalls : (a.verdicts t).filterMap a.report? =
      t.callPositions.filterMap fun position =>
        a.report? (t.verdict a.policy t.source ⟨position.toUInt32⟩) := by
    rw [verdicts_eq, t.calls_map_fst, List.map_map, List.filterMap_map]
    rfl
  by_cases hkotlin : t.language = .kotlin
  · simp only [analyzeTree, analyzeCall, if_pos hkotlin]
    exact hcalls
  · simp only [analyzeTree, analyzeCall, if_neg hkotlin, List.filterMap_none]

theorem exists_analyzeCall_of_mem_analyzeTree (hv : v ∈ (a.analyzeTree t).violations) :
    ∃ id, a.analyzeCall t t.source id = some v := by
  rw [analyzeTree_violations_eq] at hv
  obtain ⟨position, -, hcall⟩ := List.mem_filterMap.mp hv
  exact ⟨_, hcall⟩

/-- The calls that are reported, each once and in the order of the table. -/
theorem exists_reported_positions (a : Analyzer) (t : SyntaxTree) :
    ∃ positions : List Nat, positions.Pairwise (· < ·) ∧
      (∀ position, position ∈ positions ↔ position ∈ t.callPositions ∧
        (a.analyzeCall t t.source ⟨position.toUInt32⟩).isSome) ∧
      (a.analyzeTree t).violations.map some =
        positions.map fun position => a.analyzeCall t t.source ⟨position.toUInt32⟩ := by
  refine ⟨t.callPositions.filter fun position =>
    (a.analyzeCall t t.source ⟨position.toUInt32⟩).isSome, t.callPositions_pairwise.filter _,
    fun position => List.mem_filter, ?_⟩
  rw [analyzeTree_violations_eq, List.map_filterMap_some_eq_filter_map_isSome, List.filter_map]
  rfl

theorem analyze_violations_eq (a : Analyzer) (trees : List SyntaxTree) :
    (a.analyze trees).violations = trees.flatMap fun t => (a.analyzeTree t).violations := by
  rw [analyze, List.flatMap_map]

theorem exists_analyzeCall_of_mem {trees : List SyntaxTree}
    (hv : v ∈ (a.analyze trees).violations) :
    ∃ t ∈ trees, ∃ id, a.analyzeCall t t.source id = some v := by
  rw [analyze_violations_eq] at hv
  obtain ⟨t, ht, hv⟩ := List.mem_flatMap.mp hv
  exact ⟨t, ht, exists_analyzeCall_of_mem_analyzeTree hv⟩

theorem analyze_append (a : Analyzer) (xs ys : List SyntaxTree) :
    (a.analyze (xs ++ ys)).violations = (a.analyze xs).violations ++ (a.analyze ys).violations := by
  simp only [analyze_violations_eq, List.flatMap_append]

theorem status_eq (a : Analyzer) (trees : List SyntaxTree) : (a.analyze trees).status =
    if (a.analyze trees).violations.any fun v => !v.suppressed then "error" else "ok" := rfl

theorem status_eq_error_iff (a : Analyzer) (trees : List SyntaxTree) :
    (a.analyze trees).status = "error" ↔
      ∃ v ∈ (a.analyze trees).violations, v.suppressed = false := by
  rw [status_eq]
  split
  next hany => simpa using hany
  next hnone => simpa using hnone

theorem status_append_eq_error_iff (a : Analyzer) (xs ys : List SyntaxTree) :
    (a.analyze (xs ++ ys)).status = "error" ↔
      (a.analyze xs).status = "error" ∨ (a.analyze ys).status = "error" := by
  simp only [status_eq_error_iff, analyze_append, List.mem_append, or_and_right, exists_or]

/-- **A report is put together call by call.** Its violations are what the analysis of the single calls
gives, tree after tree and in the order of each table. Every call that is reported is reported once,
nothing but calls is, and trees of other languages have no part in it. So a longer list of trees only
adds to a report. -/
theorem violations_perCall (a : Analyzer) :
    (∀ trees, (a.analyze trees).violations = trees.flatMap fun t =>
      t.callPositions.filterMap fun position => a.analyzeCall t t.source ⟨position.toUInt32⟩) ∧
    (∀ t, ∃ positions : List Nat, positions.Pairwise (· < ·) ∧
      (∀ position, position ∈ positions ↔
        (∃ node c, t.nodes[position]? = some node ∧ node.kind = .call c) ∧
          (a.analyzeCall t t.source ⟨position.toUInt32⟩).isSome) ∧
      (a.analyzeTree t).violations.map some =
        positions.map fun position => a.analyzeCall t t.source ⟨position.toUInt32⟩) ∧
    (∀ t source id v, a.analyzeCall t source id = some v →
      ∃ node c, t.node? id = some node ∧ node.kind = .call c) ∧
    (∀ t, t.language ≠ .kotlin →
      (a.analyzeTree t).violations = [] ∧ ∀ source id, a.analyzeCall t source id = none) ∧
    ∀ xs ys,
      (a.analyze (xs ++ ys)).violations = (a.analyze xs).violations ++ (a.analyze ys).violations ∧
      ((a.analyze (xs ++ ys)).status = "error" ↔
        (a.analyze xs).status = "error" ∨ (a.analyze ys).status = "error") := by
  refine ⟨fun trees => ?_, fun t => ?_, fun t source id v => exists_call_of_analyzeCall,
    fun t hlanguage => ⟨?_, a.analyzeCall_of_ne_kotlin hlanguage⟩,
    fun xs ys => ⟨a.analyze_append xs ys, a.status_append_eq_error_iff xs ys⟩⟩
  · simp only [analyze_violations_eq, analyzeTree_violations_eq]
  · obtain ⟨positions, hordered, hmem, hviolations⟩ := a.exists_reported_positions t
    refine ⟨positions, hordered, fun position => ?_, hviolations⟩
    rw [hmem, SyntaxTree.mem_callPositions]
  · rw [analyzeTree, if_neg hlanguage]

/-- The tree of `nestedCall` in a language that is not looked into. -/
def foreignCall : SyntaxTree := { SyntaxTree.nestedCall with language := .other }

/-- The inner call of `nestedCall` is reported, also when `foreignCall`, which has no part in it,
stands before. -/
theorem violations_perCall_nestedCall :
    let a := Analyzer.new (.ofNames "Checked" "Safe")
    (∃ v, a.analyzeCall .nestedCall none ⟨4⟩ = some v) ∧
    (∃ node c, SyntaxTree.nestedCall.node? ⟨4⟩ = some node ∧ node.kind = .call c) ∧
    foreignCall.language ≠ .kotlin ∧ (a.analyzeTree foreignCall).violations = [] ∧
    (a.analyze ([foreignCall] ++ [.nestedCall])).violations = (a.analyze [.nestedCall]).violations ∧
    (a.analyze ([foreignCall] ++ [.nestedCall])).status = "error" := by
  intro a
  obtain ⟨-, -, hcalls, hforeign, happend⟩ := violations_perCall a
  have hcall : a.analyzeCall .nestedCall none ⟨4⟩ = some _ := rfl
  have hlanguage : foreignCall.language ≠ .kotlin := by decide
  obtain ⟨hnone, -⟩ := hforeign foreignCall hlanguage
  obtain ⟨hviolations, hstatus⟩ := happend [foreignCall] [.nestedCall]
  refine ⟨⟨_, hcall⟩, hcalls _ _ _ _ hcall, hlanguage, hnone, ?_, hstatus.mpr (Or.inr rfl)⟩
  rw [hviolations, analyze_violations_eq a [foreignCall], List.flatMap_singleton, hnone, List.nil_append]

end Analyzer

end Uncaught
