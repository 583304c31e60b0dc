import Uncaught.Proofs.Check.Conditions
import Uncaught.Report.Analysis

/-!
The nodes that are left undecided. Two walks run over the chain above a checked call, and either could
break off. But a walk that finds no handler has seen a whole scope, the walk for a lambda searches the
same scope, and the parent of a lambda on a scope is on it as well. So only the first walk can fail,
and in a valid tree neither does.
-/

namespace Uncaught

namespace AnalysisInfo

theorem addVerdict_skippedMalformed (info : AnalysisInfo) {v : Verdict} (hv : v ≠ .skipped) :
    (info.addVerdict v).skippedMalformed = info.skippedMalformed := by
  cases v with
  | skipped => exact absurd rfl hv
  | unresolved | unchecked | handled _ | exempt _ | violation _ => rfl

theorem foldl_addVerdict_skippedMalformed (info : AnalysisInfo) {vs : List Verdict}
    (hvs : ∀ v ∈ vs, v ≠ .skipped) :
    (vs.foldl addVerdict info).skippedMalformed = info.skippedMalformed := by
  induction vs generalizing info with
  | nil => rfl
  | cons v vs ih =>
      rw [List.foldl_cons, ih _ fun w hw => hvs w (List.mem_cons_of_mem v hw)]
      exact info.addVerdict_skippedMalformed (hvs v List.mem_cons_self)

end AnalysisInfo

namespace SyntaxTree

variable {t : SyntaxTree} {p : Policy} {source : Option String} {id : NodeId} {node : Node} {c : Call}

theorem exemption?_of_dangling (hnode : t.node? id = none) (p : Policy) :
    t.exemption? p id = .ok none := by
  rw [exemption?, enclosingLambda?, ancestors_eq, parent?_of_dangling hnode, climb]
  rfl

/-- Where the walk for a handler ends without one, the walk for an exemption does not fail. -/
theorem exists_exemption?_of_handler? (hhandler : t.handler? p id = .ok none) :
    ∃ exemption, t.exemption? p id = .ok exemption := by
  cases hnode : t.node? id with
  | none => exact ⟨none, exemption?_of_dangling hnode p⟩
  | some node =>
      obtain ⟨chain, hscope, hlength⟩ := exists_scope_of_handler? hnode hhandler
      exact ⟨t.exemptionIn p chain, hscope.exemption?_eq hlength p⟩

theorem checkedVerdict_eq_skipped_iff (source : Option String) (c : Call) :
    t.checkedVerdict p source id c = .skipped ↔ ∃ error, t.handler? p id = .error error := by
  rw [checkedVerdict]
  cases hhandler : t.handler? p id with
  | error error => simp
  | ok handler =>
      cases handler with
      | some h => simp
      | none =>
          obtain ⟨exemption, hexemption⟩ := exists_exemption?_of_handler? hhandler
          rw [hexemption]
          cases exemption <;> simp

theorem CheckedCall.throws (hcall : t.CheckedCall p id c) : t.Throws p c := by
  obtain ⟨_, declaration, -, -, hresolve, hcovers⟩ := hcall
  exact (t.throws_iff p c).mp ⟨declaration, hresolve, hcovers⟩

/-- Of the nodes in the table only checked calls are left undecided. -/
theorem exists_checkedCall_of_skipped (hnode : t.node? id = some node)
    (hverdict : t.verdict p source id = .skipped) : ∃ c, t.CheckedCall p id c := by
  rcases checkedCall_or_verdict_eq p source hnode with hcall | hother | hother
  · exact hcall
  · rw [hother] at hverdict
    cases hverdict
  · rw [hother] at hverdict
    cases hverdict

theorem verdict_eq_skipped_iff (t : SyntaxTree) (p : Policy) (source : Option String) (id : NodeId) :
    t.verdict p source id = .skipped ↔
      t.nodes.size ≤ id.index.toNat ∨
        ∃ node c error, t.node? id = some node ∧ node.kind = .call c ∧ t.Throws p c ∧
          t.handler? p id = .error error := by
  rw [← Nat.not_lt, ← exists_node?_iff]
  constructor
  · intro hverdict
    by_cases hnode : ∃ node, t.node? id = some node
    · obtain ⟨_, hnode⟩ := hnode
      obtain ⟨c, hcall⟩ := exists_checkedCall_of_skipped hnode hverdict
      rw [hcall.verdict_eq, checkedVerdict_eq_skipped_iff] at hverdict
      obtain ⟨error, herror⟩ := hverdict
      obtain ⟨node, hnode, hkind⟩ := hcall.exists_node?
      exact Or.inr ⟨node, c, error, hnode, hkind, hcall.throws, herror⟩
    · exact Or.inl hnode
  · rintro (hdangling | ⟨node, c, error, hnode, hkind, hthrows, herror⟩)
    · have hnone : t.node? id = none := Option.eq_none_iff_forall_ne_some.mpr (not_exists.mp hdangling)
      rw [verdict, hnone]
    · rw [(hthrows.checkedCall hnode hkind).verdict_eq, checkedVerdict_eq_skipped_iff]
      exact ⟨error, herror⟩

theorem Rooted.verdict_ne_skipped (hrooted : t.Rooted) (p : Policy) (source : Option String)
    (hnode : t.node? id = some node) : t.verdict p source id ≠ .skipped := by
  obtain ⟨chain, hscope, hlength⟩ := (hrooted id node hnode).exists_scope hnode
  rw [ne_eq, verdict_eq_skipped_iff]
  rintro (hout | ⟨_, _, error, -, -, -, herror⟩)
  · have hin := exists_node?_iff.mp ⟨node, hnode⟩
    omega
  · rw [hscope.handler?_eq hlength p] at herror
    cases herror

theorem exists_node?_of_mem_calls {entry : NodeId × Call} (hentry : entry ∈ t.calls) :
    ∃ node, t.node? entry.1 = some node := by
  obtain ⟨⟨id, node⟩, hmem, hcall⟩ := List.mem_filterMap.mp hentry
  cases hkind : node.kind with
  | call c =>
      simp only [hkind, Option.some.injEq] at hcall
      subst hcall
      exact exists_node?_of_mem_entries hmem
  | tryScope _ | function _ | lambda _ | other => simp [hkind] at hcall

theorem Rooted.analyzeTree_skippedMalformed (hrooted : t.Rooted) (a : Analyzer) :
    (a.analyzeTree t).info.skippedMalformed = 0 := by
  have hverdicts : ∀ v ∈ a.verdicts t, v ≠ .skipped := by
    intro v hv
    obtain ⟨⟨id, c⟩, hmem, rfl⟩ := List.mem_map.mp hv
    obtain ⟨node, hnode⟩ := exists_node?_of_mem_calls hmem
    exact hrooted.verdict_ne_skipped a.policy t.source hnode
  rw [Analyzer.analyzeTree]
  split
  · exact AnalysisInfo.foldl_addVerdict_skippedMalformed .zero hverdicts
  · rfl

/-- **When a node is left undecided.** In any tree, a node is skipped exactly if its handle points
nowhere or it is a checked call on which the walk for a handler breaks off. The walk for an exemption
never breaks off after it, and in a valid tree no node is skipped. -/
theorem skipped_exact (t : SyntaxTree) (p : Policy) (source : Option String) (id : NodeId) :
    (t.verdict p source id = .skipped ↔
      t.nodes.size ≤ id.index.toNat ∨
        ∃ node c error, t.node? id = some node ∧ node.kind = .call c ∧ t.Throws p c ∧
          t.handler? p id = .error error) ∧
    (t.handler? p id = .ok none → ∃ exemption, t.exemption? p id = .ok exemption) ∧
    (t.validate = .ok () →
      (id.index.toNat < t.nodes.size → t.verdict p source id ≠ .skipped) ∧
      ∀ suppressions, ((Analyzer.mk p suppressions).analyzeTree t).info.skippedMalformed = 0) := by
  refine ⟨verdict_eq_skipped_iff t p source id, exists_exemption?_of_handler?, fun hvalid => ?_⟩
  obtain ⟨-, hrooted⟩ := (validate_eq_ok_iff t).mp hvalid
  refine ⟨fun hlt => ?_, fun suppressions => hrooted.analyzeTree_skippedMalformed _⟩
  obtain ⟨node, hnode⟩ := exists_node?_iff.mpr hlt
  exact hrooted.verdict_ne_skipped p source hnode

/-- The declarations of `nestedCall`, and a checked call whose parent points nowhere. -/
def danglingCall : SyntaxTree :=
  { nestedCall with
    nodes := #[⟨some ⟨7⟩, ⟨40, 50⟩, .call ⟨"open", some ⟨0⟩, ⟨40, 44⟩, ⟨40, 50⟩⟩⟩] }

/-- The inner call of `nestedCall` passes both walks, `danglingCall` fails the first. -/
theorem skipped_exact_nestedCall :
    nestedCall.validate = .ok () ∧
    nestedCall.handler? (.ofNames "Checked" "Safe") ⟨4⟩ = .ok none ∧
    (∃ exemption, nestedCall.exemption? (.ofNames "Checked" "Safe") ⟨4⟩ = .ok exemption) ∧
    nestedCall.verdict (.ofNames "Checked" "Safe") none ⟨4⟩ ≠ .skipped ∧
    ((Analyzer.new (.ofNames "Checked" "Safe")).analyzeTree nestedCall).info.skippedMalformed = 0 ∧
    danglingCall.verdict (.ofNames "Checked" "Safe") none ⟨0⟩ = .skipped := by
  have hvalid : nestedCall.validate = .ok () := rfl
  have hhandler : nestedCall.handler? (.ofNames "Checked" "Safe") ⟨4⟩ = .ok none := rfl
  obtain ⟨-, hexemption, hundecided⟩ := skipped_exact nestedCall (.ofNames "Checked" "Safe") none ⟨4⟩
  obtain ⟨hdecided, hcount⟩ := hundecided hvalid
  refine ⟨hvalid, hhandler, hexemption hhandler, hdecided (by decide), hcount _, ?_⟩
  apply (skipped_exact danglingCall _ none _).1.mpr
  have hthrows : danglingCall.Throws (.ofNames "Checked" "Safe") ⟨"open", some ⟨0⟩, ⟨40, 44⟩, ⟨40, 50⟩⟩ :=
    ⟨⟨0⟩, _, rfl, rfl, List.mem_singleton_self _⟩
  exact Or.inr ⟨_, _, _, rfl, rfl, hthrows, rfl⟩

end SyntaxTree

end Uncaught
