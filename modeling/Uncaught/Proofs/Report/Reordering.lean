import Uncaught.Proofs.Report.Counters
import Uncaught.Proofs.Tree.Reordering

/-!
The order of the tables of a tree does not matter. Both walks pass the renamed nodes and judge them by
the same entries, so a verdict names the renamed handler or exemption and is otherwise the same. Reports
hold no handles: the calls come in another order, and with them the violations, but nothing else changes.
-/

namespace Uncaught

variable (r : Renaming)

def HandledBy.rename : HandledBy → HandledBy
  | .catchClause scope => .catchClause (r.node scope)
  | .declaration function => .declaration (r.node function)

def Exemption.rename : Exemption → Exemption
  | .throwingContract lambda => .throwingContract (r.node lambda)
  | .safeMarker lambda receiver => .safeMarker (r.node lambda) (r.node receiver)

/-- The same verdict under other handles. A violation holds none. -/
def Verdict.rename : Verdict → Verdict
  | .handled how => .handled (how.rename r)
  | .exempt how => .exempt (how.rename r)
  | .unresolved => .unresolved
  | .unchecked => .unchecked
  | .skipped => .skipped
  | .violation v => .violation v

def LambdaSite.rename (site : LambdaSite) : LambdaSite :=
  ⟨r.node site.id, site.parent.map r.node, site.interface.map r.type⟩

/-- The answer of a walk under other handles. -/
def renameAnswer {α : Type} (rename : α → α) : Except TreeError (Option α) → Except TreeError (Option α)
  | .ok found => .ok (found.map rename)
  | .error error => .error (error.rename r)

@[simp] theorem Policy.handlerAlong_rename (p : Policy) (nodes : List (NodeId × Node))
    (error : Option TreeError) :
    p.handlerAlong (nodes.map fun entry => (r.node entry.1, entry.2.rename r))
        (error.map (·.rename r)) =
      renameAnswer r (·.rename r) (p.handlerAlong nodes error) := by
  induction nodes with
  | nil => cases error <;> rfl
  | cons entry nodes ih =>
      obtain ⟨id, parent, range, kind⟩ := entry
      cases kind with
      | tryScope clauses =>
          simp only [List.map_cons, handlerAlong, Node.rename, NodeKind.rename]
          split
          · rfl
          · exact ih
      | function f =>
          simp only [List.map_cons, handlerAlong, Node.rename, NodeKind.rename]
          split <;> rfl
      | call _ | lambda _ | other => exact ih

@[simp] theorem lambdaAlong_rename (nodes : List (NodeId × Node)) (error : Option TreeError) :
    lambdaAlong (nodes.map fun entry => (r.node entry.1, entry.2.rename r))
        (error.map (·.rename r)) =
      renameAnswer r (·.rename r) (lambdaAlong nodes error) := by
  induction nodes with
  | nil => cases error <;> rfl
  | cons entry nodes ih =>
      obtain ⟨id, parent, range, kind⟩ := entry
      cases kind with
      | lambda _ | function _ => rfl
      | call _ | tryScope _ | other => exact ih

namespace SyntaxTree.Renames

variable {r} {t t' : SyntaxTree} (hrenames : t.Renames t' r) (p : Policy) (source : Option String)

include hrenames

theorem handler? (id : NodeId) :
    t'.handler? p (r.node id) = renameAnswer r (·.rename r) (t.handler? p id) := by
  rw [SyntaxTree.handler?, SyntaxTree.handler?, hrenames.ancestors]
  simp

theorem enclosingLambda? (id : NodeId) :
    t'.enclosingLambda? (r.node id) = renameAnswer r (·.rename r) (t.enclosingLambda? id) := by
  rw [SyntaxTree.enclosingLambda?, SyntaxTree.enclosingLambda?, hrenames.ancestors]
  simp

theorem resolve? (c : Call) : t'.resolve? (c.rename r) = t.resolve? c := by
  rw [SyntaxTree.resolve?, SyntaxTree.resolve?, Call.rename, Option.bind_map]
  exact congrArg _ (funext hrenames.declaration)

theorem contract? (interface : Option TypeId) :
    t'.contract? (interface.map r.type) = t.contract? interface := by
  cases interface with
  | none => rfl
  | some i =>
      simp only [SyntaxTree.contract?, Option.map_some, Option.bind_eq_bind, Option.bind_some,
        hrenames.type]
      cases t.type? i with
      | none => rfl
      | some type =>
          have hmethods : (type.methods.map r.declaration).filterMap t'.declaration? =
              type.methods.filterMap t.declaration? := by
            rw [List.filterMap_map]
            exact congrArg (List.filterMap · _) (funext hrenames.declaration)
          simp [hmethods]

theorem receivesSafely (node : Node) :
    t'.receivesSafely p (node.rename r) = t.receivesSafely p node := by
  obtain ⟨parent, range, kind⟩ := node
  cases kind with
  | call c => simp [SyntaxTree.receivesSafely, hrenames.resolve?]
  | tryScope _ | function _ | lambda _ | other => rfl

theorem lambdaExemption? (site : LambdaSite) :
    t'.lambdaExemption? p (site.rename r) =
      renameAnswer r (·.rename r) (t.lambdaExemption? p site) := by
  have hcontract : t'.throwsByContract p (site.interface.map r.type) =
      t.throwsByContract p site.interface := by
    rw [throwsByContract, throwsByContract, hrenames.contract?]
  simp only [SyntaxTree.lambdaExemption?, LambdaSite.rename, hcontract]
  split
  · rfl
  · cases site.parent with
    | none => rfl
    | some receiver =>
        simp only [Option.map_some, hrenames.node, hrenames.size]
        cases t.node? receiver with
        | none => rfl
        | some node =>
            simp only [Option.map_some, hrenames.receivesSafely]
            split <;> rfl

theorem exemption? (id : NodeId) :
    t'.exemption? p (r.node id) = renameAnswer r (·.rename r) (t.exemption? p id) := by
  rw [SyntaxTree.exemption?, SyntaxTree.exemption?, hrenames.enclosingLambda?]
  cases t.enclosingLambda? id with
  | error error => rfl
  | ok site =>
      cases site with
      | none => rfl
      | some site => exact hrenames.lambdaExemption? p site

theorem checkedVerdict (id : NodeId) (c : Call) :
    t'.checkedVerdict p source (r.node id) (c.rename r) =
      (t.checkedVerdict p source id c).rename r := by
  rw [SyntaxTree.checkedVerdict, SyntaxTree.checkedVerdict, hrenames.handler?, hrenames.exemption?,
    hrenames.file]
  cases t.handler? p id with
  | error error => rfl
  | ok handler =>
      cases handler with
      | some how => rfl
      | none =>
          cases t.exemption? p id with
          | error error => rfl
          | ok exemption => cases exemption <;> rfl

theorem verdict (id : NodeId) :
    t'.verdict p source (r.node id) = (t.verdict p source id).rename r := by
  rw [SyntaxTree.verdict, SyntaxTree.verdict, hrenames.node]
  cases t.node? id with
  | none => rfl
  | some node =>
      obtain ⟨parent, range, kind⟩ := node
      cases kind with
      | call c =>
          simp only [Option.map_some, Node.rename, NodeKind.rename, hrenames.resolve?]
          cases t.resolve? c with
          | none => rfl
          | some d =>
              simp only
              split
              · exact hrenames.checkedVerdict p source id c
              · rfl
      | tryScope _ | function _ | lambda _ | other => rfl

end SyntaxTree.Renames

namespace SyntaxTree

variable {t t' : SyntaxTree} {r : Renaming}

theorem mem_calls_fst (hsize : t.nodes.size ≤ UInt32.size) {id : NodeId} :
    id ∈ t.calls.map Prod.fst ↔ ∃ node c, t.node? id = some node ∧ node.kind = .call c := by
  constructor
  · intro hmem
    obtain ⟨⟨_, c⟩, hcall, rfl⟩ := List.mem_map.mp hmem
    obtain ⟨node, hnode, hkind⟩ := node?_of_mem_calls hsize hcall
    exact ⟨node, c, hnode, hkind⟩
  · intro hcall
    rw [calls_map_fst]
    refine List.mem_map.mpr ⟨id.index.toNat, mem_callPositions.mpr hcall, ?_⟩
    rw [Nat.toUInt32, UInt32.ofNat_toNat]

theorem nodup_calls_fst (hsize : t.nodes.size ≤ UInt32.size) : (t.calls.map Prod.fst).Nodup := by
  rw [calls_map_fst]
  refine List.Nodup.map_on ?_ (t.callPositions_pairwise.imp Nat.ne_of_lt)
  have hindex : ∀ position ∈ t.callPositions, position.toUInt32.toNat = position := by
    intro position hposition
    obtain ⟨_, _, hnode, -⟩ := mem_callPositions.mp hposition
    exact toNat_toUInt32_of_getElem? hsize hnode
  intro i hi j hj heq
  rw [← hindex i hi, ← hindex j hj, NodeId.mk.inj heq]

theorem Renames.calls_perm (hrenames : t.Renames t' r) (hsize : t.nodes.size ≤ UInt32.size) :
    (t'.calls.map Prod.fst).Perm ((t.calls.map Prod.fst).map r.node) := by
  -- neither list repeats a handle, so it is enough that both have the same members
  have hsize' : t'.nodes.size ≤ UInt32.size := by rwa [hrenames.size]
  refine (List.perm_ext_iff_of_nodup (nodup_calls_fst hsize')
    ((nodup_calls_fst hsize).map hrenames.bijective.injective)).mpr fun id' => ?_
  obtain ⟨id, rfl⟩ := hrenames.bijective.surjective id'
  rw [List.mem_map_of_injective hrenames.bijective.injective, mem_calls_fst hsize,
    mem_calls_fst hsize', hrenames.node]
  constructor
  · rintro ⟨node', c', hnode', hkind'⟩
    obtain ⟨node, hnode, rfl⟩ := Option.map_eq_some_iff.mp hnode'
    obtain ⟨c, hkind, -⟩ := NodeKind.rename_eq_call hkind'
    exact ⟨node, c, hnode, hkind⟩
  · rintro ⟨node, c, hnode, hkind⟩
    refine ⟨node.rename r, c.rename r, by rw [hnode, Option.map_some], ?_⟩
    simp [hkind]

end SyntaxTree

@[simp] theorem AnalysisInfo.addVerdict_rename (info : AnalysisInfo) (v : Verdict) :
    info.addVerdict (v.rename r) = info.addVerdict v := by
  cases v <;> rfl

theorem AnalysisInfo.foldl_addVerdict_perm {vs ws : List Verdict} (hperm : vs.Perm ws)
    (info : AnalysisInfo) : vs.foldl addVerdict info = ws.foldl addVerdict info := by
  apply hperm.foldl_eq'
  intro v _ w _ start
  rw [addVerdict_eq_merge _ w, addVerdict_eq_merge _ v, merge_right_comm, ← addVerdict_eq_merge,
    ← addVerdict_eq_merge]

namespace Analyzer

variable {r} {t t' : SyntaxTree}

@[simp] theorem report?_rename (a : Analyzer) (v : Verdict) : a.report? (v.rename r) = a.report? v := by
  cases v <;> rfl

theorem verdicts_perm (a : Analyzer) (hrenames : t.Renames t' r)
    (hsize : t.nodes.size ≤ UInt32.size) :
    (a.verdicts t').Perm ((a.verdicts t).map (·.rename r)) := by
  have hverdict : t'.verdict a.policy t.source ∘ r.node =
      (·.rename r) ∘ t.verdict a.policy t.source := by
    funext id
    exact hrenames.verdict a.policy t.source id
  calc a.verdicts t'
      = (t'.calls.map Prod.fst).map (t'.verdict a.policy t.source) := by
        rw [verdicts_eq, hrenames.source]
    List.Perm _ (((t.calls.map Prod.fst).map r.node).map (t'.verdict a.policy t.source)) :=
        (hrenames.calls_perm hsize).map _
    _ = (t.calls.map Prod.fst).map ((·.rename r) ∘ t.verdict a.policy t.source) := by
        rw [← hverdict, List.map_map]
    _ = (a.verdicts t).map (·.rename r) := by
        rw [verdicts_eq]
        exact List.map_map.symm

theorem analyzeTree_info_of_renames (a : Analyzer) (hrenames : t.Renames t' r)
    (hsize : t.nodes.size ≤ UInt32.size) : (a.analyzeTree t').info = (a.analyzeTree t).info := by
  rw [analyzeTree, analyzeTree, hrenames.language]
  split
  · simp only
    rw [AnalysisInfo.foldl_addVerdict_perm (a.verdicts_perm hrenames hsize)]
    simp [List.foldl_map]
  · rfl

theorem analyzeTree_violations_of_renames (a : Analyzer) (hrenames : t.Renames t' r)
    (hsize : t.nodes.size ≤ UInt32.size) :
    (a.analyzeTree t').violations.Perm (a.analyzeTree t).violations := by
  rw [analyzeTree, analyzeTree, hrenames.language]
  split
  · have hperm := (a.verdicts_perm hrenames hsize).filterMap a.report?
    simpa [List.filterMap_map, Function.comp_def] using hperm
  · exact .nil

end Analyzer

namespace SyntaxTree

/-- **The order of the tables does not matter.** A valid tree whose tables are put into another order,
with all handles renamed, is valid. The verdict on a renamed node is the verdict on the node, with the
handles in it renamed. A report counts the same, and has the same violations in another order. -/
theorem reorder_invariant {t : SyntaxTree} (o : t.Reordering) (hvalid : t.validate = .ok ()) :
    (t.reorder o).validate = .ok () ∧
    (∀ p source id, (t.reorder o).verdict p source (o.renaming.node id) =
      (t.verdict p source id).rename o.renaming) ∧
    ∀ a : Analyzer, (a.analyzeTree (t.reorder o)).info = (a.analyzeTree t).info ∧
      (a.analyzeTree (t.reorder o)).violations.Perm (a.analyzeTree t).violations := by
  have hrenames := o.renames
  have htypes : (t.reorder o).types.size ≤ UInt32.size := by simpa using o.types_le
  exact ⟨hrenames.validate_eq_ok o.nodes_le htypes hvalid, hrenames.verdict,
    fun a => ⟨a.analyzeTree_info_of_renames hrenames o.nodes_le,
      a.analyzeTree_violations_of_renames hrenames o.nodes_le⟩⟩

/-- The nodes and declarations of `nestedCall` in reverse order, so that parents come after their
children. -/
def nestedCallReversed : nestedCall.Reordering where
  nodes := Fin.revPerm
  declarations := Fin.revPerm
  types := Equiv.refl _
  nodes_le := by decide
  declarations_le := by decide
  types_le := by decide

/-- The inner call of `nestedCall` comes first in the reversed tree, and is reported there as well. -/
theorem reorder_invariant_nestedCall :
    let a := Analyzer.new (.ofNames "Checked" "Safe")
    let t := nestedCall.reorder nestedCallReversed
    nestedCall.validate = .ok () ∧ t.validate = .ok () ∧
    t.node? ⟨0⟩ = some ⟨some ⟨1⟩, ⟨40, 50⟩, .call ⟨"open", some ⟨2⟩, ⟨40, 44⟩, ⟨40, 50⟩⟩⟩ ∧
    t.verdict a.policy none ⟨0⟩ =
      .violation (.ofCall a.policy "Main.kt" none ⟨"open", some ⟨0⟩, ⟨40, 44⟩, ⟨40, 50⟩⟩) ∧
    (a.analyzeTree t).info = (a.analyzeTree nestedCall).info ∧
    (a.analyzeTree t).violations.Perm (a.analyzeTree nestedCall).violations := by
  intro a t
  have hvalid : nestedCall.validate = .ok () := rfl
  obtain ⟨hreordered, hverdict, hreport⟩ := reorder_invariant nestedCallReversed hvalid
  have hfirst := nestedCallReversed.renames.node ⟨4⟩
  exact ⟨hvalid, hreordered, hfirst, hverdict a.policy none ⟨4⟩, hreport a⟩

end SyntaxTree

end Uncaught
