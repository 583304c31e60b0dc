import Uncaught.Proofs.Check.Repair

/-!
Nodes that make no difference. Neither search of a scope ends at a call, at a node of no special kind,
or at a try that does not catch the exception, so such a node may stand anywhere between a node and
its parent. Only a lambda must not be parted from its parent, because that is where the function that
receives it is looked for.
-/

namespace Uncaught

/-- Both searches pass over nodes of this kind. -/
def Policy.Transparent (p : Policy) : NodeKind → Prop
  | .other | .call _ => True
  | .tryScope clauses => ∀ clause ∈ clauses, p.checkedException ∉ clause.caught
  | .function _ | .lambda _ => False

instance (p : Policy) : DecidablePred p.Transparent
  | .other | .call _ => isTrue trivial
  | .tryScope clauses =>
    inferInstanceAs (Decidable (∀ clause ∈ clauses, p.checkedException ∉ clause.caught))
  | .function _ | .lambda _ => isFalse id

variable {p : Policy} {inserted : List (NodeId × Node)}

namespace Policy.Transparent

theorem isLambda_eq_false {kind : NodeKind} (htransparent : p.Transparent kind) :
    kind.isLambda = false := by
  cases kind with
  | lambda _ => exact htransparent.elim
  | call _ | tryScope _ | function _ | other => rfl

theorem isFunction_eq_false {kind : NodeKind} (htransparent : p.Transparent kind) :
    kind.isFunction = false := by
  cases kind with
  | function _ => exact htransparent.elim
  | call _ | tryScope _ | lambda _ | other => rfl

theorem decides_eq_false {node : Node} (htransparent : p.Transparent node.kind) (id : NodeId) :
    p.decides (id, node) = false := by
  rw [decides]
  cases hkind : node.kind with
  | tryScope clauses =>
      rw [hkind] at htransparent
      have hcaught : ¬p.caughtBy clauses = true := by
        rw [caughtBy_iff]
        rintro ⟨clause, hclause, hmem⟩
        exact htransparent clause hclause hmem
      exact Bool.eq_false_iff.mpr hcaught
  | function _ =>
      rw [hkind] at htransparent
      exact htransparent.elim
  | call _ | lambda _ | other => rfl

end Policy.Transparent

theorem Policy.handlerIn_insert (hinserted : ∀ entry ∈ inserted, p.Transparent entry.2.kind)
    (before after : List (NodeId × Node)) :
    p.handlerIn (before ++ (inserted ++ after)) = p.handlerIn (before ++ after) := by
  apply handlerIn_skip
  intro entry hmem
  exact (hinserted entry hmem).decides_eq_false entry.1

/-- The search for a handler asks for the kinds of nodes only. -/
theorem Policy.handlerIn_congr_kind (p : Policy) {id : NodeId} {node node' : Node}
    (hkind : node'.kind = node.kind) (before after : List (NodeId × Node)) :
    p.handlerIn (before ++ (id, node') :: after) = p.handlerIn (before ++ (id, node) :: after) := by
  have hdecides : p.decides (id, node') = p.decides (id, node) := by rw [decides, decides, hkind]
  have hhandling : p.handling (id, node') = p.handling (id, node) := by rw [handling, handling, hkind]
  rw [handlerIn, handlerIn, List.find?_append, List.find?_append, List.find?_cons, List.find?_cons,
    hdecides]
  cases before.find? p.decides with
  | some entry => rfl
  | none =>
      cases p.decides (id, node) with
      | true => exact hhandling
      | false => rfl

/-- Nodes that are not lambdas can be left out of the search for one. -/
theorem lambdaIn_skip {skipped : List (NodeId × Node)}
    (hskip : ∀ entry ∈ skipped, entry.2.kind.isLambda = false) (before after : List (NodeId × Node)) :
    lambdaIn (before ++ (skipped ++ after)) = lambdaIn (before ++ after) := by
  have hnone : skipped.find? (·.2.kind.isLambda) = none := by simpa using hskip
  rw [lambdaIn, lambdaIn, List.find?_append, List.find?_append, List.find?_append, hnone,
    Option.none_or]

theorem lambdaIn_other (id : NodeId) {node : Node} (hlambda : node.kind.isLambda = false)
    (before after : List (NodeId × Node)) :
    lambdaIn (before ++ (id, node) :: after) = lambdaIn (before ++ after) := by
  have hskip : ∀ entry ∈ [(id, node)], entry.2.kind.isLambda = false :=
    List.forall_mem_singleton.mpr hlambda
  exact lambdaIn_skip hskip before after

theorem lambdaIn_insert (hinserted : ∀ entry ∈ inserted, p.Transparent entry.2.kind)
    (before after : List (NodeId × Node)) :
    lambdaIn (before ++ (inserted ++ after)) = lambdaIn (before ++ after) := by
  apply lambdaIn_skip
  intro entry hmem
  exact (hinserted entry hmem).isLambda_eq_false

namespace SyntaxTree

variable {t t' : SyntaxTree} {source : Option String} {id x parent : NodeId} {node xnode : Node}
  {before after : List (NodeId × Node)}

namespace Moves

variable (hmoves : t.Moves t' id parent) (hfile : t'.file = t.file) (htables : t.TablesAgree t')
  (hrooted : t.Rooted) (hid : t.node? id = some node)

include hmoves hfile htables hrooted hid

/-- To move a function makes no difference: nothing inside looks beyond it, and it is no call. -/
theorem verdict_eq_of_function (hfunction : node.kind.isFunction = true) (hx : t.node? x = some xnode) :
    t'.verdict p source x = t.verdict p source x := by
  by_cases hself : x = id
  · subst hself
    cases hkind : node.kind with
    | function f => simp only [verdict, hid, hmoves.moved hid, hkind]
    | call _ | tryScope _ | lambda _ | other =>
        rw [hkind] at hfunction
        cases hfunction
  · obtain ⟨chain, hscope, hlength⟩ := (hrooted x xnode hx).exists_scope hx
    refine verdict_congr p source hfile htables hscope hlength
      ⟨xnode, xnode, hx, hmoves.kept hself hx, rfl, rfl⟩ ?_
    intro a anode hmem
    have ha := hscope.node?_of_mem hmem
    by_cases hmoved : a = id
    · subst hmoved
      cases hid.symm.trans ha
      refine ⟨_, hmoves.moved hid, rfl, fun hinner => ?_⟩
      rw [hfunction] at hinner
      cases hinner
    · exact ⟨anode, hmoves.kept hmoved ha, rfl, fun _ => rfl⟩

section Inserted

-- transparent nodes lead from the new parent of the moved node to its old one
variable (hrooted' : t'.Rooted) (hinner : node.kind.isFunction = false)
  (hlinks : t'.Links (some parent) inserted (t.parent? id))
  (hinserted : ∀ entry ∈ inserted, p.Transparent entry.2.kind)

include hrooted' hinner hlinks hinserted

theorem verdict_self_eq : t'.verdict p source id = t.verdict p source id := by
  obtain ⟨chain, hscope, hlength⟩ := (hrooted id node hid).exists_scope hid
  have hmoved := hmoves.moved hid
  have hscope' : t'.Scope id (inserted ++ chain) :=
    hmoves.scope_of_links hid hinner hscope hmoved hlinks
  have hhandler : p.handlerIn (inserted ++ chain) = p.handlerIn chain :=
    Policy.handlerIn_insert hinserted [] chain
  have hlambdas : lambdaIn (inserted ++ chain) = lambdaIn chain := lambdaIn_insert hinserted [] chain
  exact verdict_eq_of_searches source hfile htables hscope hlength hscope' (hrooted'.length_le hscope')
    hid hmoved rfl hhandler (hmoves.exemptionIn_congr htables hscope hlambdas)

theorem verdict_below_eq (hlambda : node.kind.isLambda = false) (hx : x ≠ id)
    (hscope : t.Scope x (before ++ (id, node) :: after)) (hfirst : (id, node) ∉ before) :
    t'.verdict p source x = t.verdict p source x := by
  obtain ⟨xnode, hxnode⟩ := hscope.exists_node?
  have hscope' := hmoves.scope_below hid hinner hlinks hx hscope hfirst
  have hkind : { node with parent := some parent }.kind = node.kind := rfl
  generalize { node with parent := some parent } = moved at hscope' hkind
  have hhandler : p.handlerIn (before ++ (id, moved) :: (inserted ++ after)) =
      p.handlerIn (before ++ (id, node) :: after) :=
    calc p.handlerIn (before ++ (id, moved) :: (inserted ++ after))
      _ = p.handlerIn (before ++ (id, node) :: (inserted ++ after)) :=
          p.handlerIn_congr_kind hkind before (inserted ++ after)
      _ = p.handlerIn (before ++ [(id, node)] ++ (inserted ++ after)) := by
          rw [List.append_assoc, List.singleton_append]
      _ = p.handlerIn (before ++ [(id, node)] ++ after) := Policy.handlerIn_insert hinserted _ after
      _ = p.handlerIn (before ++ (id, node) :: after) := by
          rw [List.append_assoc, List.singleton_append]
  have hlambdas : lambdaIn (before ++ (id, moved) :: (inserted ++ after)) =
      lambdaIn (before ++ (id, node) :: after) :=
    calc lambdaIn (before ++ (id, moved) :: (inserted ++ after))
      _ = lambdaIn (before ++ (inserted ++ after)) :=
          lambdaIn_other id (hkind ▸ hlambda) before (inserted ++ after)
      _ = lambdaIn (before ++ after) := lambdaIn_insert hinserted before after
      _ = lambdaIn (before ++ (id, node) :: after) :=
          (lambdaIn_other id hlambda before after).symm
  exact verdict_eq_of_searches source hfile htables hscope (hrooted.length_le hscope) hscope'
    (hrooted'.length_le hscope') hxnode (hmoves.kept hx hxnode) rfl hhandler
    (hmoves.exemptionIn_congr htables hscope hlambdas)

end Inserted

/-- Transparent nodes may be put above any node that is not a lambda. -/
theorem verdict_eq_of_transparent (hrooted' : t'.Rooted) (hlambda : node.kind.isLambda = false)
    (hlinks : t'.Links (some parent) inserted (t.parent? id))
    (hinserted : ∀ entry ∈ inserted, p.Transparent entry.2.kind) (hx : t.node? x = some xnode) :
    t'.verdict p source x = t.verdict p source x := by
  cases hinner : node.kind.isFunction with
  | true => exact hmoves.verdict_eq_of_function hfile htables hrooted hid hinner hx
  | false =>
      by_cases hself : x = id
      · subst hself
        exact hmoves.verdict_self_eq hfile htables hrooted hid hrooted' hinner hlinks hinserted
      · obtain ⟨chain, hscope, hlength⟩ := (hrooted x xnode hx).exists_scope hx
        by_cases hon : (id, node) ∈ chain
        · obtain ⟨before, after, rfl, hfirst⟩ := List.eq_append_cons_of_mem hon
          exact hmoves.verdict_below_eq hfile htables hrooted hid hrooted' hinner hlinks hinserted hlambda
            hself hscope hfirst
        · exact hmoves.verdict_eq p source hfile htables hid hself hscope hlength hon

end Moves

/-- **Transparent nodes do not change verdicts.** A call, a node of no special kind or a try that does
not catch the exception may be put between any node but a lambda and its parent, or above it, if it
has none: as long as the tree stays valid, every node keeps its verdict. -/
theorem verdict_insert_transparent (p : Policy) (source : Option String) {n : NodeId} (added : Node)
    (hvalid : t.validate = .ok ()) (hx : t.node? x = some xnode) (hlambda : xnode.kind.isLambda = false)
    (hn : n.index.toNat = t.nodes.size) (hparent : added.parent = xnode.parent)
    (htransparent : p.Transparent added.kind) (ht' : t' = t.graft x n [added] [] [])
    (hvalid' : t'.validate = .ok ()) (hid : t.node? id = some node) :
    t'.verdict p source id = t.verdict p source id := by
  obtain ⟨hhandles, hrooted⟩ := (validate_eq_ok_iff t).mp hvalid
  obtain ⟨-, hrooted'⟩ := (validate_eq_ok_iff t').mp hvalid'
  have hmoves : t.Moves t' x n := ht' ▸ graft_moves t x n [added] [] []
  have htables : t.TablesAgree t' := ht' ▸ hhandles.tablesAgree_graft x n [added] [] []
  have hadded : t'.node? n = some added := by simp [ht', hn]
  have hlinks : t'.Links (some n) [(n, added)] (t.parent? x) :=
    ⟨rfl, hadded, htransparent.isFunction_eq_false, hparent.trans (parent?_of_node? hx).symm⟩
  have hfile : t'.file = t.file := by rw [ht', file_graft]
  exact hmoves.verdict_eq_of_transparent hfile htables hrooted hx hrooted' hlambda hlinks
    (List.forall_mem_singleton.mpr htransparent) hid

/-- The nested call with a further try around the call that receives the lambda. -/
def nestedCallRetried : SyntaxTree :=
  nestedCall.graft ⟨2⟩ ⟨5⟩ [⟨some ⟨1⟩, ⟨20, 70⟩, .tryScope [⟨["IOException"]⟩, ⟨["Error"]⟩]⟩] [] []

theorem verdict_insert_transparent_nestedCall :
    nestedCall.validate = .ok () ∧ nestedCallRetried.validate = .ok () ∧
    nestedCallRetried.parent? ⟨2⟩ = some ⟨5⟩ ∧
    nestedCallRetried.verdict (.ofNames "Checked" "Safe") none ⟨4⟩ =
      nestedCall.verdict (.ofNames "Checked" "Safe") none ⟨4⟩ := by
  refine ⟨rfl, rfl, rfl, ?_⟩
  exact verdict_insert_transparent (.ofNames "Checked" "Safe") none (x := ⟨2⟩) (n := ⟨5⟩)
    ⟨some ⟨1⟩, ⟨20, 70⟩, .tryScope [⟨["IOException"]⟩, ⟨["Error"]⟩]⟩ rfl rfl rfl rfl rfl (by decide) rfl rfl
    rfl

end SyntaxTree

end Uncaught
