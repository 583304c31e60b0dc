import Mathlib.Data.List.Find
import Uncaught.Proofs.Check.Walks
import Uncaught.Tree.Validation

/-!
A verdict is local. It reads the node, the parents and kinds of the nodes on its scope, the kind of the
function that ends the scope, and the tables that these refer to. Two trees that agree there give the
same verdict, whatever else they hold, and neither of them has to be valid.
-/

namespace Uncaught

variable {t t' : SyntaxTree} {p : Policy} {id : NodeId} {node : Node} {site : LambdaSite}
  {chain : List (NodeId × Node)}

/-- A search finds the same in a list and in its image, if the image of an entry is judged as the
entry is. -/
theorem search_map_eq {α : Type} (view : NodeId × Node → NodeId × Node) (stops : NodeId × Node → Bool)
    (found : NodeId × Node → Option α) (hstops : ∀ entry ∈ chain, stops (view entry) = stops entry)
    (hfound : ∀ entry ∈ chain, stops entry = true → found (view entry) = found entry) :
    ((chain.map view).find? stops).bind found = (chain.find? stops).bind found := by
  rw [List.find?_map, show chain.find? (stops ∘ view) = chain.find? stops from List.find?_congr hstops]
  cases hfind : chain.find? stops with
  | none => rfl
  | some entry => exact hfound entry (List.mem_of_find?_eq_some hfind) (List.find?_some hfind)

namespace SyntaxTree

/-- Both trees have the node, with the same parent and kind. -/
def SameNode (t t' : SyntaxTree) (id : NodeId) : Prop :=
  ∃ node node', t.node? id = some node ∧ t'.node? id = some node' ∧
    node'.parent = node.parent ∧ node'.kind = node.kind

/-- The other tree has the nodes of a scope, with the same kinds and, up to the function, with the
same parents. -/
def AgreesOn (t' : SyntaxTree) (chain : List (NodeId × Node)) : Prop :=
  ∀ a node, (a, node) ∈ chain → ∃ node', t'.node? a = some node' ∧ node'.kind = node.kind ∧
    (node.kind.isFunction = false → node'.parent = node.parent)

/-- The entry that a tree has for the handle of an entry. -/
def relook (t' : SyntaxTree) (entry : NodeId × Node) : NodeId × Node :=
  (entry.1, (t'.node? entry.1).getD entry.2)

theorem relook_eq {a : NodeId} {node' : Node} (hnode : t'.node? a = some node') (node : Node) :
    t'.relook (a, node) = (a, node') := by
  rw [relook, hnode, Option.getD_some]

/-- The scope in the other tree. -/
theorem Scope.relook (hscope : t.Scope id chain) (hsite : t.SameNode t' id)
    (hagrees : t'.AgreesOn chain) : t'.Scope id (chain.map t'.relook) := by
  induction hscope with
  | root hnode hroot =>
      obtain ⟨node, node', hnode', hother, hparent, -⟩ := hsite
      cases hnode.symm.trans hnode'
      exact .root hother (hparent.trans hroot)
  | @function id f fnode hup hf hfunction =>
      obtain ⟨node, node', hnode, hother, hparent, -⟩ := hsite
      obtain ⟨fnode', hf', hkind, -⟩ := hagrees f fnode (List.mem_singleton_self _)
      rw [List.map_singleton, relook_eq hf']
      rw [parent?_of_node? hnode, ← hparent, ← parent?_of_node? hother] at hup
      exact .function hup hf' (hkind ▸ hfunction)
  | @step id a anode chain hup ha hinner _ ih =>
      obtain ⟨node, node', hnode, hother, hparent, -⟩ := hsite
      obtain ⟨anode', ha', hkind, haparent⟩ := hagrees a anode List.mem_cons_self
      have hasite : t.SameNode t' a := ⟨anode, anode', ha, ha', haparent hinner, hkind⟩
      have hrest := ih hasite fun b bnode hmem => hagrees b bnode (List.mem_cons_of_mem _ hmem)
      rw [List.map_cons, relook_eq ha']
      rw [parent?_of_node? hnode, ← hparent, ← parent?_of_node? hother] at hup
      exact .step hup ha' (hkind ▸ hinner) hrest

theorem AgreesOn.handlerIn_eq (hagrees : t'.AgreesOn chain) (p : Policy) :
    p.handlerIn (chain.map t'.relook) = p.handlerIn chain := by
  apply search_map_eq
  · rintro ⟨a, node⟩ hmem
    obtain ⟨node', ha, hkind, -⟩ := hagrees a node hmem
    simp only [relook_eq ha, Policy.decides, hkind]
  · rintro ⟨a, node⟩ hmem -
    obtain ⟨node', ha, hkind, -⟩ := hagrees a node hmem
    simp only [relook_eq ha, Policy.handling, hkind]

theorem AgreesOn.lambdaIn_eq (hagrees : t'.AgreesOn chain) :
    lambdaIn (chain.map t'.relook) = lambdaIn chain := by
  apply search_map_eq
  · rintro ⟨a, node⟩ hmem
    obtain ⟨node', ha, hkind, -⟩ := hagrees a node hmem
    simp only [relook_eq ha, hkind]
  · rintro ⟨a, node⟩ hmem hlambda
    obtain ⟨node', ha, hkind, hparent⟩ := hagrees a node hmem
    cases hk : node.kind with
    | lambda interface =>
        rw [hk] at hparent
        simp only [relook_eq ha, lambdaSite?, hkind, hk, hparent rfl]
    | call _ | tryScope _ | function _ | other => simp [hk, NodeKind.isLambda] at hlambda

/-- The other tree resolves what the nodes of a tree refer to as that tree does. -/
structure TablesAgree (t t' : SyntaxTree) : Prop where
  resolve : ∀ {a : NodeId} {node : Node} {c : Call}, t.node? a = some node → node.kind = .call c →
    t'.resolve? c = t.resolve? c
  contract : ∀ {a : NodeId} {node : Node} {interface : Option TypeId}, t.node? a = some node →
    node.kind = .lambda interface → t'.contract? interface = t.contract? interface

theorem TablesAgree.of_eq (hdeclarations : t'.declarations = t.declarations)
    (htypes : t'.types = t.types) : t.TablesAgree t' := by
  have hdeclaration : t'.declaration? = t.declaration? := by
    funext d
    rw [declaration?, declaration?, hdeclarations]
  have htype : t'.type? = t.type? := by
    funext i
    rw [type?, type?, htypes]
  constructor
  · intro a node c _ _
    rw [resolve?, resolve?, hdeclaration]
  · intro a node interface _ _
    rw [contract?, contract?, hdeclaration, htype]

theorem TablesAgree.receivesSafely_eq (htables : t.TablesAgree t') (hnode : t.node? id = some node)
    {node' : Node} (hkind : node'.kind = node.kind) :
    t'.receivesSafely p node' = t.receivesSafely p node := by
  rw [receivesSafely, receivesSafely, hkind]
  cases hk : node.kind with
  | call c => simp only [htables.resolve hnode hk]
  | tryScope _ | function _ | lambda _ | other => rfl

/-- A lambda of a tree is exempt in the other tree as it is there, if its parent has the same kind. -/
theorem TablesAgree.exemptionOf_eq (htables : t.TablesAgree t') (hlambda : t.node? id = some node)
    (hkind : node.kind = .lambda site.interface)
    (hreceiver : ∀ receiver, site.parent = some receiver → ∃ rnode rnode',
      t.node? receiver = some rnode ∧ t'.node? receiver = some rnode' ∧ rnode'.kind = rnode.kind) :
    t'.exemptionOf p site = t.exemptionOf p site := by
  rw [exemptionOf, exemptionOf, throwsByContract, throwsByContract, htables.contract hlambda hkind]
  cases hparent : site.parent with
  | none => rfl
  | some receiver =>
      obtain ⟨rnode, rnode', hr, hr', hrkind⟩ := hreceiver receiver hparent
      simp only [hr, hr', Option.bind_some, htables.receivesSafely_eq hr hrkind]

theorem Scope.exemptionIn_eq (hscope : t.Scope id chain) (hagrees : t'.AgreesOn chain)
    (htables : t.TablesAgree t') :
    t'.exemptionIn p (chain.map t'.relook) = t.exemptionIn p chain := by
  rw [exemptionIn, exemptionIn, hagrees.lambdaIn_eq]
  cases hsite : lambdaIn chain with
  | none => rfl
  | some site =>
      obtain ⟨⟨lambda, lnode⟩, hfind, hentry⟩ := Option.bind_eq_some_iff.mp hsite
      have hlambda := hscope.node?_of_mem (List.mem_of_find?_eq_some hfind)
      refine htables.exemptionOf_eq hlambda (lambdaSite?_eq_some hentry).2.2 fun receiver hparent => ?_
      -- the receiver is on the scope, so the trees agree on its kind
      obtain ⟨rnode, hmem⟩ := hscope.exists_receiver hsite hparent
      obtain ⟨rnode', hreceiver, hkind, -⟩ := hagrees receiver rnode hmem
      exact ⟨rnode, rnode', hscope.node?_of_mem hmem, hreceiver, hkind⟩

/-- Scopes on which both searches find the same lead to the same verdict. -/
theorem verdict_eq_of_searches (source : Option String) (hfile : t'.file = t.file)
    (htables : t.TablesAgree t') (hscope : t.Scope id chain) (hlength : chain.length ≤ maxAncestors)
    {chain' : List (NodeId × Node)} (hscope' : t'.Scope id chain')
    (hlength' : chain'.length ≤ maxAncestors) {node' : Node} (hnode : t.node? id = some node)
    (hnode' : t'.node? id = some node') (hkind : node'.kind = node.kind)
    (hhandler : p.handlerIn chain' = p.handlerIn chain)
    (hexemption : t'.exemptionIn p chain' = t.exemptionIn p chain) :
    t'.verdict p source id = t.verdict p source id := by
  have hchecked : ∀ c, t'.checkedVerdict p source id c = t.checkedVerdict p source id c := by
    intro c
    rw [hscope.checkedVerdict_eq hlength, hscope'.checkedVerdict_eq hlength', hhandler, hexemption, hfile]
  rw [verdict, verdict, hnode, hnode']
  cases hk : node.kind with
  | call c => simp only [hkind, hk, htables.resolve hnode hk, hchecked]
  | tryScope _ | function _ | lambda _ | other => simp only [hkind, hk]

/-- What a verdict reads: the node, the nodes on its scope, and what the nodes refer to. -/
theorem verdict_congr (p : Policy) (source : Option String) (hfile : t'.file = t.file)
    (htables : t.TablesAgree t') (hscope : t.Scope id chain) (hlength : chain.length ≤ maxAncestors)
    (hsite : t.SameNode t' id) (hagrees : t'.AgreesOn chain) :
    t'.verdict p source id = t.verdict p source id := by
  have hscope' := hscope.relook hsite hagrees
  have hlength' : (chain.map t'.relook).length ≤ maxAncestors := by rwa [List.length_map]
  obtain ⟨node, node', hnode, hnode', -, hkind⟩ := hsite
  exact verdict_eq_of_searches source hfile htables hscope hlength hscope' hlength' hnode hnode' hkind
    (hagrees.handlerIn_eq p) (hscope.exemptionIn_eq hagrees htables)

/-- **A verdict is local.** It is the same in every tree with the same file name and tables that
agrees on the node and on its scope. -/
theorem verdict_local (p : Policy) (source : Option String) (hfile : t'.file = t.file)
    (hdeclarations : t'.declarations = t.declarations) (htypes : t'.types = t.types)
    (hscope : t.Scope id chain) (hlength : chain.length ≤ maxAncestors)
    (hsite : t.SameNode t' id) (hagrees : t'.AgreesOn chain) :
    t'.verdict p source id = t.verdict p source id :=
  verdict_congr p source hfile (.of_eq hdeclarations htypes) hscope hlength hsite hagrees

/-- The nested call again, in a tree that is broken around it: the function names a parent that does
not exist, and two further nodes are each other's parent. -/
def nestedCallBroken : SyntaxTree :=
  { nestedCall with
    nodes := (nestedCall.nodes.set 0 ⟨some ⟨9⟩, ⟨0, 0⟩, .function ⟨"main", []⟩⟩) ++
      #[⟨some ⟨6⟩, ⟨0, 0⟩, .other⟩, ⟨some ⟨5⟩, ⟨0, 0⟩, .other⟩] }

theorem verdict_local_nestedCall :
    nestedCallBroken.validate = .error (.invalidHandle .node 9 7) ∧
    nestedCallBroken.verdict (.ofNames "Checked" "Safe") none ⟨4⟩ =
      nestedCall.verdict (.ofNames "Checked" "Safe") none ⟨4⟩ := by
  refine ⟨rfl, verdict_local _ none rfl rfl rfl scope_nestedCall (by decide)
    ⟨_, _, rfl, rfl, rfl, rfl⟩ ?_⟩
  intro a node hmem
  simp only [List.mem_cons, Prod.mk.injEq, List.not_mem_nil, or_false] at hmem
  rcases hmem with ⟨rfl, rfl⟩ | ⟨rfl, rfl⟩ | ⟨rfl, rfl⟩ | ⟨rfl, rfl⟩
  · exact ⟨_, rfl, rfl, fun _ => rfl⟩
  · exact ⟨_, rfl, rfl, fun _ => rfl⟩
  · exact ⟨_, rfl, rfl, fun _ => rfl⟩
  · exact ⟨_, rfl, rfl, fun hinner => by cases hinner⟩

end SyntaxTree

end Uncaught
