import Uncaught.Proofs.Tree.Scope

/-!
Moving one node of a tree below a node that is added to the table. Every other node stays as it is, so
a scope either does not reach the moved node and is kept, or is kept up to the moved node and goes on
with the scope that this node has in the new tree.
-/

namespace Uncaught.SyntaxTree

/-- The tree with a node moved below another parent and with entries added at the end of the tables. -/
def graft (t : SyntaxTree) (id parent : NodeId) (nodes : List Node) (declarations : List Declaration)
    (types : List TypeDecl) : SyntaxTree :=
  { t with
    nodes := (t.nodes.modify id.index.toNat fun node => { node with parent := some parent }) ++
      nodes.toArray
    declarations := t.declarations ++ declarations.toArray
    types := t.types ++ types.toArray }

/-- The other tree has every node of a tree, all but one unchanged, and that one below `parent`. -/
structure Moves (t t' : SyntaxTree) (id parent : NodeId) : Prop where
  moved : ∀ {node : Node}, t.node? id = some node → t'.node? id = some { node with parent := some parent }
  kept : ∀ {a : NodeId} {node : Node}, a ≠ id → t.node? a = some node → t'.node? a = some node

/-- Nodes of a tree that lead from one parent to another: the first entry is the node `first`, every
entry is the parent of the one before, and the last has the parent `last`. There is no function among
them. -/
def Links (t : SyntaxTree) : Option NodeId → List (NodeId × Node) → Option NodeId → Prop
  | first, [], last => first = last
  | first, (a, anode) :: rest, last =>
    first = some a ∧ t.node? a = some anode ∧ anode.kind.isFunction = false ∧
      t.Links anode.parent rest last

variable {t t' : SyntaxTree} {id a x parent : NodeId} {node anode xnode : Node} {nodes : List Node}
  {declarations : List Declaration} {types : List TypeDecl}
  {chain before after inserted : List (NodeId × Node)}

section Look

variable (t : SyntaxTree) (id parent : NodeId) (nodes : List Node) (declarations : List Declaration)
  (types : List TypeDecl)

@[simp] theorem file_graft : (t.graft id parent nodes declarations types).file = t.file := rfl

@[simp] theorem declarations_graft :
    (t.graft id parent nodes declarations types).declarations =
      t.declarations ++ declarations.toArray := rfl

@[simp] theorem types_graft :
    (t.graft id parent nodes declarations types).types = t.types ++ types.toArray := rfl

@[simp] theorem node?_graft (a : NodeId) :
    (t.graft id parent nodes declarations types).node? a =
      if a.index.toNat < t.nodes.size then
        if id = a then (t.node? a).map fun node => { node with parent := some parent } else t.node? a
      else nodes[a.index.toNat - t.nodes.size]? := by
  rw [node?, graft, Array.getElem?_append, Array.size_modify]
  split
  · rw [Array.getElem?_modify]
    simp only [NodeId.toNat_inj, node?]
  · rw [List.getElem?_toArray]

theorem graft_moves : t.Moves (t.graft id parent nodes declarations types) id parent where
  moved hnode := by simp [exists_node?_iff.mp ⟨_, hnode⟩, hnode]
  kept hne hnode := by simp [exists_node?_iff.mp ⟨_, hnode⟩, hne.symm, hnode]

end Look

theorem mem_of_graft_node? (hnew : t.node? a = none)
    (hnode : (t.graft id parent nodes declarations types).node? a = some node) : node ∈ nodes := by
  have hpast : ¬a.index.toNat < t.nodes.size := Nat.not_lt.mpr (Array.getElem?_eq_none_iff.mp hnew)
  rw [node?_graft, if_neg hpast] at hnode
  exact List.mem_of_getElem? hnode

namespace Moves

variable (hmoves : t.Moves t' id parent)

include hmoves

theorem parent?_self (hnode : t.node? id = some node) : t'.parent? id = some parent :=
  parent?_of_node? (hmoves.moved hnode)

theorem exists_kind (ha : t.node? a = some anode) :
    ∃ anode', t'.node? a = some anode' ∧ anode'.kind = anode.kind := by
  by_cases hself : a = id
  · subst hself
    exact ⟨_, hmoves.moved ha, rfl⟩
  · exact ⟨anode, hmoves.kept hself ha, rfl⟩

/-- The nodes on a part of a scope without the moved node are kept. -/
theorem kept_of_mem (hid : t.node? id = some node) (hoff : (id, node) ∉ chain)
    (hmem : (a, anode) ∈ chain) (ha : t.node? a = some anode) : t'.node? a = some anode := by
  refine hmoves.kept ?_ ha
  rintro rfl
  cases hid.symm.trans ha
  exact hoff hmem

/-- A node that is led to the old parent of the moved node has the nodes in between on its scope, and
then the old scope of the moved node. -/
theorem scope_of_links (hid : t.node? id = some node) (hinner : node.kind.isFunction = false)
    (hscope : t.Scope id chain) (hx : t'.node? x = some xnode)
    (hlinks : t'.Links xnode.parent inserted (t.parent? id)) : t'.Scope x (inserted ++ chain) := by
  induction inserted generalizing x xnode with
  | nil =>
      refine hscope.congr hx hlinks ?_
      intro a anode hmem
      exact hmoves.kept_of_mem hid (hscope.not_mem_self hinner) hmem (hscope.node?_of_mem hmem)
  | cons entry rest ih =>
      obtain ⟨hfirst, ha, hainner, hrest⟩ := hlinks
      exact .step ((parent?_of_node? hx).trans hfirst) ha hainner (ih ha hrest)

/-- A scope that reaches the moved node has, above it, first the inserted nodes. -/
theorem scope_below (hid : t.node? id = some node) (hinner : node.kind.isFunction = false)
    (hlinks : t'.Links (some parent) inserted (t.parent? id)) (hx : x ≠ id)
    (hscope : t.Scope x (before ++ (id, node) :: after)) (hfirst : (id, node) ∉ before) :
    t'.Scope x (before ++ (id, { node with parent := some parent }) :: (inserted ++ after)) := by
  obtain ⟨xnode, hxnode⟩ := hscope.exists_node?
  have hup : t'.parent? x = t.parent? x := by
    rw [parent?_of_node? hxnode, parent?_of_node? (hmoves.kept hx hxnode)]
  have hself : t'.Scope id (inserted ++ after) :=
    hmoves.scope_of_links hid hinner (hscope.of_append hinner) (hmoves.moved hid) hlinks
  refine hscope.replace hup ?_ (hmoves.moved hid) hinner hself
  intro b bnode hmem
  exact hmoves.kept_of_mem hid hfirst hmem (hscope.node?_of_mem (List.mem_append_left _ hmem))

end Moves

end Uncaught.SyntaxTree
