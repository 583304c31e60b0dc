import Mathlib.Logic.Equiv.Basic
import Uncaught.Proofs.Tree.Validity

/-!
Trees under other handles. A handle is only a name: if the tables of a tree are put into another order
and every handle is renamed with them, the entries that handles lead to are the same up to their own
handles. So a walk over parents passes the renamed nodes, and the tree is valid if it was before.
-/

namespace Uncaught

/-- New names for the handles of a tree. -/
structure Renaming where
  node : NodeId → NodeId
  declaration : DeclId → DeclId
  type : TypeId → TypeId

def Call.rename (r : Renaming) (c : Call) : Call := { c with target := c.target.map r.declaration }

@[simp] def NodeKind.rename (r : Renaming) : NodeKind → NodeKind
  | .call c => .call (c.rename r)
  | .lambda interface => .lambda (interface.map r.type)
  | .tryScope clauses => .tryScope clauses
  | .function f => .function f
  | .other => .other

theorem NodeKind.rename_eq_call {r : Renaming} {kind : NodeKind} {c' : Call}
    (hkind : kind.rename r = .call c') : ∃ c, kind = .call c ∧ c.rename r = c' := by
  cases kind with
  | call c => exact ⟨c, rfl, NodeKind.call.inj hkind⟩
  | tryScope _ | function _ | lambda _ | other => cases hkind

theorem NodeKind.rename_eq_lambda {r : Renaming} {kind : NodeKind} {interface' : Option TypeId}
    (hkind : kind.rename r = .lambda interface') :
    ∃ interface, kind = .lambda interface ∧ interface.map r.type = interface' := by
  cases kind with
  | lambda interface => exact ⟨interface, rfl, NodeKind.lambda.inj hkind⟩
  | call _ | tryScope _ | function _ | other => cases hkind

def Node.rename (r : Renaming) (node : Node) : Node :=
  { node with parent := node.parent.map r.node, kind := node.kind.rename r }

@[simp] theorem Node.parent_rename (r : Renaming) (node : Node) :
    (node.rename r).parent = node.parent.map r.node := rfl

@[simp] theorem Node.kind_rename (r : Renaming) (node : Node) :
    (node.rename r).kind = node.kind.rename r := rfl

def TypeDecl.rename (r : Renaming) (type : TypeDecl) : TypeDecl :=
  { type with methods := type.methods.map r.declaration }

@[simp] theorem TypeDecl.methods_rename (r : Renaming) (type : TypeDecl) :
    (type.rename r).methods = type.methods.map r.declaration := rfl

/-- An error about a node, for the renamed node. -/
def TreeError.rename (r : Renaming) : TreeError → TreeError
  | .invalidHandle .node index count => .invalidHandle .node (r.node ⟨index⟩).index count
  | .malformed node fault => .malformed (r.node node) fault
  | error => error

def Chain.rename (r : Renaming) (chain : Chain) : Chain where
  nodes := chain.nodes.map fun entry => (r.node entry.1, entry.2.rename r)
  error := chain.error.map (·.rename r)

@[simp] theorem Chain.nodes_rename (r : Renaming) (chain : Chain) :
    (chain.rename r).nodes = chain.nodes.map fun entry => (r.node entry.1, entry.2.rename r) := rfl

@[simp] theorem Chain.error_rename (r : Renaming) (chain : Chain) :
    (chain.rename r).error = chain.error.map (·.rename r) := rfl

namespace SyntaxTree

variable {t t' : SyntaxTree} {r : Renaming}

/-- The second tree is the first one with the entries of its tables in another order and under the
names that these places give them. -/
structure Renames (t t' : SyntaxTree) (r : Renaming) : Prop where
  file : t'.file = t.file
  language : t'.language = t.language
  source : t'.source = t.source
  size : t'.nodes.size = t.nodes.size
  node : ∀ id, t'.node? (r.node id) = (t.node? id).map (·.rename r)
  declaration : ∀ d, t'.declaration? (r.declaration d) = t.declaration? d
  type : ∀ i, t'.type? (r.type i) = (t.type? i).map (·.rename r)
  bijective : r.node.Bijective
  typeSurjective : r.type.Surjective

namespace Renames

variable (hrenames : t.Renames t' r)

include hrenames

theorem parent? (id : NodeId) : t'.parent? (r.node id) = (t.parent? id).map r.node := by
  rw [SyntaxTree.parent?, SyntaxTree.parent?, hrenames.node]
  cases t.node? id <;> rfl

theorem climb (origin : NodeId) (n : Nat) (next : Option NodeId) :
    t'.climb (r.node origin) n (next.map r.node) = (t.climb origin n next).rename r := by
  induction n generalizing next with
  | zero => cases next <;> rfl
  | succ n ih =>
      cases next with
      | none => rfl
      | some a =>
          rw [Option.map_some, SyntaxTree.climb, SyntaxTree.climb, hrenames.node, hrenames.size]
          cases t.node? a with
          | none => rfl
          | some node => simp [ih, Chain.rename]

theorem ancestors (id : NodeId) : t'.ancestors (r.node id) = (t.ancestors id).rename r := by
  rw [ancestors_eq, ancestors_eq, hrenames.parent?, hrenames.climb]

theorem rooted (hrooted : t.Rooted) : t'.Rooted := by
  intro id' node' hnode'
  obtain ⟨id, rfl⟩ := hrenames.bijective.surjective id'
  have hnode := hnode'
  rw [hrenames.node, Option.map_eq_some_iff] at hnode
  obtain ⟨node, hnode, rfl⟩ := hnode
  have hroot := (climb_error_eq_none_iff id _ hnode).mpr (hrooted id node hnode)
  rw [← climb_error_eq_none_iff (r.node id) _ hnode']
  change (t'.climb (r.node id) maxAncestors (node.parent.map r.node)).error = none
  simp [hrenames.climb, hroot]

theorem declaration_lt {d : DeclId} (hd : d.index.toNat < t.declarations.size) :
    (r.declaration d).index.toNat < t'.declarations.size := by
  have hdeclaration := hrenames.declaration d
  rw [declaration?, declaration?, Array.getElem?_eq_getElem hd] at hdeclaration
  exact (Array.getElem?_eq_some_iff.mp hdeclaration).1

theorem type_lt {i : TypeId} (hi : i.index.toNat < t.types.size) :
    (r.type i).index.toNat < t'.types.size := by
  have htype := hrenames.type i
  rw [type?, type?, Array.getElem?_eq_getElem hi] at htype
  exact (Array.getElem?_eq_some_iff.mp htype).1

/-- Every place of the table has the renamed node of some handle. -/
theorem exists_node_at (hsize : t.nodes.size ≤ UInt32.size) {position : Nat} {node' : Node}
    (hposition : t'.nodes[position]? = some node') :
    ∃ id node, t.node? id = some node ∧ node' = node.rename r ∧
      (r.node id).index.toNat = position := by
  have hindex := toNat_toUInt32_of_getElem? (hrenames.size ▸ hsize) hposition
  obtain ⟨id, hid⟩ := hrenames.bijective.surjective ⟨position.toUInt32⟩
  have hnode := hrenames.node id
  rw [hid, node?, hindex, hposition] at hnode
  obtain ⟨node, hnode, heq⟩ := Option.map_eq_some_iff.mp hnode.symm
  exact ⟨id, node, hnode, heq.symm, by rw [hid, hindex]⟩

/-- Every type of the table is the renamed type of some handle. -/
theorem exists_type_of_mem (hsize : t'.types.size ≤ UInt32.size) {type' : TypeDecl}
    (hmem : type' ∈ t'.types) : ∃ i type, t.type? i = some type ∧ type' = type.rename r := by
  obtain ⟨position, hposition⟩ := Array.mem_iff_getElem?.mp hmem
  have hindex := toNat_toUInt32_of_getElem? hsize hposition
  obtain ⟨i, hi⟩ := hrenames.typeSurjective ⟨position.toUInt32⟩
  have htype := hrenames.type i
  rw [hi, type?, hindex, hposition] at htype
  obtain ⟨type, htype, heq⟩ := Option.map_eq_some_iff.mp htype.symm
  exact ⟨i, type, htype, heq.symm⟩

theorem handlesValid (hnodes : t.nodes.size ≤ UInt32.size) (htypes : t'.types.size ≤ UInt32.size)
    (hvalid : t.HandlesValid) : t'.HandlesValid where
  parents position node' parent' hposition hparent' := by
    obtain ⟨id, node, hnode, rfl, rfl⟩ := hrenames.exists_node_at hnodes hposition
    obtain ⟨parent, hparent, rfl⟩ := Option.map_eq_some_iff.mp hparent'
    obtain ⟨hlt, hne⟩ := hvalid.parents _ node parent hnode hparent
    constructor
    · obtain ⟨pnode, hpnode⟩ := exists_node?_iff.mpr hlt
      exact exists_node?_iff.mp ⟨_, (hrenames.node parent).trans (congrArg _ hpnode)⟩
    · -- two names for one node would make a new self-loop
      intro heq
      rw [NodeId.toNat_inj] at heq
      exact hne (NodeId.toNat_inj.mpr (hrenames.bijective.injective heq))
  targets position node' c' d' hposition hkind' htarget' := by
    obtain ⟨id, node, hnode, rfl, -⟩ := hrenames.exists_node_at hnodes hposition
    obtain ⟨c, hkind, rfl⟩ := NodeKind.rename_eq_call hkind'
    obtain ⟨d, htarget, rfl⟩ := Option.map_eq_some_iff.mp htarget'
    exact hrenames.declaration_lt (hvalid.targets _ node c d hnode hkind htarget)
  interfaces position node' i' hposition hkind' := by
    obtain ⟨id, node, hnode, rfl, -⟩ := hrenames.exists_node_at hnodes hposition
    obtain ⟨interface, hkind, hinterface⟩ := NodeKind.rename_eq_lambda hkind'
    obtain ⟨i, rfl, rfl⟩ := Option.map_eq_some_iff.mp hinterface
    exact hrenames.type_lt (hvalid.interfaces _ node i hnode hkind)
  methods type' hmem d' hd' := by
    obtain ⟨i, type, htype, rfl⟩ := hrenames.exists_type_of_mem htypes hmem
    obtain ⟨d, hd, rfl⟩ := List.mem_map.mp hd'
    exact hrenames.declaration_lt (hvalid.methods type (Array.mem_of_getElem? htype) d hd)

theorem validate_eq_ok (hnodes : t.nodes.size ≤ UInt32.size) (htypes : t'.types.size ≤ UInt32.size)
    (hvalid : t.validate = .ok ()) : t'.validate = .ok () := by
  obtain ⟨hhandles, hrooted⟩ := (validate_eq_ok_iff t).mp hvalid
  exact (validate_eq_ok_iff t').mpr
    ⟨hrenames.handlesValid hnodes htypes hhandles, hrenames.rooted hrooted⟩

end Renames

end SyntaxTree

/-! ### Permutations -/

/-- Where a permutation of the places of a table takes an index. An index past the table stays. -/
def movedIndex {n : Nat} (σ : Equiv.Perm (Fin n)) (index : UInt32) : UInt32 :=
  if h : index.toNat < n then (σ ⟨index.toNat, h⟩).val.toUInt32 else index

/-- The table in the order that a permutation of its places gives. -/
def permute {α : Type} (xs : Array α) (σ : Equiv.Perm (Fin xs.size)) : Array α :=
  Array.ofFn fun i => xs[σ.symm i]

@[simp] theorem size_permute {α : Type} (xs : Array α) (σ : Equiv.Perm (Fin xs.size)) :
    (permute xs σ).size = xs.size :=
  Array.size_ofFn

section

variable {n : Nat} (hn : n ≤ UInt32.size) (σ : Equiv.Perm (Fin n)) {index : UInt32}

theorem movedIndex_of_not_lt (hindex : ¬index.toNat < n) : movedIndex σ index = index :=
  dif_neg hindex

include hn

theorem toNat_movedIndex (hindex : index.toNat < n) :
    (movedIndex σ index).toNat = σ ⟨index.toNat, hindex⟩ := by
  rw [movedIndex, dif_pos hindex]
  exact UInt32.toNat_ofNat_of_lt' (by have := (σ ⟨index.toNat, hindex⟩).isLt; omega)

@[simp] theorem movedIndex_symm (index : UInt32) : movedIndex σ.symm (movedIndex σ index) = index := by
  by_cases hindex : index.toNat < n
  · have hmoved := toNat_movedIndex hn σ hindex
    have hlt : (movedIndex σ index).toNat < n := hmoved ▸ (σ ⟨index.toNat, hindex⟩).isLt
    rw [← UInt32.toNat_inj, toNat_movedIndex hn σ.symm hlt]
    have hfin : (⟨(movedIndex σ index).toNat, hlt⟩ : Fin n) = σ ⟨index.toNat, hindex⟩ := Fin.ext hmoved
    rw [hfin, Equiv.symm_apply_apply]
  · rw [movedIndex_of_not_lt σ hindex, movedIndex_of_not_lt σ.symm hindex]

theorem movedIndex_bijective : (movedIndex σ).Bijective :=
  Function.bijective_iff_has_inverse.mpr
    ⟨movedIndex σ.symm, movedIndex_symm hn σ, fun index => movedIndex_symm hn σ.symm index⟩

end


@[simp] theorem permute_getElem? {α : Type} {xs : Array α} (hsize : xs.size ≤ UInt32.size)
    (σ : Equiv.Perm (Fin xs.size)) (index : UInt32) :
    (permute xs σ)[(movedIndex σ index).toNat]? = xs[index.toNat]? := by
  by_cases hindex : index.toNat < xs.size
  · rw [toNat_movedIndex hsize σ hindex]
    simp [permute, hindex]
  · rw [movedIndex_of_not_lt σ hindex]
    simp [Nat.not_lt.mp hindex]

namespace SyntaxTree

/-- Another order of the tables of a tree. The tables are no longer than handles reach, so that every
place in them has a name. -/
structure Reordering (t : SyntaxTree) where
  nodes : Equiv.Perm (Fin t.nodes.size)
  declarations : Equiv.Perm (Fin t.declarations.size)
  types : Equiv.Perm (Fin t.types.size)
  nodes_le : t.nodes.size ≤ UInt32.size
  declarations_le : t.declarations.size ≤ UInt32.size
  types_le : t.types.size ≤ UInt32.size

/-- The names that a new order gives. -/
def Reordering.renaming {t : SyntaxTree} (o : t.Reordering) : Renaming where
  node id := ⟨movedIndex o.nodes id.index⟩
  declaration d := ⟨movedIndex o.declarations d.index⟩
  type i := ⟨movedIndex o.types i.index⟩

/-- The tree with its tables in another order and its handles renamed. -/
def reorder (t : SyntaxTree) (o : t.Reordering) : SyntaxTree :=
  { t with
    nodes := (permute t.nodes o.nodes).map (·.rename o.renaming)
    declarations := permute t.declarations o.declarations
    types := (permute t.types o.types).map (·.rename o.renaming) }

section Look

variable {t : SyntaxTree} (o : t.Reordering)

@[simp] theorem size_nodes_reorder : (t.reorder o).nodes.size = t.nodes.size := by simp [reorder]

@[simp] theorem size_types_reorder : (t.reorder o).types.size = t.types.size := by simp [reorder]

@[simp] theorem node?_reorder (id : NodeId) :
    (t.reorder o).node? (o.renaming.node id) = (t.node? id).map (·.rename o.renaming) := by
  simp [node?, reorder, Reordering.renaming, o.nodes_le]

@[simp] theorem declaration?_reorder (d : DeclId) :
    (t.reorder o).declaration? (o.renaming.declaration d) = t.declaration? d := by
  simp [declaration?, reorder, Reordering.renaming, o.declarations_le]

@[simp] theorem type?_reorder (i : TypeId) :
    (t.reorder o).type? (o.renaming.type i) = (t.type? i).map (·.rename o.renaming) := by
  simp [type?, reorder, Reordering.renaming, o.types_le]

end Look

theorem Reordering.renames {t : SyntaxTree} (o : t.Reordering) :
    t.Renames (t.reorder o) o.renaming where
  file := rfl
  language := rfl
  source := rfl
  size := size_nodes_reorder o
  node := node?_reorder o
  declaration := declaration?_reorder o
  type := type?_reorder o
  bijective := by
    obtain ⟨hinjective, hsurjective⟩ := movedIndex_bijective o.nodes_le o.nodes
    constructor
    · rintro ⟨i⟩ ⟨j⟩ hij
      exact congrArg NodeId.mk (hinjective (NodeId.mk.inj hij))
    · rintro ⟨j⟩
      obtain ⟨i, hi⟩ := hsurjective j
      exact ⟨⟨i⟩, congrArg NodeId.mk hi⟩
  typeSurjective := by
    rintro ⟨j⟩
    obtain ⟨i, hi⟩ := (movedIndex_bijective o.types_le o.types).surjective j
    exact ⟨⟨i⟩, congrArg TypeId.mk hi⟩

end SyntaxTree

end Uncaught
