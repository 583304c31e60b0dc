import Mathlib.Combinatorics.Pigeonhole
import Mathlib.Logic.Relation
import Uncaught.Proofs.Tree.Lineage
import Uncaught.Tree.Validation

/-!
What validation decides. A tree is accepted exactly when its handles are valid and every chain of
parents reaches a root within the bound; in a small table the second condition says that no node is
its own ancestor. If only the chains are at fault, the lowest node with too many ancestors is named.
-/

namespace Uncaught.SyntaxTree

variable {t : SyntaxTree} {id a b : NodeId} {node : Node}

/-- The first node names the second as its parent. -/
def IsParent (t : SyntaxTree) (child parent : NodeId) : Prop := t.parent? child = some parent

/-- No node is among its own ancestors. -/
def Acyclic (t : SyntaxTree) : Prop := ∀ id, ¬Relation.TransGen t.IsParent id id

/-- Every node reaches a node without parent within the bound. -/
def Rooted (t : SyntaxTree) : Prop :=
  ∀ id node, t.node? id = some node → t.RootWithin maxAncestors id

/-- A node has more strict ancestors than the bound allows. -/
def Deep (t : SyntaxTree) (id : NodeId) : Prop := ∃ a, t.above id (maxAncestors + 1) = some a

theorem Deep.exists_node? (hdeep : t.Deep id) : ∃ node, t.node? id = some node := by
  obtain ⟨a, ha⟩ := hdeep
  rw [above_succ] at ha
  obtain ⟨parent, hparent, -⟩ := Option.bind_eq_some_iff.mp ha
  obtain ⟨node, hnode, -⟩ := Option.bind_eq_some_iff.mp hparent
  exact ⟨node, hnode⟩

theorem transGen_of_above {n : Nat} (hn : t.above a (n + 1) = some b) :
    Relation.TransGen t.IsParent a b := by
  induction n generalizing b with
  | zero => exact Relation.TransGen.single hn
  | succ n ih =>
      rw [above] at hn
      obtain ⟨c, hc, hb⟩ := Option.bind_eq_some_iff.mp hn
      exact (ih hc).tail hb

theorem not_rootWithin_of_cycle (hcycle : Relation.TransGen t.IsParent id id) (n : Nat) :
    ¬t.RootWithin n id := by
  induction n generalizing id with
  | zero =>
      obtain ⟨a, hparent, -⟩ := Relation.TransGen.head'_iff.mp hcycle
      exact not_rootWithin_zero hparent
  | succ n ih =>
      obtain ⟨a, hparent, hrest⟩ := Relation.TransGen.head'_iff.mp hcycle
      rw [rootWithin_succ hparent]
      exact ih (Relation.TransGen.tail' hrest hparent)

/-- As many steps as there are nodes visit one node twice. -/
theorem ParentsInRange.exists_cycle (hin : t.ParentsInRange) (hnode : t.node? id = some node)
    {n : Nat} (hn : t.above id n = some a) (hsize : t.nodes.size ≤ n) :
    ∃ b, Relation.TransGen t.IsParent b b := by
  have hvisit : ∀ k ≤ n, ∃ b, t.above id k = some b ∧ b.index.toNat < t.nodes.size := by
    intro k hk
    obtain ⟨b, hb⟩ := exists_above_of_le hk hn
    exact ⟨b, hb, exists_node?_iff.mp (hin.exists_node?_above hnode hb)⟩
  have hmaps : ∀ k ∈ Finset.range (n + 1),
      ((t.above id k).elim 0 (·.index.toNat)) ∈ Finset.range t.nodes.size := by
    intro k hk
    obtain ⟨b, hb, hlt⟩ := hvisit k (Nat.lt_succ_iff.mp (Finset.mem_range.mp hk))
    rw [hb]
    exact Finset.mem_range.mpr hlt
  obtain ⟨i, hi, j, hj, hne, heq⟩ :=
    Finset.exists_ne_map_eq_of_card_lt_of_maps_to (by simpa using Nat.lt_succ_of_le hsize) hmaps
  wlog hlt : i < j generalizing i j
  · exact this j hj i hi hne.symm heq.symm (by omega)
  obtain ⟨b, hb, -⟩ := hvisit i (Nat.lt_succ_iff.mp (Finset.mem_range.mp hi))
  obtain ⟨c, hc, -⟩ := hvisit j (Nat.lt_succ_iff.mp (Finset.mem_range.mp hj))
  rw [hb, hc] at heq
  obtain rfl : b = c := NodeId.toNat_inj.mp heq
  obtain ⟨k, rfl⟩ := Nat.exists_eq_add_of_lt hlt
  rw [Nat.add_assoc, above_add, hb, Option.bind_some] at hc
  exact ⟨b, transGen_of_above hc⟩

theorem Rooted.parentsInRange (hrooted : t.Rooted) : t.ParentsInRange := by
  intro id parent hparent
  obtain ⟨node, hnode, -⟩ := Option.bind_eq_some_iff.mp hparent
  cases hp : t.node? parent with
  | some pnode => exact ⟨pnode, rfl⟩
  | none =>
      have hroot := hrooted id node hnode
      rw [show maxAncestors = 4095 + 1 from rfl, rootWithin_succ hparent] at hroot
      exact absurd hroot (not_rootWithin_of_dangling hp 4095)

theorem rooted_iff_acyclic (hsize : t.nodes.size ≤ maxAncestors + 1) :
    t.Rooted ↔ t.ParentsInRange ∧ t.Acyclic := by
  constructor
  · intro hrooted
    refine ⟨hrooted.parentsInRange, fun id hcycle => ?_⟩
    obtain ⟨a, hparent, -⟩ := Relation.TransGen.head'_iff.mp hcycle
    obtain ⟨node, hnode, -⟩ := Option.bind_eq_some_iff.mp hparent
    exact not_rootWithin_of_cycle hcycle maxAncestors (hrooted id node hnode)
  · rintro ⟨hin, hacyclic⟩ id node hnode
    by_contra hroot
    obtain ⟨a, ha⟩ := (hin.not_rootWithin_iff hnode maxAncestors).mp hroot
    obtain ⟨b, hcycle⟩ := hin.exists_cycle hnode ha hsize
    exact hacyclic b hcycle

/-- The handles of a tree point into their tables, and no node is its own parent. -/
structure HandlesValid (t : SyntaxTree) : Prop where
  parents : ∀ (position : Nat) (node : Node) (parent : NodeId), t.nodes[position]? = some node →
    node.parent = some parent → parent.index.toNat < t.nodes.size ∧ parent.index.toNat ≠ position
  targets : ∀ (position : Nat) (node : Node) (c : Call) (d : DeclId), t.nodes[position]? = some node →
    node.kind = .call c → c.target = some d → d.index.toNat < t.declarations.size
  interfaces : ∀ (position : Nat) (node : Node) (i : TypeId), t.nodes[position]? = some node →
    node.kind = .lambda (some i) → i.index.toNat < t.types.size
  methods : ∀ type ∈ t.types, ∀ d ∈ type.methods, d.index.toNat < t.declarations.size

theorem HandlesValid.parentsInRange (hvalid : t.HandlesValid) : t.ParentsInRange := by
  intro id parent hparent
  obtain ⟨node, hnode, hp⟩ := Option.bind_eq_some_iff.mp hparent
  exact exists_node?_iff.mpr (hvalid.parents _ node parent hnode hp).1

@[simp] theorem handleFault?_eq_none_iff (table : Table) (index : UInt32) (count : Nat) :
    handleFault? table index count = none ↔ index.toNat < count := by
  simp [handleFault?]

theorem parentFault?_eq_none_iff (t : SyntaxTree) (position : Nat) (node : Node) :
    t.parentFault? position node = none ↔ ∀ parent, node.parent = some parent →
      parent.index.toNat < t.nodes.size ∧ parent.index.toNat ≠ position := by
  rw [parentFault?]
  cases node.parent with
  | none => simp
  | some parent => simp

theorem kindFault?_eq_none_iff (t : SyntaxTree) (kind : NodeKind) :
    t.kindFault? kind = none ↔
      (∀ c d, kind = .call c → c.target = some d → d.index.toNat < t.declarations.size) ∧
      ∀ i, kind = .lambda (some i) → i.index.toNat < t.types.size := by
  cases kind with
  | call c =>
      simp only [kindFault?, Option.bind_eq_none_iff, handleFault?_eq_none_iff, NodeKind.call.injEq,
        reduceCtorEq, false_implies, implies_true, and_true]
      exact ⟨fun h c' d hc => hc ▸ h d, fun h d => h c d rfl⟩
  | lambda interface => cases interface <;> simp [kindFault?]
  | tryScope _ => simp [kindFault?]
  | function _ => simp [kindFault?]
  | other => simp [kindFault?]

theorem nodeFault?_eq_none_iff (t : SyntaxTree) :
    t.nodes.toList.zipIdx.findSome? t.nodeFault? = none ↔
      ∀ position node, t.nodes[position]? = some node →
        t.parentFault? position node = none ∧ t.kindFault? node.kind = none := by
  simp only [List.findSome?_eq_none_iff, nodeFault?, Option.or_eq_none_iff, Prod.forall,
    List.mem_zipIdx_iff_getElem?, Array.getElem?_toList]
  exact forall_comm

theorem typeFault?_eq_none_iff (t : SyntaxTree) :
    t.types.toList.findSome? t.typeFault? = none ↔
      ∀ type ∈ t.types, ∀ d ∈ type.methods, d.index.toNat < t.declarations.size := by
  simp [typeFault?]

theorem handlesValid_iff (t : SyntaxTree) :
    t.HandlesValid ↔ t.nodes.toList.zipIdx.findSome? t.nodeFault? = none ∧
      t.types.toList.findSome? t.typeFault? = none := by
  simp only [nodeFault?_eq_none_iff, typeFault?_eq_none_iff, parentFault?_eq_none_iff,
    kindFault?_eq_none_iff]
  constructor
  · intro hvalid
    exact ⟨fun position node hnode => ⟨fun parent => hvalid.parents position node parent hnode,
      fun c d => hvalid.targets position node c d hnode,
      fun i => hvalid.interfaces position node i hnode⟩, hvalid.methods⟩
  · rintro ⟨hnodes, htypes⟩
    exact ⟨fun position node parent hnode => (hnodes position node hnode).1 parent,
      fun position node c d hnode => (hnodes position node hnode).2.1 c d,
      fun position node i hnode => (hnodes position node hnode).2.2 i, htypes⟩

@[simp] theorem entries_getElem? (t : SyntaxTree) (position : Nat) :
    t.entries[position]? = t.nodes[position]?.map fun node => (⟨position.toUInt32⟩, node) := by
  simp [entries, Function.comp_def]

theorem entries_getElem?_index (hnode : t.node? id = some node) :
    t.entries[id.index.toNat]? = some (id, node) := by
  rw [node?] at hnode
  rw [entries_getElem?, hnode, Option.map_some, Nat.toUInt32, UInt32.ofNat_toNat]

/-- An entry of the table comes with the handle of a node: a position past the last handle has that
of an earlier node. -/
theorem exists_node?_of_mem_entries {entry : NodeId × Node} (hentry : entry ∈ t.entries) :
    ∃ node, t.node? entry.1 = some node := by
  obtain ⟨position, hposition⟩ := List.mem_iff_getElem?.mp hentry
  rw [entries_getElem?, Option.map_eq_some_iff] at hposition
  obtain ⟨node, hnode, rfl⟩ := hposition
  obtain ⟨hlt, -⟩ := Array.getElem?_eq_some_iff.mp hnode
  refine exists_node?_iff.mpr (Nat.lt_of_le_of_lt ?_ hlt)
  rw [Nat.toUInt32, UInt32.toNat_ofNat']
  exact Nat.mod_le _ _

/-- The entries stand in the order of their handles. -/
theorem mem_entries_before {before after : List (NodeId × Node)} {entry : Node}
    (hsplit : t.entries = before ++ (id, entry) :: after) (hnode : t.node? a = some node)
    (hlt : a.index < id.index) : (a, node) ∈ before := by
  have hposition : t.entries[before.length]? = some (id, entry) := by simp [hsplit]
  rw [entries_getElem?, Option.map_eq_some_iff] at hposition
  obtain ⟨_, _, hhandle⟩ := hposition
  have hlength : a.index.toNat < before.length := by
    rw [← (Prod.mk.inj hhandle).1, UInt32.lt_iff_toNat_lt, Nat.toUInt32, UInt32.toNat_ofNat'] at hlt
    exact Nat.lt_of_lt_of_le hlt (Nat.mod_le _ _)
  have hentry := entries_getElem?_index hnode
  rw [hsplit, List.getElem?_append_left hlength] at hentry
  exact List.mem_of_getElem? hentry

theorem chainFault?_eq_none_iff (hnode : t.node? id = some node) (entry : Node) :
    t.chainFault? (id, entry) = none ↔ t.RootWithin maxAncestors id := by
  rw [chainFault?, ancestors_eq, parent?_of_node? hnode, climb_error_eq_none_iff id _ hnode]

theorem rooted_iff (t : SyntaxTree) : t.Rooted ↔ t.entries.findSome? t.chainFault? = none := by
  rw [List.findSome?_eq_none_iff]
  constructor
  · rintro hrooted ⟨id, entry⟩ hentry
    obtain ⟨node, hnode⟩ := exists_node?_of_mem_entries hentry
    exact (chainFault?_eq_none_iff hnode entry).mpr (hrooted id node hnode)
  · intro hchains id node hnode
    refine (chainFault?_eq_none_iff hnode node).mp (hchains (id, node) ?_)
    exact List.mem_of_getElem? (entries_getElem?_index hnode)

theorem validate_eq_ok_iff (t : SyntaxTree) :
    t.validate = .ok () ↔ t.HandlesValid ∧ t.Rooted := by
  rw [handlesValid_iff, rooted_iff, and_assoc, ← Option.or_eq_none_iff, ← Option.or_eq_none_iff,
    ← fault?, validate]
  cases t.fault? <;> simp

/-- With valid handles a chain is at fault exactly if it is too long, and then it is so described. -/
theorem HandlesValid.chainFault? (hvalid : t.HandlesValid) (hnode : t.node? id = some node)
    (entry : Node) :
    (¬t.Deep id ∧ t.chainFault? (id, entry) = none) ∨
      (t.Deep id ∧ t.chainFault? (id, entry) = some (.malformed id .tooDeep)) := by
  have hdeep := hvalid.parentsInRange.not_rootWithin_iff hnode maxAncestors
  rw [← chainFault?_eq_none_iff hnode entry] at hdeep
  have herror := hvalid.parentsInRange.climb_error id maxAncestors hnode
  rw [← parent?_of_node? hnode, ← ancestors_eq] at herror
  rcases herror with hnone | hsome
  · exact Or.inl ⟨fun h => hdeep.mpr h hnone, hnone⟩
  · refine Or.inr ⟨hdeep.mp fun hnone => ?_, hsome⟩
    rw [SyntaxTree.chainFault?, hsome] at hnone
    cases hnone

/-- If only the chains are at fault, the lowest node with too many ancestors is named. -/
theorem HandlesValid.validate_eq_error (hvalid : t.HandlesValid) (hrooted : ¬t.Rooted) :
    ∃ id, t.validate = .error (.malformed id .tooDeep) ∧ t.Deep id ∧
      ∀ other, t.Deep other → id.index ≤ other.index := by
  obtain ⟨hnodes, htypes⟩ := (handlesValid_iff t).mp hvalid
  rw [rooted_iff, ← ne_eq, Option.ne_none_iff_exists'] at hrooted
  obtain ⟨error, herror⟩ := hrooted
  have hvalidate : t.validate = .error error := by
    rw [validate, fault?, hnodes, htypes, herror]
    rfl
  obtain ⟨before, ⟨id, entry⟩, after, hsplit, hid, hbefore⟩ := List.findSome?_eq_some_iff.mp herror
  have hentry : (id, entry) ∈ t.entries := by simp [hsplit]
  obtain ⟨node, hnode⟩ := exists_node?_of_mem_entries hentry
  rcases hvalid.chainFault? hnode entry with ⟨-, hnone⟩ | ⟨hdeep, hsome⟩
  · rw [hid] at hnone
    cases hnone
  · rw [hid, Option.some.injEq] at hsome
    refine ⟨id, hsome ▸ hvalidate, hdeep, fun other hother => ?_⟩
    by_contra hlt
    -- a lower handle stands before the entry that was found, where no chain is at fault
    obtain ⟨onode, honode⟩ := hother.exists_node?
    have hmem := mem_entries_before hsplit honode (UInt32.not_le.mp hlt)
    rcases hvalid.chainFault? honode onode with ⟨hnot, -⟩ | ⟨-, hfault⟩
    · exact hnot hother
    · rw [hbefore _ hmem] at hfault
      cases hfault

/-- Validation is exact: it accepts the trees with valid handles whose chains all reach a root within
the bound. In a table that one chain can fill these are the chains without cycle. If only the chains
are at fault, the lowest node with too many ancestors is named. -/
theorem validate_exact (t : SyntaxTree) :
    (t.validate = .ok () ↔ t.HandlesValid ∧ t.Rooted) ∧
    (t.nodes.size ≤ maxAncestors + 1 → (t.Rooted ↔ t.ParentsInRange ∧ t.Acyclic)) ∧
    (t.HandlesValid → ¬t.Rooted →
      ∃ id, t.validate = .error (.malformed id .tooDeep) ∧ t.Deep id ∧
        ∀ other, t.Deep other → id.index ≤ other.index) :=
  ⟨validate_eq_ok_iff t, rooted_iff_acyclic, fun hvalid => hvalid.validate_eq_error⟩

/-- Two nodes, each the parent of the other. -/
def circle : SyntaxTree :=
  { empty "Main.kt" .kotlin with
    nodes := #[⟨some ⟨1⟩, ⟨0, 10⟩, .other⟩, ⟨some ⟨0⟩, ⟨0, 10⟩, .other⟩] }

theorem circle_handlesValid : circle.HandlesValid := (handlesValid_iff circle).mpr (by decide)

theorem validate_exact_circle : circle.nodes.size ≤ maxAncestors + 1 ∧ circle.HandlesValid ∧
    ¬circle.Rooted ∧ ∃ id, circle.validate = .error (.malformed id .tooDeep) := by
  obtain ⟨-, hacyclic, herror⟩ := validate_exact circle
  have hcycle : Relation.TransGen circle.IsParent ⟨0⟩ ⟨0⟩ :=
    transGen_of_above (n := 1) rfl
  have hrooted : ¬circle.Rooted := fun h => ((hacyclic (by decide)).mp h).2 ⟨0⟩ hcycle
  obtain ⟨id, hid, -⟩ := herror circle_handlesValid hrooted
  exact ⟨by decide, circle_handlesValid, hrooted, id, hid⟩

end Uncaught.SyntaxTree
