import Uncaught.Tree.Ancestors

/-!
The handles above a node. Following the parents of a node step by step gives its successive ancestors;
`above` counts the steps, whether or not the last handle points anywhere. The chain of an ascent is
climbed by counting down the nodes that are left; it breaks off without an error exactly when a node
without parent is reached within them.
-/

namespace Uncaught

theorem NodeId.toNat_inj {a b : NodeId} : a.index.toNat = b.index.toNat ↔ a = b := by
  rw [UInt32.toNat_inj]
  cases a
  cases b
  rw [NodeId.mk.injEq]

/-- In a table that handles can name, the handle of a place points to it. -/
theorem toNat_toUInt32_of_getElem? {α : Type} {xs : Array α} (hsize : xs.size ≤ UInt32.size)
    {position : Nat} {x : α} (hx : xs[position]? = some x) : position.toUInt32.toNat = position := by
  obtain ⟨hlt, -⟩ := Array.getElem?_eq_some_iff.mp hx
  exact UInt32.toNat_ofNat_of_lt' (Nat.lt_of_lt_of_le hlt hsize)

namespace Ascent

variable {t : SyntaxTree} {a b : Ascent} {id : NodeId} {node : Node} {entry : NodeId × Node}
  {error : TreeError}

theorem step_of_ended (hnext : a.next = none) : a.step t = (none, a) := by rw [step, hnext]

theorem step_of_tooDeep (hnext : a.next = some id) (hdepth : maxAncestors ≤ a.depth) : a.step t =
    (some (.error (.malformed a.origin .tooDeep)), ⟨a.origin, none, a.depth + 1⟩) := by
  rw [step, hnext]
  exact if_pos (Nat.lt_succ_of_le hdepth)

theorem step_of_dangling (hnext : a.next = some id) (hdepth : a.depth < maxAncestors)
    (hnode : t.node? id = none) : a.step t =
      (some (.error (.invalidHandle .node id.index t.nodes.size)), ⟨a.origin, none, a.depth + 1⟩) := by
  rw [step, hnext]
  simp only [hnode, if_neg (Nat.not_lt.mpr hdepth)]

theorem step_of_node (hnext : a.next = some id) (hdepth : a.depth < maxAncestors)
    (hnode : t.node? id = some node) :
    a.step t = (some (.ok (id, node)), ⟨a.origin, node.parent, a.depth + 1⟩) := by
  rw [step, hnext]
  simp only [hnode, if_neg (Nat.not_lt.mpr hdepth)]

theorem chain_of_ended (hstep : a.step t = (none, b)) (n : Nat) :
    a.chain t (n + 1) = ⟨[], none⟩ := by
  rw [chain, hstep]

theorem chain_of_error (hstep : a.step t = (some (.error error), b)) (n : Nat) :
    a.chain t (n + 1) = ⟨[], some error⟩ := by
  rw [chain, hstep]

theorem chain_of_ok (hstep : a.step t = (some (.ok entry), b)) (n : Nat) :
    a.chain t (n + 1) = ⟨entry :: (b.chain t n).nodes, (b.chain t n).error⟩ := by
  rw [chain, hstep]

end Ascent

namespace SyntaxTree

variable {t : SyntaxTree} {id a b : NodeId} {node : Node}

/-- Follows parents from `next` for at most `steps` nodes, on behalf of the node `origin`. -/
def climb (t : SyntaxTree) (origin : NodeId) : Nat → Option NodeId → Chain
  | _, none => ⟨[], none⟩
  | 0, some _ => ⟨[], some (.malformed origin .tooDeep)⟩
  | steps + 1, some id =>
    match t.node? id with
    | none => ⟨[], some (.invalidHandle .node id.index t.nodes.size)⟩
    | some node =>
      let rest := t.climb origin steps node.parent
      ⟨(id, node) :: rest.nodes, rest.error⟩

/-- One step more than there are nodes left is enough to see how the chain ends. -/
theorem chain_eq_climb (t : SyntaxTree) (origin : NodeId) (next : Option NodeId) {depth steps : Nat}
    (hleft : depth + steps = maxAncestors) :
    Ascent.chain t (steps + 1) ⟨origin, next, depth⟩ = t.climb origin steps next := by
  induction steps generalizing next depth with
  | zero =>
      cases next with
      | none => rw [Ascent.chain_of_ended (Ascent.step_of_ended rfl), climb]
      | some id =>
          have hdeep := Ascent.step_of_tooDeep (t := t) (a := ⟨origin, some id, depth⟩) rfl
            (Nat.le_of_eq hleft.symm)
          rw [Ascent.chain_of_error hdeep, climb]
  | succ steps ih =>
      have hdepth : depth < maxAncestors := by omega
      cases next with
      | none => rw [Ascent.chain_of_ended (Ascent.step_of_ended rfl), climb]
      | some id =>
          cases hnode : t.node? id with
          | none =>
              rw [Ascent.chain_of_error (Ascent.step_of_dangling rfl hdepth hnode), climb, hnode]
          | some node =>
              have hrest : Ascent.chain t (steps + 1) ⟨origin, node.parent, depth + 1⟩ =
                  t.climb origin steps node.parent := ih node.parent (by omega)
              rw [Ascent.chain_of_ok (Ascent.step_of_node rfl hdepth hnode), climb, hnode, hrest]

/-- The parent of a node. A handle that points nowhere has none. -/
def parent? (t : SyntaxTree) (id : NodeId) : Option NodeId := (t.node? id).bind (·.parent)

/-- The handle reached from a node by following `steps` parents. -/
def above (t : SyntaxTree) (id : NodeId) : Nat → Option NodeId
  | 0 => some id
  | steps + 1 => (t.above id steps).bind t.parent?

/-- A node without parent is reached by following at most `steps` parents. -/
def RootWithin (t : SyntaxTree) (steps : Nat) (id : NodeId) : Prop :=
  ∃ k ≤ steps, ∃ root node, t.above id k = some root ∧ t.node? root = some node ∧ node.parent = none

/-- The parents that nodes name are in the table. -/
def ParentsInRange (t : SyntaxTree) : Prop :=
  ∀ id parent, t.parent? id = some parent → ∃ node, t.node? parent = some node

theorem exists_node?_iff : (∃ node, t.node? id = some node) ↔ id.index.toNat < t.nodes.size := by
  simp only [node?, Array.getElem?_eq_some_iff]
  exact ⟨fun ⟨_, h, _⟩ => h, fun h => ⟨_, h, rfl⟩⟩

theorem parent?_of_node? (hnode : t.node? id = some node) : t.parent? id = node.parent := by
  rw [parent?, hnode, Option.bind_some]

theorem parent?_of_dangling (hnode : t.node? id = none) : t.parent? id = none := by
  rw [parent?, hnode, Option.bind_none]

theorem ancestors_eq (t : SyntaxTree) (id : NodeId) :
    t.ancestors id = t.climb id maxAncestors (t.parent? id) :=
  t.chain_eq_climb id (t.parent? id) (Nat.zero_add maxAncestors)

theorem above_add (t : SyntaxTree) (id : NodeId) (m n : Nat) :
    t.above id (m + n) = (t.above id m).bind (t.above · n) := by
  induction n with
  | zero => exact (Option.bind_fun_some _).symm
  | succ n ih =>
      rw [← Nat.add_assoc, above, ih, Option.bind_assoc]
      rfl

theorem above_succ (t : SyntaxTree) (id : NodeId) (n : Nat) :
    t.above id (n + 1) = (t.parent? id).bind (t.above · n) := by
  rw [Nat.add_comm, above_add]
  rfl

theorem above_succ_of_parent? (hparent : t.parent? id = some a) (n : Nat) :
    t.above id (n + 1) = t.above a n := by
  rw [above_succ, hparent, Option.bind_some]

theorem above_eq_none_of_parent? (hparent : t.parent? id = none) (n : Nat) :
    t.above id (n + 1) = none := by
  rw [above_succ, hparent, Option.bind_none]

theorem exists_above_of_le {m n : Nat} (hle : m ≤ n) (hn : t.above id n = some a) :
    ∃ b, t.above id m = some b := by
  obtain ⟨k, rfl⟩ := Nat.exists_eq_add_of_le hle
  rw [above_add] at hn
  obtain ⟨b, hb, -⟩ := Option.bind_eq_some_iff.mp hn
  exact ⟨b, hb⟩

/-- Under parents in range, every handle above a node of the table is in the table. -/
theorem ParentsInRange.exists_node?_above (hin : t.ParentsInRange) (hnode : t.node? id = some node)
    {n : Nat} (hn : t.above id n = some a) : ∃ anode, t.node? a = some anode := by
  cases n with
  | zero =>
      cases hn
      exact ⟨node, hnode⟩
  | succ n =>
      rw [above] at hn
      obtain ⟨b, -, hb⟩ := Option.bind_eq_some_iff.mp hn
      exact hin b a hb

theorem rootWithin_of_root (hnode : t.node? id = some node) (hroot : node.parent = none) (n : Nat) :
    t.RootWithin n id :=
  ⟨0, Nat.zero_le n, id, node, rfl, hnode, hroot⟩

theorem not_rootWithin_zero (hparent : t.parent? id = some a) : ¬t.RootWithin 0 id := by
  rintro ⟨k, hk, root, node, habove, hnode, hroot⟩
  obtain rfl : k = 0 := Nat.le_zero.mp hk
  cases habove
  rw [parent?_of_node? hnode, hroot] at hparent
  cases hparent

theorem rootWithin_succ (hparent : t.parent? id = some a) (n : Nat) :
    t.RootWithin (n + 1) id ↔ t.RootWithin n a := by
  constructor
  · rintro ⟨k, hk, root, node, habove, hnode, hroot⟩
    cases k with
    | zero =>
        exact absurd ⟨0, Nat.le_refl 0, root, node, habove, hnode, hroot⟩ (not_rootWithin_zero hparent)
    | succ k =>
        rw [above_succ_of_parent? hparent] at habove
        exact ⟨k, Nat.le_of_succ_le_succ hk, root, node, habove, hnode, hroot⟩
  · rintro ⟨k, hk, root, node, habove, hnode, hroot⟩
    refine ⟨k + 1, Nat.succ_le_succ hk, root, node, ?_, hnode, hroot⟩
    rw [above_succ_of_parent? hparent, habove]

theorem not_rootWithin_of_dangling (hnode : t.node? id = none) (n : Nat) : ¬t.RootWithin n id := by
  rintro ⟨k, -, root, node, habove, hroot, -⟩
  cases k with
  | zero =>
      cases habove
      rw [hnode] at hroot
      cases hroot
  | succ k =>
      rw [above_eq_none_of_parent? (parent?_of_dangling hnode)] at habove
      cases habove

theorem climb_error_eq_none_iff (origin : NodeId) (n : Nat) (hnode : t.node? id = some node) :
    (t.climb origin n node.parent).error = none ↔ t.RootWithin n id := by
  induction n generalizing id node with
  | zero =>
      cases hparent : node.parent with
      | none => exact iff_of_true (by rw [climb]) (rootWithin_of_root hnode hparent 0)
      | some a =>
          rw [← parent?_of_node? hnode] at hparent
          exact iff_of_false (by simp [climb]) (not_rootWithin_zero hparent)
  | succ n ih =>
      cases hparent : node.parent with
      | none => exact iff_of_true (by rw [climb]) (rootWithin_of_root hnode hparent (n + 1))
      | some a =>
          rw [← parent?_of_node? hnode] at hparent
          rw [rootWithin_succ hparent, climb]
          cases ha : t.node? a with
          | none => exact iff_of_false (by simp) (not_rootWithin_of_dangling ha n)
          | some anode => exact ih ha

/-- A walk over parents in range can only break off because it is too long. -/
theorem ParentsInRange.climb_error (hin : t.ParentsInRange) (origin : NodeId) (n : Nat)
    (hnode : t.node? id = some node) :
    (t.climb origin n node.parent).error = none ∨
      (t.climb origin n node.parent).error = some (.malformed origin .tooDeep) := by
  induction n generalizing id node with
  | zero => cases node.parent <;> simp [climb]
  | succ n ih =>
      cases hparent : node.parent with
      | none => exact Or.inl (by rw [climb])
      | some a =>
          obtain ⟨anode, ha⟩ := hin id a ((parent?_of_node? hnode).trans hparent)
          rw [climb, ha]
          exact ih ha

/-- Over parents in range, no root within `n` steps means that there are more than `n` ancestors. -/
theorem ParentsInRange.not_rootWithin_iff (hin : t.ParentsInRange) (hnode : t.node? id = some node)
    (n : Nat) : ¬t.RootWithin n id ↔ ∃ a, t.above id (n + 1) = some a := by
  induction n generalizing id node with
  | zero =>
      cases hparent : t.parent? id with
      | none =>
          have hroot := rootWithin_of_root hnode ((parent?_of_node? hnode).symm.trans hparent) 0
          simp [hroot, above_eq_none_of_parent? hparent]
      | some a => exact iff_of_true (not_rootWithin_zero hparent) ⟨a, hparent⟩
  | succ n ih =>
      cases hparent : t.parent? id with
      | none =>
          have hroot :=
            rootWithin_of_root hnode ((parent?_of_node? hnode).symm.trans hparent) (n + 1)
          simp [hroot, above_eq_none_of_parent? hparent]
      | some a =>
          obtain ⟨anode, ha⟩ := hin id a hparent
          rw [rootWithin_succ hparent, ih ha, above_succ_of_parent? hparent]

end SyntaxTree

end Uncaught
