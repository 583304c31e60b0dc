import Uncaught.Proofs.Tree.Lineage

/-!
The scope of a node: its strict ancestors, the innermost first, cut just after the first function, or
all of them up to a root if there is no function. A scope is finite, so not every node of a malformed
tree has one; a node has at most one. A walk that climbs far enough starts with the scope, and a walk
that meets a function or ends without an error has seen one.
-/

namespace Uncaught

def NodeKind.isFunction : NodeKind → Bool
  | .function _ => true
  | .call _ | .tryScope _ | .lambda _ | .other => false

def NodeKind.isLambda : NodeKind → Bool
  | .lambda _ => true
  | .call _ | .tryScope _ | .function _ | .other => false

namespace SyntaxTree

/-- The list holds the ancestors of a node up to the function around it, or up to a root. -/
inductive Scope (t : SyntaxTree) : NodeId → List (NodeId × Node) → Prop
  | root {id : NodeId} {node : Node} (hnode : t.node? id = some node) (hroot : node.parent = none) :
      Scope t id []
  | function {id f : NodeId} {fnode : Node} (hparent : t.parent? id = some f)
      (hf : t.node? f = some fnode) (hfunction : fnode.kind.isFunction = true) :
      Scope t id [(f, fnode)]
  | step {id a : NodeId} {anode : Node} {chain : List (NodeId × Node)}
      (hparent : t.parent? id = some a) (ha : t.node? a = some anode)
      (hinner : anode.kind.isFunction = false) (hrest : Scope t a chain) :
      Scope t id ((a, anode) :: chain)

namespace Scope

variable {t t' : SyntaxTree} {id a : NodeId} {node anode : Node}
  {chain chain' before after : List (NodeId × Node)}

theorem exists_node? (hscope : t.Scope id chain) : ∃ node, t.node? id = some node := by
  cases hscope with
  | root hnode _ => exact ⟨_, hnode⟩
  | function hparent _ _ | step hparent _ _ _ =>
      obtain ⟨node, hnode, -⟩ := Option.bind_eq_some_iff.mp hparent
      exact ⟨node, hnode⟩

theorem node?_of_mem (hscope : t.Scope id chain) (hmem : (a, anode) ∈ chain) :
    t.node? a = some anode := by
  induction hscope with
  | root => cases hmem
  | function _ hf _ =>
      cases List.mem_singleton.mp hmem
      exact hf
  | step _ ha _ _ ih =>
      rcases List.mem_cons.mp hmem with heq | hrest
      · cases heq
        exact ha
      · exact ih hrest

/-- A node has one scope. -/
theorem unique (hscope : t.Scope id chain) (hother : t.Scope id chain') : chain = chain' := by
  induction hscope generalizing chain' with
  | root hnode hroot =>
      rw [← parent?_of_node? hnode] at hroot
      cases hother with
      | root => rfl
      | function hparent _ _ | step hparent _ _ _ =>
          rw [hroot] at hparent
          cases hparent
  | function hparent hf hfunction =>
      cases hother with
      | root hnode hroot =>
          rw [parent?_of_node? hnode, hroot] at hparent
          cases hparent
      | function hparent' hf' _ =>
          cases hparent.symm.trans hparent'
          cases hf.symm.trans hf'
          rfl
      | step hparent' hf' hinner _ =>
          cases hparent.symm.trans hparent'
          cases hf.symm.trans hf'
          rw [hfunction] at hinner
          cases hinner
  | step hparent ha hinner _ ih =>
      cases hother with
      | root hnode hroot =>
          rw [parent?_of_node? hnode, hroot] at hparent
          cases hparent
      | function hparent' ha' hfunction =>
          cases hparent.symm.trans hparent'
          cases ha.symm.trans ha'
          rw [hfunction] at hinner
          cases hinner
      | step hparent' ha' _ hrest =>
          cases hparent.symm.trans hparent'
          cases ha.symm.trans ha'
          rw [ih hrest]

/-- The scope of a node on a scope is the part above it. -/
theorem of_append (hscope : t.Scope id (before ++ (a, anode) :: after))
    (hinner : anode.kind.isFunction = false) : t.Scope a after := by
  induction before generalizing id with
  | nil =>
      cases hscope with
      | function _ _ hfunction =>
          rw [hfunction] at hinner
          cases hinner
      | step _ _ _ hrest => exact hrest
  | cons entry before ih =>
      rw [List.cons_append] at hscope
      generalize hchain : before ++ (a, anode) :: after = chain at hscope
      cases hscope with
      | function => simp at hchain
      | step _ _ _ hrest =>
          subst hchain
          exact ih hrest

/-- A node other than a function is not on its own scope. -/
theorem not_mem_self (hscope : t.Scope id chain) (hinner : node.kind.isFunction = false) :
    (id, node) ∉ chain := by
  intro hmem
  obtain ⟨before, after, rfl⟩ := List.append_of_mem hmem
  have hlength := congrArg List.length (hscope.unique (hscope.of_append hinner))
  simp at hlength
  omega

/-- A node with the same parent has the same scope in a tree that has the same nodes on it. -/
theorem congr (hscope : t.Scope id chain) {id' : NodeId} {node' : Node}
    (hnode' : t'.node? id' = some node') (hparent : node'.parent = t.parent? id)
    (hchain : ∀ a anode, (a, anode) ∈ chain → t'.node? a = some anode) : t'.Scope id' chain := by
  induction hscope generalizing id' node' with
  | root hnode hroot =>
      rw [parent?_of_node? hnode, hroot] at hparent
      exact .root hnode' hparent
  | function hup hf hfunction =>
      rw [hup, ← parent?_of_node? hnode'] at hparent
      exact .function hparent (hchain _ _ (List.mem_singleton_self _)) hfunction
  | step hup ha hinner _ ih =>
      rw [hup, ← parent?_of_node? hnode'] at hparent
      have ha' := hchain _ _ List.mem_cons_self
      have hrest := ih ha' (parent?_of_node? ha).symm fun b bnode hmem =>
        hchain b bnode (List.mem_cons_of_mem _ hmem)
      exact .step hparent ha' hinner hrest

/-- A tree that has the same nodes below a node on a scope, and another scope above it, has the two
parts as a scope. -/
theorem replace (hscope : t.Scope id (before ++ (a, anode) :: after))
    (hparent : t'.parent? id = t.parent? id)
    (hbefore : ∀ b bnode, (b, bnode) ∈ before → t'.node? b = some bnode) {anode' : Node}
    (ha : t'.node? a = some anode') (hinner : anode'.kind.isFunction = false)
    {after' : List (NodeId × Node)} (hafter : t'.Scope a after') :
    t'.Scope id (before ++ (a, anode') :: after') := by
  induction before generalizing id with
  | nil =>
      have hup : t.parent? id = some a := by cases hscope <;> assumption
      exact .step (hparent.trans hup) ha hinner hafter
  | cons entry before ih =>
      obtain ⟨b, bnode⟩ := entry
      rw [List.cons_append] at hscope
      generalize hchain : before ++ (a, anode) :: after = chain at hscope
      cases hscope with
      | function => simp at hchain
      | step hup hb hbinner hrest =>
          subst hchain
          have hb' := hbefore b bnode List.mem_cons_self
          have hbparent : t'.parent? b = t.parent? b := by
            rw [parent?_of_node? hb', parent?_of_node? hb]
          exact .step (hparent.trans hup) hb' hbinner
            (ih hrest hbparent fun c cnode hmem => hbefore c cnode (List.mem_cons_of_mem _ hmem))

/-- A climb that is long enough starts with the scope, and goes on only past a function. -/
theorem climb_eq (hscope : t.Scope id chain) (origin : NodeId) {n : Nat} (hlength : chain.length ≤ n) :
    ∃ rest, (t.climb origin n (t.parent? id)).nodes = chain ++ rest ∧
      ((rest = [] ∧ (t.climb origin n (t.parent? id)).error = none) ∨
        ∃ entry ∈ chain, entry.2.kind.isFunction = true) := by
  induction hscope generalizing n with
  | root hnode hroot =>
      rw [parent?_of_node? hnode, hroot, climb]
      exact ⟨[], rfl, Or.inl ⟨rfl, rfl⟩⟩
  | @function id f fnode hparent hf hfunction =>
      obtain ⟨n, rfl⟩ := Nat.exists_eq_add_of_le' hlength
      rw [hparent, List.length_singleton, climb, hf]
      exact ⟨_, rfl, Or.inr ⟨(f, fnode), List.mem_singleton_self _, hfunction⟩⟩
  | @step id a anode chain hparent ha _ _ ih =>
      cases n with
      | zero => cases hlength
      | succ n =>
          obtain ⟨rest, hnodes, hend⟩ := ih (Nat.le_of_succ_le_succ hlength)
          rw [parent?_of_node? ha] at hnodes hend
          rw [hparent, climb, ha]
          refine ⟨rest, by simp only [hnodes, List.cons_append], ?_⟩
          rcases hend with hend | ⟨entry, hentry, hfunction⟩
          · exact Or.inl hend
          · exact Or.inr ⟨entry, List.mem_cons_of_mem _ hentry, hfunction⟩

/-- A climb that ends well or passes a function has seen a whole scope. -/
theorem exists_of_climb (origin : NodeId) (n : Nat) (hnode : t.node? id = some node)
    (hend : (t.climb origin n node.parent).error = none ∨
      ∃ entry ∈ (t.climb origin n node.parent).nodes, entry.2.kind.isFunction = true) :
    ∃ chain, t.Scope id chain ∧ chain.length ≤ n := by
  induction n generalizing id node with
  | zero =>
      cases hparent : node.parent with
      | none => exact ⟨[], .root hnode hparent, Nat.le_refl 0⟩
      | some a => simp [hparent, climb] at hend
  | succ n ih =>
      cases hparent : node.parent with
      | none => exact ⟨[], .root hnode hparent, Nat.zero_le _⟩
      | some a =>
          have hup := (parent?_of_node? hnode).trans hparent
          rw [hparent, climb] at hend
          cases ha : t.node? a with
          | none => simp [ha] at hend
          | some anode =>
              cases hkind : anode.kind.isFunction with
              | true => exact ⟨[(a, anode)], .function hup ha hkind, Nat.succ_le_succ (Nat.zero_le n)⟩
              | false =>
                  simp only [ha, List.mem_cons, exists_eq_or_imp, hkind, Bool.false_eq_true,
                    false_or] at hend
                  obtain ⟨chain, hchain, hlength⟩ := ih ha hend
                  exact ⟨(a, anode) :: chain, .step hup ha hkind hchain, Nat.succ_le_succ hlength⟩

end Scope

theorem RootWithin.exists_scope {t : SyntaxTree} {id : NodeId} {node : Node} {n : Nat}
    (hroot : t.RootWithin n id) (hnode : t.node? id = some node) :
    ∃ chain, t.Scope id chain ∧ chain.length ≤ n :=
  Scope.exists_of_climb id n hnode (Or.inl ((climb_error_eq_none_iff id n hnode).mpr hroot))

/-- A call in a lambda that is passed to an unmarked function, inside a try that catches something
else. -/
def nestedCall : SyntaxTree where
  file := "Main.kt"
  language := .kotlin
  source := none
  nodes := #[
    ⟨none, ⟨0, 90⟩, .function ⟨"main", []⟩⟩,
    ⟨some ⟨0⟩, ⟨10, 80⟩, .tryScope [⟨["IOException"]⟩]⟩,
    ⟨some ⟨1⟩, ⟨20, 70⟩, .call ⟨"run", some ⟨1⟩, ⟨20, 23⟩, ⟨20, 70⟩⟩⟩,
    ⟨some ⟨2⟩, ⟨30, 60⟩, .lambda (some ⟨0⟩)⟩,
    ⟨some ⟨3⟩, ⟨40, 50⟩, .call ⟨"open", some ⟨0⟩, ⟨40, 44⟩, ⟨40, 50⟩⟩⟩]
  declarations := #[⟨"File.open", ["Checked"], [], false⟩, ⟨"run", [], [], false⟩,
    ⟨"Function0.invoke", [], [], true⟩]
  types := #[⟨"Function0", [⟨2⟩]⟩]

/-- The scope of the inner call: the lambda, the call that receives it, the try and the function. -/
theorem scope_nestedCall : nestedCall.Scope ⟨4⟩
    [(⟨3⟩, ⟨some ⟨2⟩, ⟨30, 60⟩, .lambda (some ⟨0⟩)⟩),
      (⟨2⟩, ⟨some ⟨1⟩, ⟨20, 70⟩, .call ⟨"run", some ⟨1⟩, ⟨20, 23⟩, ⟨20, 70⟩⟩⟩),
      (⟨1⟩, ⟨some ⟨0⟩, ⟨10, 80⟩, .tryScope [⟨["IOException"]⟩]⟩),
      (⟨0⟩, ⟨none, ⟨0, 90⟩, .function ⟨"main", []⟩⟩)] :=
  .step rfl rfl rfl (.step rfl rfl rfl (.step rfl rfl rfl (.function rfl rfl rfl)))

end SyntaxTree

end Uncaught
