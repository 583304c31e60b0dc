import Uncaught.Tree.Error

/-!
The chain of parents above a node. An ascent gives the ancestors one after another and an error where
the chain breaks off, and nothing from then on. It gives at most `maxAncestors` of them, so it ends on any
tree, also where parents run in a circle.
-/

namespace Uncaught

/-- A walk up the parents of a node: the node that it began at, the handle that it takes next, and the
number of handles that it has taken. -/
structure Ascent where
  origin : NodeId
  next : Option NodeId
  depth : Nat

/-- The successive parents of a node, the innermost first, and the error that the chain breaks off
with, if it does not reach a node without parent. -/
structure Chain where
  nodes : List (NodeId × Node)
  error : Option TreeError

namespace Ascent

/-- What an ascent gives next, and the ascent that is left. The handle is taken before it is looked up, so
that nothing is left after an error. -/
def step (t : SyntaxTree) (a : Ascent) : Option (Except TreeError (NodeId × Node)) × Ascent :=
  match a.next with
  | none => (none, a)
  | some id =>
    let taken : Ascent := ⟨a.origin, none, a.depth + 1⟩
    if maxAncestors < taken.depth then (some (.error (.malformed a.origin .tooDeep)), taken)
    else
      match t.node? id with
      | none => (some (.error (.invalidHandle .node id.index t.nodes.size)), taken)
      | some node => (some (.ok (id, node)), { taken with next := node.parent })

/-- What an ascent gives in at most `steps` steps. -/
def chain (t : SyntaxTree) : (steps : Nat) → Ascent → Chain
  | 0, _ => ⟨[], none⟩
  | steps + 1, a =>
    match a.step t with
    | (none, _) => ⟨[], none⟩
    | (some (.error error), _) => ⟨[], some error⟩
    | (some (.ok entry), b) =>
      let rest := b.chain t steps
      ⟨entry :: rest.nodes, rest.error⟩

end Ascent

namespace SyntaxTree

/-- The ascent from a node. A handle that points nowhere has nothing above it. -/
def ascent (t : SyntaxTree) (id : NodeId) : Ascent := ⟨id, (t.node? id).bind (·.parent), 0⟩

/-- The chain above a node. No ascent gives more than `maxAncestors` nodes and an error. -/
def ancestors (t : SyntaxTree) (id : NodeId) : Chain := (t.ascent id).chain t (maxAncestors + 1)

end SyntaxTree

end Uncaught
