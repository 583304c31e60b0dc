import Uncaught.Tree.Ancestors

/-!
A tree is valid when every handle points into its table, no node is its own parent, and every chain of
parents reaches a node without parent. The first fault is reported: handles before chains, nodes
before types, each in the order of its table.
-/

namespace Uncaught.SyntaxTree

def handleFault? (table : Table) (index : UInt32) (count : Nat) : Option TreeError :=
  if index.toNat < count then none else some (.invalidHandle table index count)

/-- The fault of the parent of the node at a position of the table. -/
def parentFault? (t : SyntaxTree) (position : Nat) (node : Node) : Option TreeError :=
  match node.parent with
  | none => none
  | some parent =>
    (handleFault? .node parent.index t.nodes.size).or
      (if parent.index.toNat = position then some (.malformed ⟨position.toUInt32⟩ .ownParent)
        else none)

/-- The fault of the handle inside a node, if it has one. -/
def kindFault? (t : SyntaxTree) (kind : NodeKind) : Option TreeError :=
  match kind with
  | .call c => c.target.bind fun d => handleFault? .declaration d.index t.declarations.size
  | .lambda interface => interface.bind fun i => handleFault? .type i.index t.types.size
  | .tryScope _ | .function _ | .other => none

def nodeFault? (t : SyntaxTree) (entry : Node × Nat) : Option TreeError :=
  (t.parentFault? entry.2 entry.1).or (t.kindFault? entry.1.kind)

def typeFault? (t : SyntaxTree) (type : TypeDecl) : Option TreeError :=
  type.methods.findSome? fun d => handleFault? .declaration d.index t.declarations.size

def chainFault? (t : SyntaxTree) (entry : NodeId × Node) : Option TreeError :=
  (t.ancestors entry.1).error

/-- The first fault of a tree. -/
def fault? (t : SyntaxTree) : Option TreeError :=
  (t.nodes.toList.zipIdx.findSome? t.nodeFault?).or
    ((t.types.toList.findSome? t.typeFault?).or (t.entries.findSome? t.chainFault?))

def validate (t : SyntaxTree) : Except TreeError Unit :=
  match t.fault? with
  | none => .ok ()
  | some error => .error error

end Uncaught.SyntaxTree
