import Uncaught.Report.Violation
import Uncaught.Tree.Ancestors

/-!
The verdict on one call. Most calls do not resolve to anything that throws the checked exception; of
those that do, one that is neither handled nor exempt is a violation.

An exception is handled by the innermost enclosing try scope that catches it, or by the enclosing
function, if it declares it. Nothing outside the enclosing function matters. A call inside a lambda is
exempt if the functional interface that the lambda implements declares the exception, or if the lambda is
handed to a function that carries the marker. Only the innermost lambda inside the enclosing function
counts.
-/

namespace Uncaught

/-- Why a checked call is handled. -/
inductive HandledBy where
  | catchClause (scope : NodeId)
  | declaration (function : NodeId)
  deriving DecidableEq, Repr

/-- A catch clause of a try scope names the checked exception. -/
def Policy.caughtBy (p : Policy) (clauses : List CatchClause) : Bool :=
  clauses.any fun clause => p.covers clause.caught

/-- Looks for a handler along a chain of ancestors. -/
def Policy.handlerAlong (p : Policy) :
    List (NodeId × Node) → Option TreeError → Except TreeError (Option HandledBy)
  | [], none => .ok none
  | [], some error => .error error
  | (id, node) :: rest, error =>
    match node.kind with
    | .tryScope clauses =>
      if p.caughtBy clauses then .ok (some (.catchClause id)) else p.handlerAlong rest error
    | .function f => .ok (if p.covers f.throws then some (.declaration id) else none)
    | .call _ | .lambda _ | .other => p.handlerAlong rest error

/-- The handler of an exception thrown at a node. -/
def SyntaxTree.handler? (t : SyntaxTree) (p : Policy) (id : NodeId) :
    Except TreeError (Option HandledBy) :=
  let chain := t.ancestors id
  p.handlerAlong chain.nodes chain.error

/-- Why a checked call in a closure is exempt. -/
inductive Exemption where
  | throwingContract (lambda : NodeId)
  | safeMarker (lambda receiver : NodeId)
  deriving DecidableEq, Repr

/-- A lambda in a tree: its handle, its parent and the interface it implements. -/
structure LambdaSite where
  id : NodeId
  parent : Option NodeId
  interface : Option TypeId
  deriving DecidableEq, Repr

/-- The innermost lambda along a chain of ancestors, up to the enclosing function. -/
def lambdaAlong :
    List (NodeId × Node) → Option TreeError → Except TreeError (Option LambdaSite)
  | [], none => .ok none
  | [], some error => .error error
  | (id, node) :: rest, error =>
    match node.kind with
    | .lambda interface => .ok (some ⟨id, node.parent, interface⟩)
    | .function _ => .ok none
    | .call _ | .tryScope _ | .other => lambdaAlong rest error

namespace SyntaxTree

def enclosingLambda? (t : SyntaxTree) (id : NodeId) : Except TreeError (Option LambdaSite) :=
  let chain := t.ancestors id
  lambdaAlong chain.nodes chain.error

/-- The one abstract method of a functional interface. -/
def contract? (t : SyntaxTree) (interface : Option TypeId) : Option Declaration := do
  let id ← interface
  let type ← t.type? id
  match (type.methods.filterMap t.declaration?).filter (·.isAbstract) with
  | [member] => some member
  | _ => none

/-- The declaration that a call resolves to. -/
def resolve? (t : SyntaxTree) (c : Call) : Option Declaration := c.target.bind t.declaration?

/-- The interface of a lambda declares the checked exception. -/
def throwsByContract (t : SyntaxTree) (p : Policy) (interface : Option TypeId) : Bool :=
  match t.contract? interface with
  | some member => p.covers member.throws
  | none => false

/-- A node is a call of a function with the marker. -/
def receivesSafely (t : SyntaxTree) (p : Policy) (node : Node) : Bool :=
  match node.kind with
  | .call c =>
    match t.resolve? c with
    | some d => d.annotations.contains p.safeMarker
    | none => false
  | .tryScope _ | .function _ | .lambda _ | .other => false

/-- The exemption of a lambda. -/
def lambdaExemption? (t : SyntaxTree) (p : Policy) (site : LambdaSite) :
    Except TreeError (Option Exemption) :=
  if t.throwsByContract p site.interface then .ok (some (.throwingContract site.id))
  else
    match site.parent with
    | none => .ok none
    | some receiver =>
      match t.node? receiver with
      | none => .error (.invalidHandle .node receiver.index t.nodes.size)
      | some node => .ok (if t.receivesSafely p node then some (.safeMarker site.id receiver) else none)

/-- The exemption of a call. -/
def exemption? (t : SyntaxTree) (p : Policy) (id : NodeId) : Except TreeError (Option Exemption) := do
  match ← t.enclosingLambda? id with
  | some site => t.lambdaExemption? p site
  | none => .ok none

end SyntaxTree

inductive Verdict where
  | unresolved
  | unchecked
  | handled (how : HandledBy)
  | exempt (how : Exemption)
  | skipped
  | violation (v : Violation)

namespace SyntaxTree

/-- The verdict on a checked call. A tree that cannot be walked around it leaves it undecided. -/
def checkedVerdict (t : SyntaxTree) (p : Policy) (source : Option String) (id : NodeId) (c : Call) :
    Verdict :=
  match t.handler? p id with
  | .ok (some h) => .handled h
  | .error _ => .skipped
  | .ok none =>
    match t.exemption? p id with
    | .ok (some e) => .exempt e
    | .error _ => .skipped
    | .ok none => .violation (.ofCall p t.file source c)

/-- The verdict on a node; `source` is the text that positions are counted in, if they are wanted. -/
def verdict (t : SyntaxTree) (p : Policy) (source : Option String) (id : NodeId) : Verdict :=
  match t.node? id with
  | none => .skipped
  | some node =>
    match node.kind with
    | .call c =>
      match t.resolve? c with
      | none => .unresolved
      | some d => if p.covers d.throws then t.checkedVerdict p source id c else .unchecked
    | .tryScope _ | .function _ | .lambda _ | .other => .unchecked

end SyntaxTree

end Uncaught
