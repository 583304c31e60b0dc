import Uncaught.Text.Position

/-!
Syntax trees as a table of nodes that name their parents, with the tables of declarations and types
that the nodes refer to. A tree is plain data: handles may point nowhere and parents may run in a
circle until the tree has been validated.
-/

namespace Uncaught

/-- A position in the table of nodes. -/
structure NodeId where
  index : UInt32
  deriving DecidableEq, Repr

/-- A position in the table of declarations. -/
structure DeclId where
  index : UInt32
  deriving DecidableEq, Repr

/-- A position in the table of types. -/
structure TypeId where
  index : UInt32
  deriving DecidableEq, Repr

def NodeId.toText (id : NodeId) : String := "#" ++ toString id.index.toNat

/-- The language of a source file, as far as it matters here. -/
inductive SourceLanguage where
  | kotlin
  | java
  | other
  deriving DecidableEq, Repr

namespace SourceLanguage

def toText : SourceLanguage → String
  | .kotlin => "kotlin"
  | .java => "java"
  | .other => "other"

/-- Any name that is not one of the two languages is another language. -/
def ofText : String → SourceLanguage
  | "kotlin" => .kotlin
  | "java" => .java
  | _ => .other

end SourceLanguage

/-- A call: the callee as written, the declaration it resolves to, the range of the callee alone and
the range of the statement with receiver and arguments. -/
structure Call where
  name : String
  target : Option DeclId
  calleeRange : TextRange
  statementRange : TextRange
  deriving DecidableEq, Repr

/-- A catch clause, by the names of the exceptions it catches. -/
structure CatchClause where
  caught : List String
  deriving DecidableEq, Repr

structure FunctionDecl where
  name : String
  throws : List String
  deriving DecidableEq, Repr

/-- What a node is. A lambda may implement a functional interface. -/
inductive NodeKind where
  | call (c : Call)
  | tryScope (clauses : List CatchClause)
  | function (f : FunctionDecl)
  | lambda (interface : Option TypeId)
  | other
  deriving DecidableEq, Repr

def NodeKind.name : NodeKind → String
  | .call _ => "call"
  | .tryScope _ => "try"
  | .function _ => "function"
  | .lambda _ => "lambda"
  | .other => "other"

structure Node where
  parent : Option NodeId
  range : TextRange
  kind : NodeKind
  deriving DecidableEq, Repr

/-- A declaration that calls resolve to. -/
structure Declaration where
  qualifiedName : String
  throws : List String
  annotations : List String
  isAbstract : Bool
  deriving DecidableEq, Repr

/-- A type, by its methods. -/
structure TypeDecl where
  qualifiedName : String
  methods : List DeclId
  deriving DecidableEq, Repr

structure SyntaxTree where
  file : String
  language : SourceLanguage
  source : Option String
  nodes : Array Node
  declarations : Array Declaration
  types : Array TypeDecl
  deriving DecidableEq, Repr

namespace SyntaxTree

/-- A tree with nothing in it. -/
def empty (file : String) (language : SourceLanguage) : SyntaxTree :=
  ⟨file, language, none, #[], #[], #[]⟩

def node? (t : SyntaxTree) (id : NodeId) : Option Node := t.nodes[id.index.toNat]?

def declaration? (t : SyntaxTree) (id : DeclId) : Option Declaration :=
  t.declarations[id.index.toNat]?

def type? (t : SyntaxTree) (id : TypeId) : Option TypeDecl := t.types[id.index.toNat]?

/-- The nodes with their handles, in the order of the table. -/
def entries (t : SyntaxTree) : List (NodeId × Node) :=
  t.nodes.toList.zipIdx.map fun (node, i) => (⟨i.toUInt32⟩, node)

/-- The call nodes, in the order of the table. -/
def calls (t : SyntaxTree) : List (NodeId × Call) :=
  t.entries.filterMap fun (id, node) =>
    match node.kind with
    | .call c => some (id, c)
    | _ => none

end SyntaxTree

end Uncaught
