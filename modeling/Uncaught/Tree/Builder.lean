import Uncaught.Tree.Basic

/-!
Building a tree step by step. Every step adds one entry to one table and gives its handle. Nodes get
ranges of their own, one after another with gaps between them; a call can also be placed at given
ranges.
-/

namespace Uncaught

/-- A tree under construction, and where the next range starts. -/
structure TreeBuilder where
  tree : SyntaxTree
  cursor : UInt32

namespace TreeBuilder

/-- The distance between the starts of two ranges. -/
def stride : UInt32 := 100

/-- The length of a range. -/
def span : UInt32 := 50

def new (file : String) (language : SourceLanguage) : TreeBuilder := ⟨.empty file language, 0⟩

def setSource (b : TreeBuilder) (text : String) : TreeBuilder :=
  { b with tree := { b.tree with source := some text } }

/-- The range of the next node. -/
def nextRange (b : TreeBuilder) : TextRange := ⟨b.cursor, b.cursor + span⟩

def advance (b : TreeBuilder) : TreeBuilder := { b with cursor := b.cursor + stride }

def addNode (b : TreeBuilder) (node : Node) : NodeId × TreeBuilder :=
  (⟨b.tree.nodes.size.toUInt32⟩, { b with tree := { b.tree with nodes := b.tree.nodes.push node } })

def addDeclaration (b : TreeBuilder) (d : Declaration) : DeclId × TreeBuilder :=
  (⟨b.tree.declarations.size.toUInt32⟩,
    { b with tree := { b.tree with declarations := b.tree.declarations.push d } })

def addType (b : TreeBuilder) (t : TypeDecl) : TypeId × TreeBuilder :=
  (⟨b.tree.types.size.toUInt32⟩, { b with tree := { b.tree with types := b.tree.types.push t } })

def declaration (b : TreeBuilder) (name : String) (throws : List String) : DeclId × TreeBuilder :=
  b.addDeclaration ⟨name, throws, [], false⟩

def annotatedDeclaration (b : TreeBuilder) (name : String) (throws annotations : List String) :
    DeclId × TreeBuilder :=
  b.addDeclaration ⟨name, throws, annotations, false⟩

def abstractMember (b : TreeBuilder) (name : String) (throws : List String) :
    DeclId × TreeBuilder :=
  b.addDeclaration ⟨name, throws, [], true⟩

def interface (b : TreeBuilder) (name : String) (methods : List DeclId) : TypeId × TreeBuilder :=
  b.addType ⟨name, methods⟩

/-- Adds a node with the next range. -/
def place (b : TreeBuilder) (parent : Option NodeId) (kind : NodeKind) : NodeId × TreeBuilder :=
  b.advance.addNode ⟨parent, b.nextRange, kind⟩

def function (b : TreeBuilder) (parent : Option NodeId) (name : String) (throws : List String) :
    NodeId × TreeBuilder :=
  b.place parent (.function ⟨name, throws⟩)

/-- A try scope with one catch clause for each list of names. -/
def tryScope (b : TreeBuilder) (parent : NodeId) (catches : List (List String)) :
    NodeId × TreeBuilder :=
  b.place (some parent) (.tryScope (catches.map .mk))

def lambda (b : TreeBuilder) (parent : NodeId) (interface : Option TypeId) : NodeId × TreeBuilder :=
  b.place (some parent) (.lambda interface)

def block (b : TreeBuilder) (parent : NodeId) : NodeId × TreeBuilder := b.place (some parent) .other

/-- Adds a call at given ranges; its own range is that of its statement. -/
def callAt (b : TreeBuilder) (parent : NodeId) (name : String) (target : Option DeclId)
    (callee statement : TextRange) : NodeId × TreeBuilder :=
  b.addNode ⟨some parent, statement, .call ⟨name, target, callee, statement⟩⟩

/-- Adds a call at the next range, with the callee at its start. -/
def call (b : TreeBuilder) (parent : NodeId) (name : String) (target : Option DeclId) :
    NodeId × TreeBuilder :=
  let range := b.nextRange
  b.advance.callAt parent name target ⟨range.start, range.start + name.utf8ByteSize.toUInt32⟩ range

/-- Adds blocks, each the parent of the next, and gives the innermost. -/
def blocks (b : TreeBuilder) (parent : NodeId) : Nat → NodeId × TreeBuilder
  | 0 => (parent, b)
  | count + 1 =>
    let (id, b) := b.block parent
    b.blocks id count

end TreeBuilder

end Uncaught
