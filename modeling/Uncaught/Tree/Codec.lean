import Uncaught.Json.Variant
import Uncaught.Tree.Validation

/-!
Trees in JSON. Absent handles are written as `null`, an absent source text is left out, and lists are
always written; reading accepts whatever has a default left out.
-/

namespace Uncaught

open Json (Decoder Field Fields Choices)

namespace TextRange

def toJson (r : TextRange) : Json :=
  .obj [("start", .ofUInt32 r.start), ("end", .ofUInt32 r.stop)]

def fields : Fields [UInt32, UInt32] :=
  .cons (.required "start" .uint32) (.cons (.required "end" .uint32) .nil)

def decoder : Decoder TextRange :=
  (fields.decoder "struct TextRange").map fun (start, stop, _) => ⟨start, stop⟩

end TextRange

def NodeId.toJson (id : NodeId) : Json := .ofUInt32 id.index

def NodeId.decoder : Decoder NodeId := Decoder.uint32.map .mk

def DeclId.toJson (id : DeclId) : Json := .ofUInt32 id.index

def DeclId.decoder : Decoder DeclId := Decoder.uint32.map .mk

def TypeId.toJson (id : TypeId) : Json := .ofUInt32 id.index

def TypeId.decoder : Decoder TypeId := Decoder.uint32.map .mk

namespace SourceLanguage

def toJson (l : SourceLanguage) : Json := .str l.toText

def decoder : Decoder SourceLanguage := Json.bareName fun name => .ok (.ofText name)

end SourceLanguage

/-- A field with a list of texts, empty by default. -/
def Json.Field.strings (name : String) : Field (List String) :=
  .withDefault name (Decoder.list .string) []

namespace Call

def toMembers (c : Call) : List (String × Json) :=
  [("name", .str c.name), ("target", .ofOption DeclId.toJson c.target),
    ("callee_range", c.calleeRange.toJson), ("statement_range", c.statementRange.toJson)]

def fields : Fields [String, Option DeclId, TextRange, TextRange] :=
  .cons (.required "name" .string)
    (.cons (.optional "target" DeclId.decoder)
      (.cons (.required "callee_range" TextRange.decoder)
        (.cons (.required "statement_range" TextRange.decoder) .nil)))

def decoder : Decoder Call :=
  (fields.decoder "struct CallExpr").map fun (name, target, callee, statement, _) =>
    ⟨name, target, callee, statement⟩

end Call

namespace CatchClause

def toJson (c : CatchClause) : Json := .obj [("caught", .strings c.caught)]

def fields : Fields [List String] := .cons (.strings "caught") .nil

def decoder : Decoder CatchClause :=
  (fields.decoder "struct CatchClause").map fun (caught, _) => ⟨caught⟩

end CatchClause

namespace NodeKind

def toJson : NodeKind → Json
  | .call c => .obj (("type", .str "call") :: c.toMembers)
  | .tryScope clauses =>
    .obj [("type", .str "try"), ("catch_clauses", .ofList CatchClause.toJson clauses)]
  | .function f =>
    .obj [("type", .str "function"), ("name", .str f.name), ("throws", .strings f.throws)]
  | .lambda interface =>
    .obj [("type", .str "lambda"), ("functional_interface", .ofOption TypeId.toJson interface)]
  | .other => .obj [("type", .str "other")]

def tryFields : Fields [List CatchClause] :=
  .cons (.withDefault "catch_clauses" (Decoder.list CatchClause.decoder) []) .nil

def functionFields : Fields [String, List String] :=
  .cons (.required "name" .string) (.cons (.strings "throws") .nil)

def lambdaFields : Fields [Option TypeId] :=
  .cons (.optional "functional_interface" TypeId.decoder) .nil

def choices : Choices (Decoder NodeKind) :=
  [("call", Call.decoder.map .call),
    ("try", (tryFields.decoder "struct TryScope").map fun (clauses, _) => .tryScope clauses),
    ("function",
      (functionFields.decoder "struct FunctionDecl").map fun (name, throws, _) =>
        .function ⟨name, throws⟩),
    ("lambda", (lambdaFields.decoder "struct LambdaExpr").map fun (interface, _) => .lambda interface),
    ("other", Json.noFields .other)]

def decoder : Decoder NodeKind := Json.tagged "internally tagged enum NodeKind" "type" choices

end NodeKind

namespace Node

def toJson (n : Node) : Json :=
  .obj [("parent", .ofOption NodeId.toJson n.parent), ("range", n.range.toJson),
    ("kind", n.kind.toJson)]

def fields : Fields [Option NodeId, TextRange, NodeKind] :=
  .cons (.optional "parent" NodeId.decoder)
    (.cons (.required "range" TextRange.decoder) (.cons (.required "kind" NodeKind.decoder) .nil))

def decoder : Decoder Node :=
  (fields.decoder "struct Node").map fun (parent, range, kind, _) => ⟨parent, range, kind⟩

end Node

namespace Declaration

def toJson (d : Declaration) : Json :=
  .obj [("qualified_name", .str d.qualifiedName), ("throws", .strings d.throws),
    ("annotations", .strings d.annotations), ("is_abstract", .bool d.isAbstract)]

def fields : Fields [String, List String, List String, Bool] :=
  .cons (.required "qualified_name" .string)
    (.cons (.strings "throws")
      (.cons (.strings "annotations") (.cons (.withDefault "is_abstract" .bool false) .nil)))

def decoder : Decoder Declaration :=
  (fields.decoder "struct Declaration").map fun (name, throws, annotations, isAbstract, _) =>
    ⟨name, throws, annotations, isAbstract⟩

end Declaration

namespace TypeDecl

def toJson (t : TypeDecl) : Json :=
  .obj [("qualified_name", .str t.qualifiedName), ("methods", .ofList DeclId.toJson t.methods)]

def fields : Fields [String, List DeclId] :=
  .cons (.required "qualified_name" .string)
    (.cons (.withDefault "methods" (Decoder.list DeclId.decoder) []) .nil)

def decoder : Decoder TypeDecl :=
  (fields.decoder "struct TypeDecl").map fun (name, methods, _) => ⟨name, methods⟩

end TypeDecl

namespace SyntaxTree

/-- The member for the source text, if the tree has one. -/
def sourceMember : Option String → List (String × Json)
  | none => []
  | some text => [("source", .str text)]

def toJson (t : SyntaxTree) : Json :=
  .obj ([("file", .str t.file), ("language", t.language.toJson)] ++ sourceMember t.source ++
    [("nodes", .ofList Node.toJson t.nodes.toList),
      ("declarations", .ofList Declaration.toJson t.declarations.toList),
      ("types", .ofList TypeDecl.toJson t.types.toList)])

def fields :
    Fields [String, SourceLanguage, Option String, List Node, List Declaration, List TypeDecl] :=
  .cons (.required "file" .string)
    (.cons (.required "language" SourceLanguage.decoder)
      (.cons (.optional "source" .string)
        (.cons (.required "nodes" (Decoder.list Node.decoder))
          (.cons (.withDefault "declarations" (Decoder.list Declaration.decoder) [])
            (.cons (.withDefault "types" (Decoder.list TypeDecl.decoder) []) .nil)))))

def decoder : Decoder SyntaxTree :=
  (fields.decoder "struct SyntaxTree").map fun (file, language, source, nodes, declarations, types, _) =>
    ⟨file, language, source, nodes.toArray, declarations.toArray, types.toArray⟩

/-- Reads a tree without validating it. -/
def decodeText (text : String) : Except TreeError SyntaxTree :=
  (decoder.decodeText text).mapError .undecodable

/-- Reads and validates a tree. -/
def ofJsonText (text : String) : Except TreeError SyntaxTree := do
  let t ← decodeText text
  t.validate
  .ok t

end SyntaxTree

end Uncaught
