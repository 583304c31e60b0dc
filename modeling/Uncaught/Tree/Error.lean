import Uncaught.Json.Error
import Uncaught.Tree.Basic

/-!
Why a tree is refused: a handle that points nowhere, parents that do not lead to a root, a text that
does not decode, or a file that cannot be read.
-/

namespace Uncaught

/-- The tables of a tree. -/
inductive Table where
  | node
  | declaration
  | type
  deriving DecidableEq, Repr

def Table.name : Table → String
  | .node => "node"
  | .declaration => "declaration"
  | .type => "type"

/-- The number of strict ancestors that a node may have. -/
def maxAncestors : Nat := 4096

/-- What is wrong with the parents of a node. -/
inductive ParentFault where
  | ownParent
  | tooDeep
  deriving DecidableEq, Repr

def ParentFault.message : ParentFault → String
  | .ownParent => "node is its own parent"
  | .tooDeep => "ancestor chain exceeds " ++ toString maxAncestors ++ " levels"

/-- Why a file cannot be read as text. -/
inductive ReadFault where
  | notFound
  | notDirectory
  | isDirectory
  | nameTooLong
  | nulInName
  | invalidUtf8
  deriving DecidableEq, Repr

def ReadFault.message : ReadFault → String
  | .notFound => "No such file or directory (os error 2)"
  | .notDirectory => "Not a directory (os error 20)"
  | .isDirectory => "Is a directory (os error 21)"
  | .nameTooLong => "File name too long (os error 36)"
  | .nulInName => "file name contained an unexpected NUL byte"
  | .invalidUtf8 => "stream did not contain valid UTF-8"

inductive TreeError where
  | invalidHandle (table : Table) (index : UInt32) (count : Nat)
  | malformed (node : NodeId) (fault : ParentFault)
  | undecodable (error : Json.DecodeError)
  | unreadable (fault : ReadFault)
  deriving DecidableEq, Repr

def TreeError.message : TreeError → String
  | .invalidHandle table index count =>
    "Invalid " ++ table.name ++ " handle " ++ toString index.toNat ++ " (arena holds " ++
      toString count ++ ")"
  | .malformed node fault => "Malformed tree at node " ++ node.toText ++ ": " ++ fault.message
  | .undecodable error => "Failed to parse syntax tree: " ++ error.message
  | .unreadable fault => "I/O error: " ++ fault.message

end Uncaught
