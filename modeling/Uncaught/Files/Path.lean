/-!
Paths as texts. Two paths are the same, and ordered, by their components: repeated separators and inner
dots do not count, a leading dot of a relative path does.
-/

namespace Uncaught.Path

/-- A component of a path. -/
inductive Component where
  | root
  | current
  | parent
  | normal (name : String)
  deriving DecidableEq, Repr

namespace Component

def rank : Component → Nat
  | .root => 0
  | .current => 1
  | .parent => 2
  | .normal _ => 3

def le : Component → Component → Bool
  | .normal a, .normal b => a ≤ b
  | a, b => a.rank ≤ b.rank

end Component

/-- The names between separators, empty ones included. -/
def names (path : String) : List String := (path.toList.splitOn '/').map String.ofList

def isAbsolute (path : String) : Bool := path.toList.head? = some '/'

def component? : String → Option Component
  | "" | "." => none
  | ".." => some .parent
  | name => some (.normal name)

/-- The components of a path. -/
def components (path : String) : List Component :=
  let ns := names path
  let rest := ns.filterMap component?
  if isAbsolute path then .root :: rest
  else if ns.head? = some "." then .current :: rest
  else rest

/-- The last name of a path ends in a suffix. -/
def hasSuffix (suffix path : String) : Bool :=
  suffix.toList.isSuffixOf ((names path).getLastD "").toList

/-- Lexicographic order of components. -/
def componentsLe : List Component → List Component → Bool
  | [], _ => true
  | _ :: _, [] => false
  | a :: as, b :: bs => if a = b then componentsLe as bs else a.le b

/-- The order of paths. -/
def le (a b : String) : Bool := componentsLe (components a) (components b)

def same (a b : String) : Bool := components a = components b

/-- Keeps the first of neighbours that are the same path. -/
def dedup : List String → List String
  | [] => []
  | path :: paths =>
    match dedup paths with
    | [] => [path]
    | next :: rest => if same path next then path :: rest else path :: next :: rest

/-- Sorted, each path once. -/
def sortedUnion (paths : List String) : List String := dedup (paths.mergeSort le)

/-- A name or path below a directory. -/
def join (dir path : String) : String :=
  if isAbsolute path then path
  else if dir = "" || dir.toList.getLast? = some '/' then dir ++ path
  else dir ++ "/" ++ path

end Uncaught.Path
