import Uncaught.Files.Path
import Uncaught.Tree.Error

/-!
A file system at one moment, without links: a tree of directories and files, and the directory that
relative paths start from.
-/

namespace Uncaught

/-- A file with its bytes, or a directory with its entries by name. -/
inductive Entry where
  | file (bytes : ByteArray)
  | dir (entries : List (String × Entry))

/-- The root directory's entries and the names that lead to the current directory. -/
structure Disk where
  top : List (String × Entry)
  here : List String

/-- Puts an entry where names lead, below directories that are made on the way. An empty directory
leaves one that is already there as it is. -/
def Entry.insert (entry : Entry) : List String → List (String × Entry) → List (String × Entry)
  | [], entries => entries
  | name :: names, entries =>
    let inner := match entries.lookup name with
      | some (.dir inner) => inner
      | _ => []
    let new := match names, entry with
      | [], .dir [] => .dir inner
      | [], entry => entry
      | names, entry => .dir (entry.insert names inner)
    entries.filter (fun (other, _) => other != name) ++ [(name, new)]

/-- An entry and the names that lead to it from the root. -/
structure Location where
  names : List String
  entry : Entry

namespace Disk

def child? (name : String) : Entry → Except ReadFault Entry
  | .file _ => .error .notDirectory
  | .dir entries =>
    match entries.lookup name with
    | some entry => .ok entry
    | none => .error .notFound

def insert (d : Disk) (names : List String) (entry : Entry) : Disk :=
  { d with top := entry.insert names d.top }

/-- The entry that names lead to. -/
def entryAt (d : Disk) (names : List String) : Except ReadFault Entry :=
  names.foldlM (fun entry name => child? name entry) (.dir d.top)

/-- The number of bytes that a name may have. -/
def maxNameBytes : Nat := 255

/-- One step along a path. -/
def step (d : Disk) (place : Location) (name : String) : Except ReadFault Location :=
  match place.entry with
  | .file _ => .error .notDirectory
  | .dir _ =>
    match name with
    | "" | "." => .ok place
    | ".." => do
      let names := place.names.dropLast
      let entry ← d.entryAt names
      .ok ⟨names, entry⟩
    | name =>
      if maxNameBytes < name.utf8ByteSize then .error .nameTooLong
      else do
        let entry ← child? name place.entry
        .ok ⟨place.names ++ [name], entry⟩

/-- What a path leads to. -/
def locate (d : Disk) (path : String) : Except ReadFault Location := do
  if path = "" then .error .notFound
  else if path.toList.contains (Char.ofNat 0) then .error .nulInName
  else
    let start := if Path.isAbsolute path then [] else d.here
    let entry ← d.entryAt start
    (Path.names path).foldlM d.step ⟨start, entry⟩

def isFile (d : Disk) (path : String) : Bool :=
  match d.locate path with
  | .ok ⟨_, .file _⟩ => true
  | _ => false

def isDir (d : Disk) (path : String) : Bool :=
  match d.locate path with
  | .ok ⟨_, .dir _⟩ => true
  | _ => false

def contains (d : Disk) (path : String) : Bool :=
  match d.locate path with
  | .ok _ => true
  | .error _ => false

def readBytes (d : Disk) (path : String) : Except ReadFault ByteArray := do
  match (← d.locate path).entry with
  | .file bytes => .ok bytes
  | .dir _ => .error .isDirectory

def readText (d : Disk) (path : String) : Except ReadFault String := do
  let bytes ← d.readBytes path
  match String.fromUTF8? bytes with
  | some text => .ok text
  | none => .error .invalidUtf8

/-- The names that a path leads through, the last of them where it leads to, on the assumption that
they are all there. -/
def route (here : List String) (path : String) : List (List String) :=
  let start := if Path.isAbsolute path then [] else here
  let step := fun (done : List (List String)) (name : String) =>
    let current := done.headD start
    match name with
    | "" | "." => done
    | ".." => current.dropLast :: done
    | name => (current ++ [name]) :: done
  ((Path.names path).foldl step [start]).reverse

/-- The absolute path of names that lead down from the root. -/
def pathOf (names : List String) : String := "/" ++ "/".intercalate names

end Disk

end Uncaught
