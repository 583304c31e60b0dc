import Uncaught.Ignore.Level

/-!
The files below a directory. Hidden entries are left out unless a rule keeps them, and so is what a rule
ignores; a directory that is left out is not entered. Rules in the directories above count too.
-/

namespace Uncaught

open Ignore (Level RuleSet Seen)

/-- A walk: where it starts, the rules given for it, and the levels above its start. -/
structure Walk where
  disk : Disk
  start : String
  absolute : String
  given : RuleSet
  above : List Level

namespace Walk

/-- The directories above the names that lead to a directory, innermost first. -/
def directoriesAbove (names : List String) : List String :=
  (List.range names.length).reverse.map fun n => Disk.pathOf (names.take n)

def new (disk : Disk) (start : String) (names : List String) (given : RuleSet) : Walk :=
  { disk := disk
    start := start
    absolute := Disk.pathOf names
    given := given
    above := (directoriesAbove names).map (Ignore.readLevel disk) }

/-- An entry's path below the start. -/
def below (w : Walk) (path : String) : String :=
  if Path.components w.start = [.current] then path
  else
    let start := (Ignore.withoutDot w.start).toList
    match (Ignore.dropLead? start path.toList).getD path.toList with
    | '/' :: rest => String.ofList rest
    | rest => String.ofList rest

/-- An entry's path for the levels above the start. -/
def absolutePath (w : Walk) (path : String) : String := Path.join w.absolute (w.below path)

/-- The levels around an entry, each with the path that it sees. -/
def seen (w : Walk) (levels : List Level) (path : String) : List Seen :=
  let path := Ignore.withoutDot path
  levels.map (⟨·, path⟩) ++ w.above.map (⟨·, w.absolutePath path⟩)

/-- A name that starts with a dot; a path that ends in one does not count. -/
def isHidden (name : String) : Bool := name.startsWith "." && !name.endsWith "."

/-- An entry is left out. -/
def skips (w : Walk) (levels : List Level) (name path : String) (isDir : Bool) : Bool :=
  let left := match Ignore.decideAt (w.seen levels path) isDir with
    | some .ignored => true
    | some .kept => false
    | none => isHidden name
  left || w.given.decide path isDir = some .ignored

/-- The files below a directory that are not left out, with the levels from that directory up to the
start. -/
def files (w : Walk) (levels : List Level) (dir : String) : List (String × Entry) → List String
  | [] => []
  | (name, .file _) :: entries =>
    let path := Path.join dir name
    let rest := files w levels dir entries
    if w.skips levels name path false then rest else path :: rest
  | (name, .dir inner) :: entries =>
    let path := Path.join dir name
    let rest := files w levels dir entries
    if w.skips levels name path true then rest
    else files w (Ignore.readLevel w.disk path :: levels) path inner ++ rest

end Walk

/-- The files below a directory, under rules that are given for the walk. -/
def Disk.walk (d : Disk) (given : RuleSet) (dir : String) : List String :=
  match d.locate dir with
  | .ok ⟨names, .dir entries⟩ =>
    (Walk.new d dir names given).files [Ignore.readLevel d dir] dir entries
  | _ => []

end Uncaught
