import Uncaught.Files.Disk
import Uncaught.Ignore.Rule
import Uncaught.Settings

/-!
The rules that the directories around an entry hold. A directory may hold rules of this program, rules
of its own kind of ignore file and rules of a repository. Rules deeper down come first; a kind of rules
that says something about an entry silences the kinds after it. The rules of a repository count only
inside one, and only up to its own directory.
-/

namespace Uncaught.Ignore

/-- The rules in one directory. -/
structure Level where
  custom : RuleSet
  plain : RuleSet
  repository : RuleSet
  exclude : RuleSet
  isRepository : Bool

/-! ### Reading the rule files -/

/-- The lines of a file as bytes. A line feed ends a line, together with a carriage return before it. -/
def byteLines (line : List UInt8) : List UInt8 → List (List UInt8)
  | [] => if line = [] then [] else [line.reverse]
  | b :: bs =>
    if b = 10 then
      let line := match line with
        | 13 :: rest => rest
        | line => line
      line.reverse :: byteLines [] bs
    else byteLines (b :: line) bs

/-- The lines before the first that is no text. -/
def textLines : List (List UInt8) → List String
  | [] => []
  | line :: lines =>
    match String.fromUTF8? ⟨line.toArray⟩ with
    | some text => text :: textLines lines
    | none => []

def byteOrderMark : Char := '﻿'

/-- The lines of a rule file; a byte order mark does not count. -/
def fileLines (bytes : ByteArray) : List String :=
  match textLines (byteLines [] bytes.toList) with
  | [] => []
  | line :: lines => String.ofList (line.toList.dropWhile (· = byteOrderMark)) :: lines

/-- The rules in a file; a file that cannot be read has none. -/
def readFile (disk : Disk) (path : String) : List Rule :=
  match disk.readBytes path with
  | .ok bytes => readLines (fileLines bytes)
  | .error _ => []

/-- The first line of a file. -/
def firstLine? (disk : Disk) (path : String) : Option String :=
  match disk.readBytes path with
  | .ok bytes => (textLines (byteLines [] bytes.toList)).head?
  | .error _ => none

def pointerMark : List Char := "gitdir: ".toList

/-- The directory with a repository's own files. In a linked working tree a file points to it. -/
def repositoryDir? (disk : Disk) (dir : String) : Option String := do
  let path := Path.join dir ".git"
  if disk.isFile path then
    let line ← firstLine? disk path
    let real ← dropLead? pointerMark line.toList
    let real := String.ofList real
    let shared ← firstLine? disk (Path.join real "commondir")
    if shared.startsWith "." then some (Path.join real shared) else some shared
  else some path

/-- The files, below a directory, that tell its level. -/
def levelFiles : List String :=
  [Settings.ignoreFileName, ".ignore", ".gitignore", ".git", ".git/info/exclude", ".jj"]

/-- The rules that a directory holds. -/
def readLevel (disk : Disk) (dir : String) : Level :=
  let set := RuleSet.ofRules dir
  { custom := set (readFile disk (Path.join dir Settings.ignoreFileName))
    plain := set (readFile disk (Path.join dir ".ignore"))
    repository := set (readFile disk (Path.join dir ".gitignore"))
    exclude := set (match repositoryDir? disk dir with
      | some git => readFile disk (Path.join git "info/exclude")
      | none => [])
    isRepository := disk.contains (Path.join dir ".git") || disk.contains (Path.join dir ".jj") }

/-! ### What they say about an entry -/

/-- A level with the entry's path as that level sees it. -/
structure Seen where
  level : Level
  path : String

/-- The levels up to the directory of the repository; none outside of one. -/
def withinRepository : List Seen → List Seen
  | [] => []
  | seen :: rest =>
    if seen.level.isRepository then [seen]
    else
      match withinRepository rest with
      | [] => []
      | inner => seen :: inner

/-- What the innermost level says that says anything. -/
def firstDecision (rules : Level → RuleSet) (isDir : Bool) (levels : List Seen) : Option Decision :=
  levels.findSome? fun seen => (rules seen.level).decide seen.path isDir

/-- What the levels around an entry say about it, innermost first. -/
def decideAt (levels : List Seen) (isDir : Bool) : Option Decision :=
  let inside := withinRepository levels
  firstDecision Level.custom isDir levels <|> firstDecision Level.plain isDir levels <|>
    firstDecision Level.repository isDir inside <|> firstDecision Level.exclude isDir inside

end Uncaught.Ignore
