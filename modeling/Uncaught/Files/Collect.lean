import Uncaught.Files.Walk
import Uncaught.Text.Characters

/-!
The files that arguments name: a file is taken as given, a directory is walked for files whose names end
in the suffix of tree files. The answer is sorted and holds each path once.
-/

namespace Uncaught

/-- Why no list of files can be given. -/
inductive CollectError where
  | notFound (path : String)
  | badPattern (pattern cause : String)
  | badPatterns (cause : String)
  deriving DecidableEq

def CollectError.message : CollectError → String
  | .notFound path => "path not found: " ++ path
  | .badPattern pattern cause => "invalid ignore pattern " ++ Text.quote pattern ++ ": " ++ cause
  | .badPatterns cause => "invalid ignore patterns: " ++ cause

/-- What is asked of a file system and of its ignore patterns to collect files. Patterns are read to
rules `ρ` one by one; the rules are compiled for a directory to a matcher `μ`, by which it is walked. -/
structure FileView (ρ μ : Type) where
  isFile : String → Bool
  isDir : String → Bool
  readRule : String → Except String ρ
  compile : String → List ρ → Except String μ
  walk : μ → String → List String

namespace FileView

variable {ρ μ : Type}

/-- The rule that a pattern stands for. -/
def readPattern (v : FileView ρ μ) (pattern : String) : Except CollectError ρ :=
  (v.readRule pattern).mapError (.badPattern pattern)

/-- The matcher that patterns stand for in a directory; the first pattern that cannot be read is the
error. -/
def readPatterns (v : FileView ρ μ) (patterns : List String) (dir : String) : Except CollectError μ := do
  let rules ← patterns.mapM v.readPattern
  (v.compile dir rules).mapError .badPatterns

/-- The files that one argument names. -/
def expand (v : FileView ρ μ) (s : Settings) (path : String) : Except CollectError (List String) :=
  if v.isFile path then .ok [path]
  else if v.isDir path then do
    let matcher ← v.readPatterns s.ignorePatterns path
    .ok ((v.walk matcher path).filter (Path.hasSuffix s.treeSuffix))
  else .error (.notFound path)

/-- The files that arguments name, sorted and each path once. -/
def collect (v : FileView ρ μ) (s : Settings) (paths : List String) :
    Except CollectError (List String) := do
  let named ← paths.mapM (v.expand s)
  .ok (Path.sortedUnion named.flatten)

end FileView

/-- A disk with the rules of ignore files. A pattern that is blank or a remark stands for no rule. -/
def Disk.view (d : Disk) : FileView (Option Ignore.Rule) Ignore.RuleSet where
  isFile := d.isFile
  isDir := d.isDir
  readRule pattern := (Ignore.readRule pattern).mapError Ignore.RuleError.message
  compile dir rules :=
    (Ignore.RuleSet.compile dir (rules.filterMap id)).mapError Glob.CompileError.message
  walk := d.walk

end Uncaught
