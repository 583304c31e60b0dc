import Uncaught.Files.Path
import Uncaught.Glob.Expression
import Uncaught.Glob.Reader
import Uncaught.Text.Characters

/-!
Rules that ignore paths or keep them, one to a line. A rule with a separator inside is tied to the
directory that it is written for; any other rule applies at every depth below. The last rule that
applies to a path decides about it.
-/

namespace Uncaught.Ignore

/-- What a rule says about a path. -/
inductive Decision where
  | ignored
  | kept
  deriving DecidableEq, Repr

/-- A pattern with what it decides. -/
structure Rule where
  decision : Decision
  directoriesOnly : Bool
  pattern : List Glob.Token

/-- A line whose pattern cannot be read. -/
structure RuleError where
  line : String
  cause : Glob.PatternError

def RuleError.message (e : RuleError) : String :=
  "error parsing glob '" ++ e.line ++ "': " ++ e.cause.message

/-- White space at the end of a line does not count unless it is escaped. -/
def trimLine (line : List Char) : List Char :=
  if ['\\', ' '].isSuffixOf line then line else Text.trimEnd line

/-- The marks at the start of a line: what the rule decides, whether it is tied to its directory, and
the rest. -/
def readMarks : List Char → Decision × Bool × List Char
  | '\\' :: '!' :: rest => (.ignored, false, '!' :: rest)
  | '\\' :: '#' :: rest => (.ignored, false, '#' :: rest)
  | '!' :: '/' :: rest => (.kept, true, rest)
  | '!' :: rest => (.kept, false, rest)
  | '/' :: rest => (.ignored, true, rest)
  | cs => (.ignored, false, cs)

/-- A separator at the end asks for directories. -/
def readEnd (cs : List Char) : Bool × List Char :=
  match cs.reverse with
  | '/' :: '\\' :: rest => (true, rest.reverse)
  | '/' :: rest => (true, rest.reverse)
  | _ => (false, cs)

def anywhere : List Char := ['*', '*', '/']

/-- The pattern for paths relative to the rule's directory. -/
def relativePattern (tied : Bool) (cs : List Char) : List Char :=
  let cs :=
    if tied || cs.contains '/' || cs = ['*', '*'] then cs else anywhere ++ cs
  if ['/', '*', '*'].isSuffixOf cs then cs ++ ['/', '*'] else cs

/-- Reads a line. Blank lines and remarks hold no rule. -/
def readRule (line : String) : Except RuleError (Option Rule) :=
  if line.toList.head? = some '#' then .ok none
  else
    match trimLine line.toList with
    | [] => .ok none
    | cs =>
      let (decision, tied, body) := readMarks cs
      let (directoriesOnly, body) := readEnd body
      match Glob.read (relativePattern tied body) with
      | .ok pattern => .ok (some ⟨decision, directoriesOnly, pattern⟩)
      | .error cause => .error ⟨String.ofList cs, cause⟩

/-- The rules of lines; a line that cannot be read is passed over. -/
def readLines (lines : List String) : List Rule :=
  lines.filterMap fun line =>
    match readRule line with
    | .ok rule? => rule?
    | .error _ => none

def Rule.applies (r : Rule) (path : String) (isDir : Bool) : Bool :=
  (isDir || !r.directoriesOnly) && Glob.isMatch r.pattern path

/-- What the last rule that applies says. -/
def decideBy (rules : List Rule) (path : String) (isDir : Bool) : Option Decision :=
  (rules.filter fun r => r.applies path isDir).getLast?.map Rule.decision

/-! ### Rules and the directory they are written for -/

/-- A path without a leading `./`. -/
def withoutDot (path : String) : String :=
  match path.toList with
  | '.' :: '/' :: rest => String.ofList rest
  | _ => path

/-- What follows a text that comes first. -/
def dropLead? : List Char → List Char → Option (List Char)
  | [], cs => some cs
  | _ :: _, [] => none
  | l :: ls, c :: cs => if l = c then dropLead? ls cs else none

/-- A path as seen from a directory that it starts with. A bare name is left alone. -/
def relativeTo (base path : String) : String :=
  let path := withoutDot path
  if Path.components base = [.current] || !path.toList.contains '/' then path
  else
    match dropLead? base.toList path.toList with
    | some ('/' :: rest) => String.ofList rest
    | some rest => String.ofList rest
    | none => path

/-- Rules with the directory that they are written for. -/
structure RuleSet where
  base : String
  rules : List Rule

/-- The rules for a directory, if their patterns can be compiled. -/
def RuleSet.compile (dir : String) (rules : List Rule) : Except Glob.CompileError RuleSet := do
  Glob.compile (rules.map Rule.pattern)
  .ok ⟨withoutDot dir, rules⟩

/-- The rules for a directory; none if their patterns cannot be compiled. -/
def RuleSet.ofRules (dir : String) (rules : List Rule) : RuleSet :=
  match compile dir rules with
  | .ok set => set
  | .error _ => ⟨withoutDot dir, []⟩

def RuleSet.decide (s : RuleSet) (path : String) (isDir : Bool) : Option Decision :=
  decideBy s.rules (relativeTo s.base path) isDir

end Uncaught.Ignore
