import Uncaught.Report.Codec

/-!
Reports as text, for people or as indented JSON.
-/

namespace Uncaught

inductive OutputFormat where
  | human
  | json
  deriving DecidableEq, Repr

/-- A text filled up with blanks to a width. -/
def padRight (width : Nat) (s : String) : String :=
  s ++ String.ofList (List.replicate (width - s.length) ' ')

namespace Violation

def location (v : Violation) : String :=
  match v.line, v.column with
  | some line, some column =>
    v.file ++ ":" ++ toString line.toNat ++ ":" ++ toString column.toNat
  | _, _ => v.file ++ " @ " ++ v.problemRange.toText

/-- One line for each choice of a fix that has a name, numbered from one. -/
def fixLines (fix : Fix) : List String :=
  fix.choices.zipIdx.filterMap fun (choice, i) =>
    choice.name.map fun name => "   = fix " ++ toString (i + 1) ++ ": " ++ name

def hintLines (v : Violation) : List String :=
  match v.suppressed, v.suppressHint with
  | true, some hint => ["   = " ++ hint]
  | _, _ => []

/-- The lines that describe a violation. -/
def lines (v : Violation) : List String :=
  let label := match v.severity with
    | .error => "error"
    | .info => "info"
  [label ++ "[" ++ v.issueId ++ "]: " ++ v.message, "  --> " ++ v.location,
    "   = call: `" ++ v.callee ++ "`"] ++ fixLines v.fix ++
    (if v.fingerprint = "" then [] else ["   = fingerprint: " ++ v.fingerprint]) ++ v.hintLines

end Violation

/-- Lines, each with its end. -/
def unlines (lines : List String) : String := String.join (lines.map (· ++ "\n"))

namespace AnalysisResult

/-- The report for people: nothing at all when there is nothing to report. -/
def toText (r : AnalysisResult) : String :=
  if r.violations.isEmpty then ""
  else
    let suppressed := r.violations.length - r.active.length
    unlines (r.violations.flatMap Violation.lines ++
      ["", toString r.active.length ++ " error(s), " ++ toString suppressed ++ " suppressed in " ++
        toString r.filesAnalyzed.length ++ " file(s)"])

def format (r : AnalysisResult) : OutputFormat → String
  | .human => r.toText
  | .json => r.toJson.pretty

end AnalysisResult

namespace Issue

/-- One line of the list of issues. -/
def line (i : Issue) : String :=
  padRight 28 i.id ++ " " ++ padRight 8 i.severity.toText ++ " " ++ padRight 12 i.category.toText ++
    " p" ++ toString i.priority ++ "  " ++ i.brief

def formatList (issues : List Issue) : OutputFormat → String
  | .human => unlines (issues.map line)
  | .json => (listToJson issues).pretty

/-- The full description of an issue. -/
def describe (i : Issue) : OutputFormat → String
  | .human =>
    unlines [i.id ++ ": " ++ i.brief, "  severity: " ++ i.severity.toText,
      "  category: " ++ i.category.toText, "  priority: " ++ toString i.priority, "", i.explanation]
  | .json => i.toJson.pretty

end Issue

end Uncaught
