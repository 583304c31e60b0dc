import Uncaught.Check.Verdict
import Uncaught.Report.Suppression

/-!
Analysis of whole trees and of lists of trees. Only Kotlin trees are looked into; every call of such a
tree gets a verdict, in the order of the table.
-/

namespace Uncaught

/-- Counts of one run. -/
structure AnalysisInfo where
  callSites : UInt32
  checkedCalls : UInt32
  handled : UInt32
  exempted : UInt32
  unresolved : UInt32
  skippedMalformed : UInt32
  skippedFiles : UInt32
  deriving DecidableEq, Repr

namespace AnalysisInfo

def zero : AnalysisInfo := ⟨0, 0, 0, 0, 0, 0, 0⟩

/-- The counts of two runs together. -/
def merge (a b : AnalysisInfo) : AnalysisInfo where
  callSites := a.callSites + b.callSites
  checkedCalls := a.checkedCalls + b.checkedCalls
  handled := a.handled + b.handled
  exempted := a.exempted + b.exempted
  unresolved := a.unresolved + b.unresolved
  skippedMalformed := a.skippedMalformed + b.skippedMalformed
  skippedFiles := a.skippedFiles + b.skippedFiles

/-- Counts one more verdict. -/
def addVerdict (info : AnalysisInfo) (v : Verdict) : AnalysisInfo :=
  let info := { info with callSites := info.callSites + 1 }
  match v with
  | .unresolved => { info with unresolved := info.unresolved + 1 }
  | .unchecked => info
  | .handled _ =>
    { info with checkedCalls := info.checkedCalls + 1, handled := info.handled + 1 }
  | .exempt _ =>
    { info with checkedCalls := info.checkedCalls + 1, exempted := info.exempted + 1 }
  | .skipped => { info with skippedMalformed := info.skippedMalformed + 1 }
  | .violation _ => { info with checkedCalls := info.checkedCalls + 1 }

end AnalysisInfo

/-- What was found in one tree. -/
structure FileReport where
  violations : List Violation
  info : AnalysisInfo

/-- What was found in a list of trees. -/
structure AnalysisResult where
  version : String
  command : String
  status : String
  filesAnalyzed : List String
  violations : List Violation
  info : AnalysisInfo

namespace AnalysisResult

/-- The violations that are not suppressed. -/
def active (r : AnalysisResult) : List Violation := r.violations.filter fun v => !v.suppressed

def isClean (r : AnalysisResult) : Bool := r.active.isEmpty

end AnalysisResult

/-- A policy and the suppressed issues. -/
structure Analyzer where
  policy : Policy
  suppressions : Suppressions
  deriving DecidableEq, Repr

namespace Analyzer

def new (policy : Policy) : Analyzer := ⟨policy, .empty⟩

/-- Adds the suppressions of a configuration file. -/
def configured (policy : Policy) (ids : List String) : Analyzer :=
  ⟨policy, Suppressions.empty.suppressAll (ids.map fun id => (id, .config))⟩

/-- Suppresses an issue on request of the user. -/
def suppress (a : Analyzer) (id : String) : Analyzer :=
  { a with suppressions := a.suppressions.suppress id .flag }

/-- The violation that a verdict is, with suppressions applied. -/
def report? (a : Analyzer) : Verdict → Option Violation
  | .violation v => some (a.suppressions.apply v)
  | _ => none

/-- Analyses one call. -/
def analyzeCall (a : Analyzer) (t : SyntaxTree) (source : Option String) (id : NodeId) :
    Option Violation :=
  if t.language = .kotlin then a.report? (t.verdict a.policy source id) else none

/-- The verdicts on all calls of a tree. -/
def verdicts (a : Analyzer) (t : SyntaxTree) : List Verdict :=
  t.calls.map fun (id, _) => t.verdict a.policy t.source id

/-- Analyses all calls of a tree. -/
def analyzeTree (a : Analyzer) (t : SyntaxTree) : FileReport :=
  if t.language = .kotlin then
    let verdicts := a.verdicts t
    { violations := verdicts.filterMap a.report?
      info := verdicts.foldl .addVerdict .zero }
  else { violations := [], info := { AnalysisInfo.zero with skippedFiles := 1 } }

def version : String := "0.1.0"

/-- Analyses trees and puts the reports together. -/
def analyze (a : Analyzer) (trees : List SyntaxTree) : AnalysisResult :=
  let reports := trees.map a.analyzeTree
  let violations := reports.flatMap (·.violations)
  { version := version
    command := "analyze"
    status := if violations.any fun v => !v.suppressed then "error" else "ok"
    filesAnalyzed := trees.map (·.file)
    violations := violations
    info := reports.foldl (fun info r => info.merge r.info) .zero }

end Analyzer

end Uncaught
