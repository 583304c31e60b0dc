import Uncaught.Fingerprint.Basic
import Uncaught.Fix.Offer
import Uncaught.Report.Issue
import Uncaught.Text.Position
import Uncaught.Tree.Basic

/-!
A reported call: which issue, where, and how it can be fixed.
-/

namespace Uncaught

/-- A call of a function that throws the checked exception, where nothing handles it. -/
structure Violation where
  issueId : String
  severity : Severity
  category : Category
  message : String
  file : String
  line : Option UInt32
  column : Option UInt32
  callee : String
  problemRange : TextRange
  statementRange : TextRange
  fingerprint : String
  suppressed : Bool
  suppressHint : Option String
  fix : Fix

namespace Violation

def defaultMessage : String := "Must catch `CheckedException` or declare throws"

/-- The violation for a call in a file. Lines and columns need the source text. -/
def ofCall (policy : Policy) (file : String) (source : Option String) (c : Call) : Violation :=
  let issue := Issue.checkedExceptionNotCaught
  let position := source.map fun text => Text.position text c.calleeRange.start
  { issueId := issue.id
    severity := issue.severity
    category := issue.category
    message := defaultMessage
    file := file
    line := position.map (·.line)
    column := position.map (·.column)
    callee := c.name
    problemRange := c.calleeRange
    statementRange := c.statementRange
    fingerprint := Fingerprint.compute issue.id file c.name c.statementRange
    suppressed := false
    suppressHint := none
    fix := Fix.offered policy c.statementRange }

end Violation

end Uncaught
