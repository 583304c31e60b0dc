import Uncaught.Report.Violation

/-!
Suppressed issues. The first request for an issue counts; a violation of a suppressed issue stays in
the report, but only as information.
-/

namespace Uncaught

/-- Who asked for a suppression. -/
inductive SuppressionSource where
  | config
  | flag
  deriving DecidableEq, Repr

def SuppressionSource.toText : SuppressionSource → String
  | .config => "throwguard.json"
  | .flag => "--suppress flag"

/-- The suppressed issues as a set, and who asked first for each, in the order of the requests. -/
structure Suppressions where
  suppressed : List String
  sources : List (String × SuppressionSource)
  deriving DecidableEq, Repr

namespace Suppressions

def empty : Suppressions := ⟨[], []⟩

def isSuppressed (s : Suppressions) (id : String) : Bool := s.suppressed.contains id

/-- Who asked for the suppression of an issue. -/
def source? (s : Suppressions) (id : String) : Option SuppressionSource := s.sources.lookup id

/-- Only a request that adds to the set is recorded. -/
def suppress (s : Suppressions) (id : String) (source : SuppressionSource) : Suppressions where
  suppressed := s.suppressed.insert id
  sources := if s.isSuppressed id then s.sources else s.sources ++ [(id, source)]

/-- Requests one after another. -/
def suppressAll (s : Suppressions) (requests : List (String × SuppressionSource)) : Suppressions :=
  requests.foldl (fun s r => s.suppress r.1 r.2) s

def count (s : Suppressions) : Nat := s.suppressed.length

def hint (id : String) (source : SuppressionSource) : String :=
  "Suppressed " ++ id ++ " via " ++ source.toText

/-- Marks a violation whose issue is suppressed. -/
def apply (s : Suppressions) (v : Violation) : Violation :=
  match s.source? v.issueId with
  | none => v
  | some source =>
    { v with severity := .info, suppressed := true, suppressHint := some (hint v.issueId source) }

end Suppressions

end Uncaught
