import Uncaught.Json.Value

/-!
The issues that the analysis can report: a fixed table, by identifier.
-/

namespace Uncaught

inductive Severity where
  | error
  | info
  deriving DecidableEq, Repr

def Severity.toText : Severity → String
  | .error => "ERROR"
  | .info => "INFO"

inductive Category where
  | correctness
  deriving DecidableEq, Repr

def Category.toText : Category → String
  | .correctness => "correctness"

/-- What is looked at to find an issue. -/
inductive Scope where
  | sourceFile
  deriving DecidableEq, Repr

def Scope.toText : Scope → String
  | .sourceFile => "source_file"

/-- The description of an issue. Priorities run from 1 to 10. -/
structure Issue where
  id : String
  brief : String
  explanation : String
  category : Category
  priority : Nat
  severity : Severity
  scope : Scope
  deriving DecidableEq, Repr

namespace Issue

/-- The version of the table's form. -/
def tableVersion : Nat := 1

def checkedExceptionNotCaught : Issue where
  id := "CheckedExceptionNotCaught"
  brief := "Code must catch `CheckedException` or declare that it throws"
  explanation :=
    "Kotlin does not support checked Exceptions, so we should not rely on " ++
    "Exceptions to propagate errors in our application.\n" ++
    "More details in: https://kotlinlang.org/docs/reference/exceptions.html"
  category := .correctness
  priority := 9
  severity := .error
  scope := .sourceFile

/-- Every issue. -/
def all : List Issue := [checkedExceptionNotCaught]

def find? (id : String) : Option Issue := all.find? fun issue => issue.id = id

def toJson (i : Issue) : Json :=
  .obj [("id", .str i.id), ("brief_description", .str i.brief), ("explanation", .str i.explanation),
    ("category", .str i.category.toText), ("priority", .num i.priority),
    ("severity", .str i.severity.toText), ("scope", .str i.scope.toText)]

def listToJson (issues : List Issue) : Json :=
  .obj [("api", .num tableVersion), ("issues", .ofList toJson issues)]

end Issue

end Uncaught
