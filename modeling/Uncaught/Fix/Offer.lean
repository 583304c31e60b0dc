import Uncaught.Settings
import Uncaught.Text.Position

/-!
Fixes that a tool can offer: single replacements, groups that are applied together, and groups to
choose from. Groups nest. For an unhandled call two fixes are offered: surround its statement with a try
scope that catches the exception, or hand it to the helper as a closure.
-/

namespace Uncaught

/-- Which part of its range a replacement replaces: all of it, the empty place at one of its ends, or
something inside that only the source text can tell. -/
inductive Target where
  | all
  | beginning
  | ending
  | text (s : String)
  | pattern (s : String)
  | select (s : String)
  deriving DecidableEq, Repr

/-- How a replacement may be applied. -/
structure FixOptions where
  shortenNames : Bool
  reformat : Bool
  robot : Bool
  independent : Bool
  deriving DecidableEq, Repr

namespace FixOptions

def none : FixOptions := ⟨false, false, false, false⟩

/-- Safe to apply unattended and together with other fixes. -/
def autoFix : FixOptions := { none with robot := true, independent := true }

def reformatting (o : FixOptions) : FixOptions := { o with reformat := true }

def shortening (o : FixOptions) : FixOptions := { o with shortenNames := true }

end FixOptions

/-- A single replacement. -/
structure Replacement where
  name : Option String
  family : Option String
  target : Target
  replacement : Option String
  range : Option TextRange
  options : FixOptions
  deriving DecidableEq, Repr

/-- A replacement with only a target. -/
def Replacement.ofTarget (target : Target) : Replacement := ⟨none, none, target, none, none, .none⟩

/-- A fix. The children of a composite are applied together, those of an alternatives fix exclude each
other. -/
inductive Fix where
  | replace (r : Replacement)
  | composite (name family : Option String) (fixes : List Fix)
  | alternatives (name family : Option String) (fixes : List Fix)

/-- A replacement of a range by a text; an empty range is an insertion. -/
structure TextEdit where
  range : TextRange
  text : String
  deriving DecidableEq, Repr

namespace Fix

def name : Fix → Option String
  | .replace r => r.name
  | .composite name _ _ => name
  | .alternatives name _ _ => name

/-- The fixes to choose from: the children of an alternatives fix, or the fix itself. -/
def choices : Fix → List Fix
  | .alternatives _ _ fixes => fixes
  | fix => [fix]

mutual

/-- The replacements of a fix, depth first. -/
@[simp] def replacements : Fix → List Replacement
  | .replace r => [r]
  | .composite _ _ fixes => replacementsOf fixes
  | .alternatives _ _ fixes => replacementsOf fixes

/-- The replacements of a group, depth first. -/
@[simp] def replacementsOf : List Fix → List Replacement
  | [] => []
  | fix :: fixes => replacements fix ++ replacementsOf fixes

end

@[simp] theorem replacementsOf_append (fixes others : List Fix) :
    replacementsOf (fixes ++ others) = replacementsOf fixes ++ replacementsOf others := by
  induction fixes with
  | nil => rfl
  | cons fix fixes ih => simp [ih]

/-- A group that puts one text before a range and another behind it. -/
def wrapper (name before after : String) (range : TextRange) : Fix :=
  .composite (some name) none
    [.replace
      { Replacement.ofTarget .beginning with
        replacement := some before, range := some range, options := .autoFix },
    .replace
      { Replacement.ofTarget .ending with
        replacement := some after, range := some range
        options := FixOptions.autoFix.reformatting.shortening }]

/-- The text that closes the try scope. -/
def catchText (policy : Policy) : String :=
  "\x7d catch(e: " ++ policy.checkedException ++ ")\x7bkotlin.TODO()\x7d"

def offered (policy : Policy) (statement : TextRange) : Fix :=
  .alternatives none none
    [wrapper "Surround with try/catch" "try \x7b" (catchText policy) statement,
      wrapper ("Surround with " ++ policy.safeCallHelper ++ "()") (policy.safeCallHelper ++ " \x7b")
        "\x7d" statement]

end Fix

end Uncaught
