import Uncaught.Fix.Offer

/-!
The edits of a fix, ordered from the end of the file backwards, so that they can be applied one after
another without moving each other. Of edits that start at one place those at the end of a range come
first and those at its beginning last, which keeps a wrapper around an empty range in order.
-/

namespace Uncaught

namespace Target

/-- The order of edits that start at one place. -/
def rank : Target → Nat
  | .ending => 0
  | .beginning => 2
  | .all | .text _ | .pattern _ | .select _ => 1

/-- The part of a range that a target names by position. -/
def place? (target : Target) (range : TextRange) : Option TextRange :=
  match target with
  | .all => some range
  | .beginning => some ⟨range.start, range.start⟩
  | .ending => some ⟨range.stop, range.stop⟩
  | .text _ | .pattern _ | .select _ => none

end Target

/-- The edit of a replacement with a range and a target that is a position. -/
def Replacement.edit? (r : Replacement) : Option TextEdit := do
  let range ← r.range
  let place ← r.target.place? range
  some ⟨place, r.replacement.getD ""⟩

/-- An edit and the rank of its target. -/
structure RankedEdit where
  rank : Nat
  edit : TextEdit
  deriving DecidableEq, Repr

def Replacement.rankedEdit? (r : Replacement) : Option RankedEdit :=
  r.edit?.map fun e => ⟨r.target.rank, e⟩

/-- `a` may be applied before `b`. -/
def RankedEdit.before (a b : RankedEdit) : Bool :=
  b.edit.range.start < a.edit.range.start ||
    (a.edit.range.start = b.edit.range.start && a.rank ≤ b.rank)

namespace Fix

/-- The edits of a group, in the order in which they are applied. -/
def edits (fixes : List Fix) : List TextEdit :=
  (((replacementsOf fixes).filterMap Replacement.rankedEdit?).mergeSort RankedEdit.before).map
    RankedEdit.edit

/-- The range that every replacement of a group has, if they agree on one. -/
def bracketedRange? (fixes : List Fix) : Option TextRange :=
  match replacementsOf fixes with
  | [] => none
  | first :: rest =>
    if rest.all fun r => r.range = first.range then first.range else none

end Fix

/-- Applies an edit to a text given by its bytes. -/
def TextEdit.apply (e : TextEdit) (bytes : List UInt8) : List UInt8 :=
  bytes.take e.range.start.toNat ++ e.text.toUTF8.toList ++ bytes.drop e.range.stop.toNat

/-- Applies edits one after another. -/
def TextEdit.applyAll (edits : List TextEdit) (bytes : List UInt8) : List UInt8 :=
  edits.foldl (fun bytes e => e.apply bytes) bytes

namespace TextEdit

@[simp] theorem applyAll_nil (bytes : List UInt8) : applyAll [] bytes = bytes := rfl

@[simp] theorem applyAll_cons (e : TextEdit) (edits : List TextEdit) (bytes : List UInt8) :
    applyAll (e :: edits) bytes = applyAll edits (e.apply bytes) := rfl

@[simp] theorem applyAll_append (edits others : List TextEdit) (bytes : List UInt8) :
    applyAll (edits ++ others) bytes = applyAll others (applyAll edits bytes) :=
  List.foldl_append

end TextEdit

end Uncaught
