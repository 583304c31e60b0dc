import Uncaught.Json.Value

/-!
Readers of typed values. A decoder walks a document in the order of the text, so the first thing that
does not fit is what it reports. It reads either straight from the text, where the number of levels
that may still be opened is limited, or from a value that was held back whole and is known to be
sound.
-/

namespace Uncaught.Json

/-- Where a value is read from: from the text, with the number of levels that may still be opened, or
from a value held back. -/
inductive Origin where
  | text (room : Nat)
  | held
  deriving DecidableEq, Repr

/-- A reader of values of one type. -/
def Decoder (α : Type) : Type := Origin → Document → Except DecodeError α

/-- The number of lists and objects that a text may nest. -/
def nestingLimit : Nat := 127

/-- Lifts a fault of the text to a reason for refusal. -/
def refuse {α : Type} : Except Fault α → Except DecodeError α
  | .ok a => .ok a
  | .error fault => .error (.malformed fault)

/-- Opens one more level. -/
def Origin.enter : Origin → Except DecodeError Origin
  | .text 0 => .error (.malformed .tooDeep)
  | .text (room + 1) => .ok (.text room)
  | .held => .ok .held

/-- Passes over a value that nobody asked for. -/
def Origin.skip (o : Origin) (doc : Document) : Except DecodeError Unit :=
  match o with
  | .text _ => refuse doc.skip
  | .held => .ok ()

/-- Takes in a value whose type is not known yet. -/
def Origin.hold (o : Origin) (doc : Document) : Except DecodeError Unit :=
  match o with
  | .text room => refuse (doc.hold room)
  | .held => .ok ()

namespace Decoder

/-- A value of the wrong kind, or the fault that keeps it from being one. -/
def mismatch {α : Type} (doc : Document) (expected : String) : Except DecodeError α :=
  match doc.found with
  | .ok found => .error (.invalidType found expected)
  | .error fault => .error (.malformed fault)

def map {α β : Type} (f : α → β) (d : Decoder α) : Decoder β := fun o doc => (d o doc).map f

/-- A natural number of at most 32 bits. -/
def uint32 : Decoder UInt32 := fun _ doc =>
  match doc with
  | .number m =>
    match m.value with
    | some (.natural n) =>
      if n < UInt32.size then .ok n.toUInt32 else .error (.invalidValue (.natural n) "u32")
    | some (.negative n) => .error (.invalidValue (.negative n) "u32")
    | some (.float x) => .error (.invalidType (Number.float x).found "u32")
    | none => .error (.malformed .numberOutOfRange)
  | doc => mismatch doc "u32"

def string : Decoder String := fun _ doc =>
  match doc with
  | .text q => refuse q.text
  | doc => mismatch doc "a string"

def bool : Decoder Bool := fun _ doc =>
  match doc with
  | .bool b => .ok b
  | doc => mismatch doc "a boolean"

/-- A value, or `null`. -/
def option {α : Type} (d : Decoder α) : Decoder (Option α) := fun o doc =>
  match doc with
  | .null => .ok none
  | doc => (d o doc).map some

/-- Reads items one after another. -/
def items {α : Type} (d : Decoder α) (o : Origin) : List Document → Except DecodeError (List α)
  | [] => .ok []
  | doc :: docs => do
    let a ← d o doc
    let as ← items d o docs
    .ok (a :: as)

def list {α : Type} (d : Decoder α) : Decoder (List α) := fun o doc =>
  match doc with
  | .array docs ending => do
    let o ← o.enter
    let as ← items d o docs
    refuse (Document.check ending.fault?)
    .ok as
  | doc => mismatch doc "a sequence"

/-- Reads a whole text: one value with nothing but blanks after it. -/
def decodeText {α : Type} (d : Decoder α) (s : String) : Except DecodeError α := do
  let (doc, ended) := Document.parse s
  let a ← d (.text nestingLimit) doc
  if ended then .ok a else .error (.malformed .trailingCharacters)

end Decoder

end Uncaught.Json
