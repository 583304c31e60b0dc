import Uncaught.Json.Decoder

/-!
Records in JSON: an object with one member for each field, in any order, or a list of the fields in
their own order. Unknown members are passed over; a known one may stand only once.
-/

namespace Uncaught.Json

/-- A field of a record: its name, how it is read, and what stands for it where an object leaves it
out or a list ends before it. -/
structure Field (α : Type) where
  name : String
  decoder : Decoder α
  absent : Option α
  beyond : Option α

namespace Field

/-- A field that must be there. -/
def required {α : Type} (name : String) (d : Decoder α) : Field α := ⟨name, d, none, none⟩

/-- A field with a default. -/
def withDefault {α : Type} (name : String) (d : Decoder α) (a : α) : Field α :=
  ⟨name, d, some a, some a⟩

/-- A field that an object may leave out and a list may not. -/
def nullable {α : Type} (name : String) (d : Decoder α) : Field (Option α) :=
  ⟨name, d.option, some none, none⟩

/-- A field that may be left out. -/
def optional {α : Type} (name : String) (d : Decoder α) : Field (Option α) :=
  withDefault name d.option none

end Field

/-- The fields of a record, by their types. -/
inductive Fields : List Type → Type 1 where
  | nil : Fields []
  | cons {α : Type} {ts : List Type} (field : Field α) (fields : Fields ts) : Fields (α :: ts)

/-- The values of all fields. -/
def Values : List Type → Type
  | [] => Unit
  | α :: ts => α × Values ts

/-- The values of the fields that have been read. -/
def Slots : List Type → Type
  | [] => Unit
  | α :: ts => Option α × Slots ts

namespace Fields

def count : {ts : List Type} → Fields ts → Nat
  | _, .nil => 0
  | _, .cons _ fields => fields.count + 1

def emptySlots : {ts : List Type} → Fields ts → Slots ts
  | _, .nil => ()
  | _, .cons _ fields => (none, fields.emptySlots)

/-- Takes one member of an object. -/
def put (o : Origin) (key : String) (doc : Document) :
    {ts : List Type} → Fields ts → Slots ts → Except DecodeError (Slots ts)
  | _, .nil, _ => o.skip doc
  | _, .cons field fields, (slot, slots) =>
    if key = field.name then
      match slot with
      | some _ => .error (.duplicateField field.name)
      | none => do
        let a ← field.decoder o doc
        .ok (some a, slots)
    else do
      let slots ← put o key doc fields slots
      .ok (slot, slots)

/-- Takes the members of an object in their order. -/
def putAll (o : Origin) {ts : List Type} (fields : Fields ts) (slots : Slots ts) :
    List (Quotation × Document) → Except DecodeError (Slots ts)
  | [] => .ok slots
  | (key, doc) :: members => do
    let key ← refuse key.text
    let slots ← fields.put o key doc slots
    putAll o fields slots members

/-- Fills in what an object left out. -/
def fill : {ts : List Type} → Fields ts → Slots ts → Except DecodeError (Values ts)
  | _, .nil, _ => .ok ()
  | _, .cons field fields, (slot, slots) =>
    match slot, field.absent with
    | some a, _ | none, some a => do
      let rest ← fields.fill slots
      .ok (a, rest)
    | none, none => .error (.missingField field.name)

/-- The name of a count of elements. -/
def elements (n : Nat) : String := if n = 1 then "1 element" else toString n ++ " elements"

/-- Takes the items of a list in the order of the fields, and gives the items that are left. `done` is
the number of fields before these. -/
def take (o : Origin) (expected : String) (ending : ArrayEnd) (done : Nat) :
    {ts : List Type} → Fields ts → List Document →
      Except DecodeError (Values ts × List Document)
  | _, .nil, docs => .ok ((), docs)
  | _, .cons field fields, doc :: docs => do
    let a ← field.decoder o doc
    let (rest, docs) ← take o expected ending (done + 1) fields docs
    .ok ((a, rest), docs)
  | _, .cons field fields, [] => do
    refuse (Document.check ending.fault?)
    match field.beyond with
    | some a => do
      let (rest, docs) ← take o expected ending (done + 1) fields []
      .ok ((a, rest), docs)
    | none => .error (.invalidLength done expected)

end Fields

/-- The end of a list whose `count` items have been taken and which has the items `docs` left. -/
def Origin.leave (o : Origin) (count : Nat) (docs : List Document) (ending : ArrayEnd) :
    Except DecodeError Unit :=
  match o, docs, ending with
  | .text _, [], .closed => .ok ()
  | .text _, [], .eof => .error (.malformed .eofList)
  | .text _, [], .trailingComma => .error (.malformed .trailingComma)
  | .text _, _, _ => .error (.malformed .trailingCharacters)
  | .held, [], _ => .ok ()
  | .held, docs, _ =>
    .error (.invalidLength (count + docs.length) (Fields.elements count ++ " in sequence"))

/-- Reads a record, which messages call `name`. -/
def Fields.decoder {ts : List Type} (fields : Fields ts) (name : String) : Decoder (Values ts) :=
  fun o doc =>
    match doc with
    | .object members ending => do
      let o ← o.enter
      let slots ← fields.putAll o fields.emptySlots members
      refuse (Document.check ending.fault?)
      fields.fill slots
    | .array docs ending => do
      let o ← o.enter
      let expected := name ++ " with " ++ Fields.elements fields.count
      let (values, rest) ← fields.take o expected ending 0 docs
      o.leave fields.count rest ending
      .ok values
    | doc => Decoder.mismatch doc name

end Uncaught.Json
