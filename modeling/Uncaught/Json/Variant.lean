import Uncaught.Json.Record

/-!
Alternatives in JSON, told apart by a name: bare names, objects that carry their name in one of their
members, and objects with one member for the name and one for the content.
-/

namespace Uncaught.Json

/-- What each name stands for, in the order in which messages list the names. -/
abbrev Choices (α : Type) := List (String × α)

namespace Choices

def names {α : Type} (choices : Choices α) : List String := choices.map (·.1)

def select {α : Type} (choices : Choices α) (name : String) : Except DecodeError α :=
  match choices.lookup name with
  | some a => .ok a
  | none => .error (.unknownVariant name choices.names)

/-- The choice at a position. -/
def atIndex {α : Type} (choices : Choices α) (n : Nat) : Except DecodeError α :=
  match choices[n]? with
  | some (_, a) => .ok a
  | none => .error (.invalidValue (.natural n) ("variant index 0 <= i < " ++ toString choices.length))

/-- Reads a name. In a value held back a position may stand for it. -/
def identifier {α : Type} (choices : Choices α) : Decoder α := fun o doc =>
  match o, doc with
  | _, .text q => do
    let name ← refuse q.text
    choices.select name
  | .held, .number m =>
    match m.value with
    | some (.natural n) => choices.atIndex n
    | _ => Decoder.mismatch doc "variant identifier"
  | _, doc => Decoder.mismatch doc "variant identifier"

end Choices

/-- The absent content of a bare name. -/
def unitContent (o : Origin) (doc : Document) : Except DecodeError Unit :=
  match o, doc with
  | _, .null => .ok ()
  | .held, .object [] _ => .ok ()
  | _, doc => Decoder.mismatch doc "unit"

/-- The end of an object that must have had one member. -/
def singleMemberEnd (rest : List (Quotation × Document)) (ending : ObjectEnd) :
    Except DecodeError Unit :=
  match rest, ending with
  | [], .closed => .ok ()
  | [], .eof => .error (.malformed .eofObject)
  | _, _ => .error (.malformed .expectedValue)

/-- An object without a readable key, where one was asked for. -/
def noVariantKey {α : Type} : ObjectEnd → Except DecodeError α
  | .eof => .error (.malformed .eofValue)
  | .badKey (.ok found) => .error (.invalidType found "variant identifier")
  | .badKey (.error fault) => .error (.malformed fault)
  | _ => .error (.malformed .expectedValue)

/-- A bare name: a string, or an object with the name as its only key and nothing as its value. Names
are looked up by `select`. -/
def bareName {α : Type} (select : String → Except DecodeError α) : Decoder α := fun o doc =>
  match o, doc with
  | _, .text q => do
    let name ← refuse q.text
    select name
  | .text _, .object members ending => do
    let o ← o.enter
    match members with
    | (key, value) :: rest => do
      let name ← refuse key.text
      let a ← select name
      unitContent o value
      singleMemberEnd rest ending
      .ok a
    | [] => noVariantKey ending
  | .text _, .missing .absent => .error (.malformed .eofValue)
  | .text _, .missing .noColon => .error (.malformed .expectedColon)
  | .text _, .missing .cutMember => .error (.malformed .eofObject)
  | .text _, _ => .error (.malformed .expectedValue)
  | .held, .object [(key, value)] _ => do
    let name ← refuse key.text
    let a ← select name
    unitContent o value
    .ok a
  | .held, .object _ _ => .error (.invalidValue .map "map with a single key")
  | .held, doc => Decoder.mismatch doc "string or map"

/-- Takes the tag out of the members of an object. The other members are taken in unread. -/
def splitTag {α : Type} (o : Origin) (tag : String) (choices : Choices α) (chosen : Option α) :
    List (Quotation × Document) → Except DecodeError (Option α × List (Quotation × Document))
  | [] => .ok (chosen, [])
  | (key, doc) :: members => do
    let name ← refuse key.text
    if name = tag then
      match chosen with
      | some _ => .error (.duplicateField tag)
      | none => do
        let a ← choices.identifier o doc
        splitTag o tag choices (some a) members
    else do
      o.hold doc
      let (chosen, rest) ← splitTag o tag choices chosen members
      .ok (chosen, (key, doc) :: rest)

/-- Takes in items unread. -/
def holdAll (o : Origin) : List Document → Except DecodeError Unit
  | [] => .ok ()
  | doc :: docs => do
    o.hold doc
    holdAll o docs

/-- An alternative whose name is the member `tag` of an object that also holds its fields, or the first
item of a list that goes on with them. The rest is held back until the name is known. -/
def tagged {α : Type} (expected tag : String) (choices : Choices (Decoder α)) : Decoder α :=
  fun o doc =>
    match doc with
    | .object members ending => do
      let o ← o.enter
      let (chosen, rest) ← splitTag o tag choices none members
      refuse (Document.check ending.fault?)
      match chosen with
      | some d => d .held (.object rest .closed)
      | none => .error (.missingField tag)
    | .array docs ending => do
      let o ← o.enter
      match docs with
      | first :: rest => do
        let d ← choices.identifier o first
        holdAll o rest
        refuse (Document.check ending.fault?)
        d .held (.array rest .closed)
      | [] => do
        refuse (Document.check ending.fault?)
        .error (.missingField tag)
    | doc => Decoder.mismatch doc expected

/-- The content of a tagged alternative without fields: additional members do not matter, additional
items do. -/
def noFields {α : Type} (a : α) : Decoder α := fun _ doc =>
  match doc with
  | .array (_ :: ds) _ => .error (.invalidLength (ds.length + 1) "0 elements in sequence")
  | _ => .ok a

/-- How the content of an alternative is read, and what it is when it is left out. -/
structure Content (α : Type) where
  decoder : Decoder α
  absent : Option α

/-- The content of an alternative without any: nothing, or `null`. -/
def noContent {α : Type} (expected : String) (a : α) : Content α where
  decoder := fun o doc =>
    match doc with
    | .null => .ok a
    | .array _ _ | .object _ _ => do
      let _ ← o.enter
      Decoder.mismatch doc expected
    | doc => Decoder.mismatch doc expected
  absent := some a

/-- The names of the two members that an adjacently tagged alternative has. -/
structure Adjacent where
  tag : String
  content : String

/-- The next member of the two, if there is one: whether it is the tag, its value, and the members
after it. -/
def Adjacent.next (names : Adjacent) (o : Origin) (ending : ObjectEnd) :
    List (Quotation × Document) →
      Except DecodeError (Option (Bool × Document × List (Quotation × Document)))
  | [] => do
    refuse (Document.check ending.fault?)
    .ok none
  | (key, doc) :: members => do
    let name ← refuse key.text
    if name = names.tag then .ok (some (true, doc, members))
    else if name = names.content then .ok (some (false, doc, members))
    else do
      o.skip doc
      names.next o ending members

/-- Refuses a further member of the two. -/
def Adjacent.finish (names : Adjacent) (o : Origin) (ending : ObjectEnd)
    (members : List (Quotation × Document)) : Except DecodeError Unit := do
  match ← names.next o ending members with
  | none => .ok ()
  | some (true, _) => .error (.duplicateField names.tag)
  | some (false, _) => .error (.duplicateField names.content)

/-- Reads the two members in either order. Content that comes first is held back. -/
def Adjacent.members {α : Type} (names : Adjacent) (choices : Choices (Content α)) (o : Origin)
    (ending : ObjectEnd) (ms : List (Quotation × Document)) : Except DecodeError α := do
  match ← names.next o ending ms with
  | none => .error (.missingField names.tag)
  | some (true, tag, ms) => do
    let content ← bareName choices.select o tag
    match ← names.next o ending ms with
    | some (true, _) => .error (.duplicateField names.tag)
    | some (false, doc, ms) => do
      let a ← content.decoder o doc
      names.finish o ending ms
      .ok a
    | none =>
      match content.absent with
      | some a => .ok a
      | none => .error (.missingField names.content)
  | some (false, doc, ms) => do
    o.hold doc
    match ← names.next o ending ms with
    | some (true, tag, ms) => do
      let content ← bareName choices.select o tag
      let a ← content.decoder .held doc
      names.finish o ending ms
      .ok a
    | some (false, _) => .error (.duplicateField names.content)
    | none => .error (.missingField names.tag)

/-- An alternative with its name in one member and its content in another, or a list of the two. -/
def adjacent {α : Type} (expected : String) (names : Adjacent) (choices : Choices (Content α)) :
    Decoder α := fun o doc =>
  match doc with
  | .object members ending => do
    let o ← o.enter
    names.members choices o ending members
  | .array docs ending => do
    let o ← o.enter
    match docs with
    | [] => do
      refuse (Document.check ending.fault?)
      .error (.invalidLength 0 expected)
    | [tag] => do
      let _ ← choices.identifier o tag
      refuse (Document.check ending.fault?)
      .error (.invalidLength 1 expected)
    | tag :: doc :: rest => do
      let content ← choices.identifier o tag
      let a ← content.decoder o doc
      o.leave 2 rest ending
      .ok a
  | doc => Decoder.mismatch doc expected

end Uncaught.Json
