import Uncaught.Json.Numeral
import Uncaught.Json.Quotation

/-!
The shape of a JSON text. A text that is not JSON still has a shape up to its first fault, and the
fault is part of it: a value may be missing and a list or an object may end badly. So a reader that
walks a document in the order of the text meets the first fault of any kind at its place, and a
reader that passes over a value can be more lenient about it than one that takes it in.
-/

namespace Uncaught.Json

/-- Why no value stands where one should. -/
inductive Gap where
  | absent
  | stray
  | badWord
  | cutWord
  | badNumber
  | cutNumber
  | noColon
  | cutMember
  deriving DecidableEq, Repr

/-- The fault of a gap for a reader that takes the value in. -/
def Gap.fault : Gap → Fault
  | .absent => .eofValue
  | .stray => .expectedValue
  | .badWord => .expectedIdent
  | .cutWord => .eofValue
  | .badNumber => .invalidNumber
  | .cutNumber => .eofValue
  | .noColon => .expectedColon
  | .cutMember => .eofObject

/-- The fault of a gap for a reader that passes over the value. -/
def Gap.skippedFault : Gap → Fault
  | .cutNumber => .invalidNumber
  | gap => gap.fault

/-- How a list ends. -/
inductive ArrayEnd where
  | closed
  | eof
  | noComma
  | trailingComma
  | eofAfterComma
  deriving DecidableEq, Repr

def ArrayEnd.fault? : ArrayEnd → Option Fault
  | .closed => none
  | .eof => some .eofList
  | .noComma => some .expectedListEnd
  | .trailingComma => some .trailingComma
  | .eofAfterComma => some .eofValue

/-- A reader that passes over a list looks for a value after every comma. -/
def ArrayEnd.skippedFault? : ArrayEnd → Option Fault
  | .trailingComma => some .expectedValue
  | ending => ending.fault?

/-- How an object ends. Where a key should stand and something else does, that is what was found. -/
inductive ObjectEnd where
  | closed
  | eof
  | noComma
  | trailingComma
  | eofAfterComma
  | badKey (found : Except Fault Found)

def ObjectEnd.fault? : ObjectEnd → Option Fault
  | .closed => none
  | .eof => some .eofObject
  | .noComma => some .expectedObjectEnd
  | .trailingComma => some .trailingComma
  | .eofAfterComma => some .eofValue
  | .badKey _ => some .keyNotString

/-- A reader that passes over an object looks for a key after every comma. -/
def ObjectEnd.skippedFault? : ObjectEnd → Option Fault
  | .trailingComma => some .keyNotString
  | .eofAfterComma => some .eofObject
  | ending => ending.fault?

/-- The shape of a JSON text. -/
inductive Document where
  | null
  | bool (b : Bool)
  | number (n : Numeral)
  | text (q : Quotation)
  | array (items : List Document) (ending : ArrayEnd)
  | object (members : List (Quotation × Document)) (ending : ObjectEnd)
  | missing (gap : Gap)

namespace Document

/-- What a reader of another type would say it found here. Scalars are read to their end, lists and
objects are not entered. -/
def found : Document → Except Fault Found
  | .null => .ok .null
  | .bool b => .ok (.bool b)
  | .number n => n.found
  | .text q => q.text.map .text
  | .array _ _ => .ok .sequence
  | .object _ _ => .ok .map
  | .missing gap => .error gap.fault

def isBlank (c : Char) : Bool := c = ' ' || c = '\n' || c = '\t' || c = '\r'

def skipBlanks (cs : List Char) : List Char := cs.dropWhile isBlank

/-- Reads what is left of a word whose first letter was seen. -/
def readWord (value : Document) : List Char → List Char → Document × List Char
  | [], rest => (value, rest)
  | _ :: _, [] => (.missing .cutWord, [])
  | w :: ws, c :: rest => if w = c then readWord value ws rest else (.missing .badWord, [])

def readNumber (cs : List Char) : Document × List Char :=
  match Numeral.read cs with
  | .ok (n, rest) => (.number n, rest)
  | .error .cut => (.missing .cutNumber, [])
  | .error .bad => (.missing .badNumber, [])

/-- A value that is not a list or an object, from its first character on. -/
def readScalar (c : Char) (rest : List Char) : Document × List Char :=
  match c with
  | 'n' => readWord .null ['u', 'l', 'l'] rest
  | 't' => readWord (.bool true) ['r', 'u', 'e'] rest
  | 'f' => readWord (.bool false) ['a', 'l', 's', 'e'] rest
  | '"' =>
    let (q, rest) := Quotation.read rest
    (.text q, rest)
  | c => if c = '-' || c.isDigit then readNumber (c :: rest) else (.missing .stray, [])

mutual

/-- The value at the start of a text, and the text after it. A fault leaves no text. The first
argument bounds the number of calls. -/
def read : Nat → List Char → Document × List Char
  | 0, _ => (.missing .absent, [])
  | n + 1, cs =>
    match skipBlanks cs with
    | [] => (.missing .absent, [])
    | '[' :: rest =>
      match skipBlanks rest with
      | [] => (.array [] .eof, [])
      | ']' :: rest => (.array [] .closed, rest)
      | rest =>
        let (items, ending, rest) := readItems n rest
        (.array items ending, rest)
    | '\x7b' :: rest =>
      match skipBlanks rest with
      | [] => (.object [] .eof, [])
      | '\x7d' :: rest => (.object [] .closed, rest)
      | rest =>
        let (members, ending, rest) := readMembers n rest
        (.object members ending, rest)
    | c :: rest => readScalar c rest

/-- The items of a list that has one more, up to its end. -/
def readItems : Nat → List Char → List Document × ArrayEnd × List Char
  | 0, _ => ([], .eof, [])
  | n + 1, cs =>
    let (item, rest) := read n cs
    match skipBlanks rest with
    | [] => ([item], .eof, [])
    | ']' :: rest => ([item], .closed, rest)
    | ',' :: rest =>
      match skipBlanks rest with
      | [] => ([item], .eofAfterComma, [])
      | ']' :: _ => ([item], .trailingComma, [])
      | rest =>
        let (items, ending, rest) := readItems n rest
        (item :: items, ending, rest)
    | _ :: _ => ([item], .noComma, [])

/-- The members of an object that has one more, up to its end. -/
def readMembers : Nat → List Char → List (Quotation × Document) × ObjectEnd × List Char
  | 0, _ => ([], .eof, [])
  | n + 1, cs =>
    match cs with
    | '"' :: rest =>
      let (key, rest) := Quotation.read rest
      let (value, rest) :=
        match skipBlanks rest with
        | [] => (.missing .cutMember, [])
        | ':' :: rest => read n rest
        | _ :: _ => (.missing .noColon, [])
      match skipBlanks rest with
      | [] => ([(key, value)], .eof, [])
      | '\x7d' :: rest => ([(key, value)], .closed, rest)
      | ',' :: rest =>
        match skipBlanks rest with
        | [] => ([(key, value)], .eofAfterComma, [])
        | '\x7d' :: _ => ([(key, value)], .trailingComma, [])
        | rest =>
          let (members, ending, rest) := readMembers n rest
          ((key, value) :: members, ending, rest)
      | _ :: _ => ([(key, value)], .noComma, [])
    | cs => ([], .badKey (read n cs).1.found, [])

end

/-- Enough calls for a text: two for each character and two more. -/
def callBound (cs : List Char) : Nat := 2 * cs.length + 2

/-- The document at the start of a text, and whether only blanks follow it. -/
def parse (s : String) : Document × Bool :=
  let cs := s.toList
  let (doc, rest) := read (callBound cs) cs
  (doc, (skipBlanks rest).isEmpty)

mutual

/-- How many lists and objects a document nests. -/
def depth : Document → Nat
  | .array items _ => 1 + itemsDepth items
  | .object members _ => 1 + membersDepth members
  | _ => 0

def itemsDepth : List Document → Nat
  | [] => 0
  | d :: ds => max (depth d) (itemsDepth ds)

def membersDepth : List (Quotation × Document) → Nat
  | [] => 0
  | (_, d) :: ms => max (depth d) (membersDepth ms)

end

/-- Fails with a fault, if there is one. -/
def check : Option Fault → Except Fault Unit
  | none => .ok ()
  | some fault => .error fault

mutual

/-- Passes over a value: only its grammar counts. -/
def skip : Document → Except Fault Unit
  | .null | .bool _ | .number _ => .ok ()
  | .text q => check q.ending.fault?
  | .array items ending => do
    skipItems items
    check ending.skippedFault?
  | .object members ending => do
    skipMembers members
    check ending.skippedFault?
  | .missing gap => .error gap.skippedFault

def skipItems : List Document → Except Fault Unit
  | [] => .ok ()
  | d :: ds => do
    skip d
    skipItems ds

def skipMembers : List (Quotation × Document) → Except Fault Unit
  | [] => .ok ()
  | (key, d) :: ms => do
    check key.ending.fault?
    skip d
    skipMembers ms

end

mutual

/-- Takes in a whole value for later use: every string and number must be sound, and lists and objects
may nest at most `room` levels. -/
def hold (room : Nat) : Document → Except Fault Unit
  | .null | .bool _ => .ok ()
  | .number n => n.found.map fun _ => ()
  | .text q => q.text.map fun _ => ()
  | .array items ending =>
    match room with
    | 0 => .error .tooDeep
    | room + 1 => do
      holdItems room items
      check ending.fault?
  | .object members ending =>
    match room with
    | 0 => .error .tooDeep
    | room + 1 => do
      holdMembers room members
      check ending.fault?
  | .missing gap => .error gap.fault

def holdItems (room : Nat) : List Document → Except Fault Unit
  | [] => .ok ()
  | d :: ds => do
    hold room d
    holdItems room ds

def holdMembers (room : Nat) : List (Quotation × Document) → Except Fault Unit
  | [] => .ok ()
  | (key, d) :: ms => do
    let _ ← key.text
    hold room d
    holdMembers room ms

end

end Document

end Uncaught.Json
