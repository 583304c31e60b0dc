import Uncaught.Json.Error

/-!
Quoted JSON strings, written and read. Reading keeps a `\u` escape as the 16-bit unit it names, so
that a string can be passed over without asking whether its units pair up; `Quotation.text` asks,
and gives the characters.
-/

namespace Uncaught.Json

/-- One element of a quoted string: a character, or the unit of a `\u` escape. -/
inductive Piece where
  | char (c : Char)
  | unit (u : Nat)
  deriving DecidableEq, Repr

/-- How a quoted string ends: by its closing quote, or at something that does not belong in it. -/
inductive QuotationEnd where
  | closed
  | eof
  | control
  | badEscape
  | badHex
  deriving DecidableEq, Repr

/-- A string as it stands between quotes, up to its end. -/
structure Quotation where
  pieces : List Piece
  ending : QuotationEnd
  deriving DecidableEq, Repr

/-- The fault that an ending stands for, if any. -/
def QuotationEnd.fault? : QuotationEnd → Option Fault
  | .closed => none
  | .eof => some .eofString
  | .control => some .controlCharacter
  | .badEscape => some .invalidEscape
  | .badHex => some .invalidEscape

def hexDigit? (c : Char) : Option Nat :=
  if '0' ≤ c ∧ c ≤ '9' then some (c.toNat - '0'.toNat)
  else if 'a' ≤ c ∧ c ≤ 'f' then some (c.toNat - 'a'.toNat + 10)
  else if 'A' ≤ c ∧ c ≤ 'F' then some (c.toNat - 'A'.toNat + 10)
  else none

/-- The unit written by four hexadecimal digits. -/
def hexUnit? (a b c d : Char) : Option Nat := do
  let a ← hexDigit? a
  let b ← hexDigit? b
  let c ← hexDigit? c
  let d ← hexDigit? d
  some (((a * 16 + b) * 16 + c) * 16 + d)

/-- The character that a backslash and the given letter stand for. -/
def shortEscape? : Char → Option Char
  | '"' => some '"'
  | '\\' => some '\\'
  | '/' => some '/'
  | 'b' => some '\x08'
  | 'f' => some '\x0c'
  | 'n' => some '\n'
  | 'r' => some '\r'
  | 't' => some '\t'
  | _ => none

def Quotation.push (p : Piece) (r : Quotation × List Char) : Quotation × List Char :=
  (⟨p :: r.1.pieces, r.1.ending⟩, r.2)

/-- Reads a string whose opening quote has been read, and gives the text after its closing quote.
A string that does not close leaves nothing. An escape `\u` with fewer than four bytes after it is
cut short by the end of the text. -/
def Quotation.read : List Char → Quotation × List Char
  | [] => (⟨[], .eof⟩, [])
  | '"' :: rest => (⟨[], .closed⟩, rest)
  | ['\\'] => (⟨[], .eof⟩, [])
  | '\\' :: 'u' :: a :: b :: c :: d :: rest =>
    match hexUnit? a b c d with
    | some u => push (.unit u) (read rest)
    | none => (⟨[], .badHex⟩, [])
  | '\\' :: 'u' :: rest => (⟨[], if (String.ofList rest).utf8ByteSize < 4 then .eof else .badHex⟩, [])
  | '\\' :: e :: rest =>
    match shortEscape? e with
    | some c => push (.char c) (read rest)
    | none => (⟨[], .badEscape⟩, [])
  | c :: rest => if c < ' ' then (⟨[], .control⟩, []) else push (.char c) (read rest)

def isLeading (u : Nat) : Bool := 0xD800 ≤ u && u < 0xDC00

def isTrailing (u : Nat) : Bool := 0xDC00 ≤ u && u < 0xE000

/-- The character of a surrogate pair. -/
def pairChar (lead trail : Nat) : Char :=
  Char.ofNat (0x10000 + (lead - 0xD800) * 0x400 + (trail - 0xDC00))

/-- The fault of a leading surrogate unit after which the string has no further piece. -/
def QuotationEnd.afterLead : QuotationEnd → Fault
  | .eof => .eofString
  | .badHex => .invalidEscape
  | .closed | .control | .badEscape => .unexpectedEndOfEscape

/-- The characters of the pieces; surrogate units must come in pairs. -/
def Quotation.chars (ending : QuotationEnd) : List Piece → Except Fault (List Char)
  | [] =>
    match ending.fault? with
    | none => .ok []
    | some fault => .error fault
  | .char c :: rest => (chars ending rest).map (c :: ·)
  | [.unit u] =>
    if isTrailing u then .error .loneSurrogate
    else if isLeading u then .error ending.afterLead
    else (chars ending []).map (Char.ofNat u :: ·)
  | .unit u :: .unit v :: rest =>
    if isTrailing u then .error .loneSurrogate
    else if isLeading u then
      if isTrailing v then (chars ending rest).map (pairChar u v :: ·) else .error .loneSurrogate
    else (chars ending (.unit v :: rest)).map (Char.ofNat u :: ·)
  | .unit u :: .char c :: rest =>
    if isTrailing u then .error .loneSurrogate
    else if isLeading u then .error .unexpectedEndOfEscape
    else (chars ending (.char c :: rest)).map (Char.ofNat u :: ·)

def Quotation.text (q : Quotation) : Except Fault String :=
  (Quotation.chars q.ending q.pieces).map String.ofList

def hexChar (n : Nat) : Char :=
  if n < 10 then Char.ofNat ('0'.toNat + n) else Char.ofNat ('a'.toNat + (n - 10))

/-- One character inside quotes: quotes, backslashes and controls are escaped, all else stands for
itself. -/
def escapeChar (c : Char) : List Char :=
  match c with
  | '"' => ['\\', '"']
  | '\\' => ['\\', '\\']
  | '\x08' => ['\\', 'b']
  | '\x0c' => ['\\', 'f']
  | '\n' => ['\\', 'n']
  | '\r' => ['\\', 'r']
  | '\t' => ['\\', 't']
  | c =>
    if c < ' ' then ['\\', 'u', '0', '0', hexChar (c.toNat / 16), hexChar (c.toNat % 16)] else [c]

/-- The quoted form of a text, in front of `rest`. -/
def quoteOnto (s : String) (rest : List Char) : List Char :=
  '"' :: s.toList.flatMap escapeChar ++ '"' :: rest

/-- The piece that reading finds for one written character. -/
def escapedPiece (c : Char) : Piece :=
  if c < ' ' ∧ c ≠ '\x08' ∧ c ≠ '\x0c' ∧ c ≠ '\n' ∧ c ≠ '\r' ∧ c ≠ '\t' then .unit c.toNat
  else .char c

/-- The quotation that reading finds for a written text. -/
def Quotation.ofText (s : String) : Quotation :=
  ⟨s.toList.map escapedPiece, .closed⟩

end Uncaught.Json
