/-!
Places in a source text. A range counts bytes, from `start` up to, and without, `stop`. Nothing keeps it
from ending before it starts; such a range is empty.

A position counts lines and columns from one, and columns in characters. An offset inside a character
counts the bytes from the start of its line instead, and an offset past the end counts every missing byte
as a column of the last line. The offsets at which the lines start are collected once for a text. The
line of an offset is the last that starts up to there, which is found by halving.
-/

namespace Uncaught

structure TextRange where
  start : UInt32
  stop : UInt32
  deriving DecidableEq, Repr

namespace TextRange

/-- The number of bytes in the range. -/
def length (r : TextRange) : UInt32 := if r.stop ≤ r.start then 0 else r.stop - r.start

def isEmpty (r : TextRange) : Bool := r.stop ≤ r.start

/-- Both bounds of `other` lie within the bounds of `r`. -/
def contains (r other : TextRange) : Bool := r.start ≤ other.start && other.stop ≤ r.stop

def toText (r : TextRange) : String := toString r.start.toNat ++ ".." ++ toString r.stop.toNat

end TextRange

namespace Text

structure Position where
  line : UInt32
  column : UInt32
  deriving DecidableEq, Repr

/-! ### Search in a sorted table -/

/-- Where a sorted table has a key: at a place, or nowhere, with the place to insert it at. -/
inductive Place where
  | found (i : Nat)
  | missing (i : Nat)
  deriving DecidableEq, Repr

/-- Halves the part of a table, `size` entries from `base` on, until one entry is left. The half from the
middle on is kept unless the entry there is above the key. -/
def narrow (table : Array UInt32) (key : UInt32) (base size : Nat) : Nat :=
  if size ≤ 1 then base
  else
    let middle := base + size / 2
    if table[middle]?.any (key < ·) then narrow table key base (size - size / 2)
    else narrow table key middle (size - size / 2)

def search (table : Array UInt32) (key : UInt32) : Place :=
  let i := narrow table key 0 table.size
  match table[i]? with
  | none => .missing 0
  | some entry =>
    if entry = key then .found i else if entry < key then .missing (i + 1) else .missing i

/-- The place of the last entry up to the key. There is none if the key belongs before all entries. -/
def Place.last? : Place → Option Nat
  | .found i => some i
  | .missing 0 => none
  | .missing (i + 1) => some i

/-- Halving leaves the first entry or one that is not above the key. -/
theorem narrow_cases (table : Array UInt32) (key : UInt32) (base size : Nat)
    (hin : base + size ≤ table.size) :
    narrow table key base size = base ∨
      ∃ entry, table[narrow table key base size]? = some entry ∧ entry ≤ key := by
  fun_induction narrow table key base size with
  | case1 base size hsize => exact Or.inl rfl
  | case2 base size hsize middle habove ih => exact ih (by omega)
  | case3 base size hsize middle habove ih =>
    right
    rcases ih (by omega) with heq | hentry
    · have hmiddle : middle < table.size := by omega
      rw [heq]
      exact ⟨table[middle], Array.getElem?_eq_getElem hmiddle, by simpa [hmiddle] using habove⟩
    · exact hentry

/-- In a table with a first entry up to the key there is a last one. -/
theorem exists_last? {table : Array UInt32} {key first : UInt32} (hfirst : table[0]? = some first)
    (hle : first ≤ key) : ∃ i entry, (search table key).last? = some i ∧ table[i]? = some entry := by
  obtain ⟨entry, hentry, hle⟩ : ∃ entry, table[narrow table key 0 table.size]? = some entry ∧
      entry ≤ key := by
    rcases narrow_cases table key 0 table.size (by omega) with heq | hentry
    · exact ⟨first, by rw [heq, hfirst], hle⟩
    · exact hentry
  refine ⟨narrow table key 0 table.size, entry, ?_, hentry⟩
  simp only [search, hentry]
  split
  next => rfl
  next hne =>
    rw [if_pos (UInt32.lt_of_le_of_ne hle hne)]
    rfl

/-! ### Lines -/

/-- The byte of a line break. -/
def newline : UInt8 := 10

/-- The offsets just after the line breaks among bytes of which the first is at offset `i`. -/
def lineStartsFrom (i : Nat) : List UInt8 → List UInt32
  | [] => []
  | b :: bytes =>
    if b = newline then (i.toUInt32 + 1) :: lineStartsFrom (i + 1) bytes
    else lineStartsFrom (i + 1) bytes

/-- A text with the offsets at which its lines start. -/
structure LineIndex where
  source : String
  lineStarts : Array UInt32

/-- The bytes of a text. -/
def bytes (source : String) : List UInt8 := source.toUTF8.data.toList

def LineIndex.of (source : String) : LineIndex :=
  ⟨source, (0 :: lineStartsFrom 0 (bytes source)).toArray⟩

/-- The part of a text in a range whose bounds stand in order and between characters. -/
def slice? (source : String) (range : TextRange) : Option String :=
  let start : String.Pos.Raw := ⟨range.start.toNat⟩
  let stop : String.Pos.Raw := ⟨range.stop.toNat⟩
  if range.start ≤ range.stop ∧ start.isValid source ∧ stop.isValid source then
    some (start.extract source stop)
  else none

/-- The columns of a range: its characters, or its bytes if a bound is inside a character. -/
def columns (source : String) (range : TextRange) : UInt32 :=
  match slice? source range with
  | some text => text.length.toUInt32
  | none => range.length

/-- An offset in the text; past its end this is the end. -/
def clamp (source : String) (offset : UInt32) : UInt32 :=
  let size := source.utf8ByteSize.toUInt32
  if offset ≤ size then offset else size

/-- The position of a byte offset, unless no line starts up to there. -/
def LineIndex.position? (index : LineIndex) (offset : UInt32) : Option Position := do
  let line ← (search index.lineStarts offset).last?
  let start ← index.lineStarts[line]?
  let stop := clamp index.source offset
  let missing := (TextRange.mk stop offset).length
  return ⟨line.toUInt32 + 1, columns index.source ⟨start, stop⟩ + missing + 1⟩

/-- The first line starts at offset zero, so every offset is on a line. -/
theorem LineIndex.isSome_position?_of (source : String) (offset : UInt32) :
    ((LineIndex.of source).position? offset).isSome := by
  have hfirst : (LineIndex.of source).lineStarts[0]? = some 0 := rfl
  obtain ⟨line, start, hline, hstart⟩ := exists_last? hfirst (UInt32.zero_le : 0 ≤ offset)
  simp [position?, hline, hstart]

/-- The position of a byte offset. -/
def position (source : String) (offset : UInt32) : Position :=
  ((LineIndex.of source).position? offset).get (LineIndex.isSome_position?_of source offset)

/-- The number of lines; the text after the last line break is a line, even if it is empty. -/
def lineCount (source : String) : Nat := (LineIndex.of source).lineStarts.size

end Text

end Uncaught
