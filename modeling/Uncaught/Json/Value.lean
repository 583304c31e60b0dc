import Uncaught.Json.Document

/-!
JSON values as this library writes them. A layout says where a text has blanks; there are two, one
without any, and one that is indented. Values are written in front of the text that follows, and
`Json.document` is the document that reading finds, whatever the layout.
-/

namespace Uncaught

/-- A JSON value. Numbers are natural, and members keep their order. -/
inductive Json where
  | null
  | bool (b : Bool)
  | num (n : Nat)
  | str (s : String)
  | arr (items : List Json)
  | obj (members : List (String × Json))

namespace Json

def boolChars (b : Bool) : List Char := if b then ['t', 'r', 'u', 'e'] else ['f', 'a', 'l', 's', 'e']

def Blank (cs : List Char) : Prop := ∀ c ∈ cs, Document.isBlank c = true

/-- Where a written text has blanks: before each item or member of a level and before what closes the
level around it, and behind the colon of a member. -/
structure Layout where
  line : Nat → List Char
  gap : List Char
  line_blank : ∀ level, Blank (line level)
  gap_blank : Blank gap

/-- No blanks. -/
def Layout.dense : Layout where
  line _ := []
  gap := []
  line_blank _ _ hc := absurd hc List.not_mem_nil
  gap_blank _ hc := absurd hc List.not_mem_nil

/-- One item or member a line, indented by two blanks a level. -/
def Layout.indented : Layout where
  line level := '\n' :: List.replicate (2 * level) ' '
  gap := [' ']
  line_blank := by
    intro level c hc
    rcases List.mem_cons.mp hc with rfl | hc
    · rfl
    · rw [List.eq_of_mem_replicate hc]
      rfl
  gap_blank := by
    intro c hc
    rw [List.mem_singleton.mp hc]
    rfl

mutual

/-- The text of a value that starts at a level, in front of `rest`. -/
def writeOnto (l : Layout) (level : Nat) : Json → List Char → List Char
  | .null, rest => 'n' :: 'u' :: 'l' :: 'l' :: rest
  | .bool b, rest => boolChars b ++ rest
  | .num n, rest => Nat.toDigits 10 n ++ rest
  | .str s, rest => quoteOnto s rest
  | .arr [], rest => '[' :: ']' :: rest
  | .arr (v :: vs), rest =>
    '[' :: (l.line (level + 1) ++
      writeOnto l (level + 1) v (itemsOnto l (level + 1) vs (l.line level ++ ']' :: rest)))
  | .obj [], rest => '\x7b' :: '\x7d' :: rest
  | .obj ((k, v) :: ms), rest =>
    '\x7b' :: (l.line (level + 1) ++ quoteOnto k (':' :: (l.gap ++
      writeOnto l (level + 1) v (membersOnto l (level + 1) ms (l.line level ++ '\x7d' :: rest)))))

def itemsOnto (l : Layout) (level : Nat) : List Json → List Char → List Char
  | [], rest => rest
  | v :: vs, rest => ',' :: (l.line level ++ writeOnto l level v (itemsOnto l level vs rest))

def membersOnto (l : Layout) (level : Nat) : List (String × Json) → List Char → List Char
  | [], rest => rest
  | (k, v) :: ms, rest =>
    ',' :: (l.line level ++
      quoteOnto k (':' :: (l.gap ++ writeOnto l level v (membersOnto l level ms rest))))

end

def write (l : Layout) (j : Json) : String := String.ofList (j.writeOnto l 0 [])

/-- The text of a value without blanks. -/
def compact (j : Json) : String := j.write .dense

/-- The indented text of a value. -/
def pretty (j : Json) : String := j.write .indented

mutual

/-- The document that reading a written value finds. -/
def document : Json → Document
  | .null => .null
  | .bool b => .bool b
  | .num n => .number (.ofNat n)
  | .str s => .text (.ofText s)
  | .arr items => .array (itemDocuments items) .closed
  | .obj members => .object (memberDocuments members) .closed

def itemDocuments : List Json → List Document
  | [] => []
  | v :: vs => document v :: itemDocuments vs

def memberDocuments : List (String × Json) → List (Quotation × Document)
  | [] => []
  | (k, v) :: ms => (.ofText k, document v) :: memberDocuments ms

end

mutual

/-- How many lists and objects a value nests. -/
def depth : Json → Nat
  | .arr items => 1 + itemsDepth items
  | .obj members => 1 + membersDepth members
  | _ => 0

def itemsDepth : List Json → Nat
  | [] => 0
  | v :: vs => max (depth v) (itemsDepth vs)

def membersDepth : List (String × Json) → Nat
  | [] => 0
  | (_, v) :: ms => max (depth v) (membersDepth ms)

end

/-- What is written for a value, or `null` when there is none. -/
def ofOption {α : Type} (write : α → Json) : Option α → Json
  | none => .null
  | some a => write a

def ofList {α : Type} (write : α → Json) (as : List α) : Json := .arr (as.map write)

def strings (ss : List String) : Json := .arr (ss.map .str)

def ofUInt32 (n : UInt32) : Json := .num n.toNat

end Json

end Uncaught
