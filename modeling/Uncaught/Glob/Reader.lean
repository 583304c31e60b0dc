import Uncaught.Glob.Basic

/-!
Reading glob patterns. Two stars stand for directories where they fill the space between separators,
and for two single stars elsewhere. A bracket that does not close stands for itself, and so do all
brackets after it.
-/

namespace Uncaught.Glob

/-- Why a pattern cannot be read. -/
inductive PatternError where
  | invalidRange (low high : Char)
  | unopenedGroup
  | unclosedGroup
  | danglingEscape
  deriving DecidableEq, Repr

def PatternError.message : PatternError → String
  | .invalidRange low high =>
    "invalid range; '" ++ String.singleton low ++ "' > '" ++ String.singleton high ++ "'"
  | .unopenedGroup =>
    "unopened alternate group; missing '\x7b' (maybe escape '\x7d' with '[\x7d]'?)"
  | .unclosedGroup =>
    "unclosed alternate group; missing '\x7d' (maybe escape '\x7b' with '[\x7b]'?)"
  | .danglingEscape => "dangling '\\'"

/-- The state inside brackets. The ranges are kept last first; a range may wait for its upper end. -/
structure ClassState where
  ranges : List (Char × Char)
  first : Bool
  open' : Bool

/-- Ends the last range at a character. -/
def ClassState.close (st : ClassState) (c : Char) : Except PatternError ClassState :=
  match st.ranges with
  | (low, _) :: ranges =>
    if c < low then .error (.invalidRange low c) else .ok ⟨(low, c) :: ranges, false, false⟩
  | [] => .ok { st with first := false, open' := false }

/-- Takes one character between brackets. -/
def ClassState.add (st : ClassState) (c : Char) : Except PatternError ClassState :=
  if st.open' then st.close c
  else if c = '-' && !st.first then .ok { st with open' := true }
  else .ok ⟨(c, c) :: st.ranges, false, false⟩

/-- The ranges between brackets. A dash at the end stands for itself. -/
def ClassState.finish (st : ClassState) : List (Char × Char) :=
  (if st.open' then ('-', '-') :: st.ranges else st.ranges).reverse

/-- Reads up to the closing bracket, if there is one. A closing bracket that comes first stands for
itself. -/
def readClass (st : ClassState) :
    List Char → Except PatternError (Option (List (Char × Char) × List Char))
  | [] => .ok none
  | c :: rest =>
    if c = ']' && !st.first then .ok (some (st.finish, rest))
    else do
      let st ← st.add c
      readClass st rest

/-- A class from behind its opening bracket. -/
def readBracket (cs : List Char) : Except PatternError (Option (Token × List Char)) := do
  let (negated, cs) := match cs with
    | '!' :: rest => (true, rest)
    | '^' :: rest => (true, rest)
    | cs => (false, cs)
  match ← readClass ⟨[], true, false⟩ cs with
  | some (ranges, rest) => .ok (some (.oneOf negated ranges, rest))
  | none => .ok none

/-- A group that is open: the tokens before it and its finished branches, both last first. -/
structure Group where
  before : List Token
  branches : List (List Token)

/-- The state between characters: the tokens of the current branch, last first, the open groups, the
character before, and whether brackets stand for themselves. -/
structure State where
  tokens : List Token
  groups : List Group
  last : Option Char
  bracketsLiteral : Bool

def State.start : State := ⟨[], [], none, false⟩

def State.push (st : State) (token : Token) (last : Char) : State :=
  { st with tokens := token :: st.tokens, last := some last }

def State.pushStars (st : State) : State := (st.push .star '*').push .star '*'

/-- Two stars behind a separator: they take its place. -/
def State.widen (st : State) (atEnd : Bool) (last : Char) : State :=
  match st.tokens with
  | .leadingDirs :: _ => { st with last := some last }
  | .trailingAll :: _ => { st with last := some last }
  | _ :: tokens =>
    { st with tokens := (if atEnd then .trailingAll else .innerDirs) :: tokens, last := some last }
  | [] => st

/-- Two stars that may stand for directories: behind a separator, or where a branch of a group seems to
start. -/
def State.mayWiden (st : State) : Bool :=
  match st.last with
  | some '/' => true
  | some ',' => !st.groups.isEmpty
  | some '\x7b' => !st.groups.isEmpty
  | _ => false

/-- Takes two stars, with the text behind them. -/
def State.pushDirs (st : State) (rest : List Char) : State × List Char :=
  match st.tokens, rest with
  | [], [] => (st.push .leadingDirs '*', [])
  | [], '/' :: rest => (st.push .leadingDirs '/', rest)
  | [], rest => (st.pushStars, rest)
  | _ :: _, rest =>
    if !st.mayWiden then (st.pushStars, rest)
    else
      match rest with
      | [] => (st.widen true '*', [])
      | '/' :: rest => (st.widen false '/', rest)
      | c :: rest =>
        if (c = ',' || c = '\x7d') && !st.groups.isEmpty then (st.widen true '*', c :: rest)
        else (st.pushStars, c :: rest)

/-- Opens a group. -/
def State.openGroup (st : State) : State :=
  { st with tokens := [], groups := ⟨st.tokens, []⟩ :: st.groups, last := some '\x7b' }

/-- Starts the next branch of a group. A comma outside of groups stands for itself. -/
def State.nextBranch (st : State) : State :=
  match st.groups with
  | [] => st.push (.literal ',') ','
  | group :: groups =>
    { st with
      tokens := []
      groups := { group with branches := st.tokens.reverse :: group.branches } :: groups
      last := some ',' }

def State.closeGroup (st : State) : Except PatternError State :=
  match st.groups with
  | [] => .error .unopenedGroup
  | group :: groups =>
    .ok { st with
      tokens := .alternates (st.tokens.reverse :: group.branches).reverse :: group.before
      groups := groups
      last := some '\x7d' }

def State.finish (st : State) : Except PatternError (List Token) :=
  match st.groups with
  | [] => .ok st.tokens.reverse
  | _ :: _ => .error .unclosedGroup

/-- Reads a pattern; every step takes at least one character. -/
def readTokens : Nat → State → List Char → Except PatternError (List Token)
  | 0, st, _ => st.finish
  | _ + 1, st, [] => st.finish
  | n + 1, st, c :: rest =>
    match c with
    | '?' => readTokens n (st.push .any '?') rest
    | '*' =>
      match rest with
      | '*' :: rest =>
        let (st, rest) := st.pushDirs rest
        readTokens n st rest
      | rest => readTokens n (st.push .star '*') rest
    | '[' =>
      if st.bracketsLiteral then readTokens n (st.push (.literal '[') '[') rest
      else do
        match ← readBracket rest with
        | some (token, rest) => readTokens n (st.push token ']') rest
        | none => readTokens n { st.push (.literal '[') '[' with bracketsLiteral := true } rest
    | '\x7b' => readTokens n st.openGroup rest
    | '\x7d' => do
      let st ← st.closeGroup
      readTokens n st rest
    | ',' => readTokens n st.nextBranch rest
    | '\\' =>
      match rest with
      | [] => .error .danglingEscape
      | e :: rest => readTokens n (st.push (.literal e) e) rest
    | c => readTokens n (st.push (.literal c) c) rest

/-- Reads a pattern. -/
def read (cs : List Char) : Except PatternError (List Token) := readTokens (cs.length + 1) .start cs

end Uncaught.Glob
