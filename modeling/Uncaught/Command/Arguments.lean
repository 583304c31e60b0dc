/-!
The arguments of the command line. Flags may stand before the subcommand or behind it, and once in each
place; two dashes alone make everything behind them a value. Faults are reported in the order of the
arguments, and what is missing at the end.
-/

namespace Uncaught.Command

/-- What the program is asked to do. -/
inductive Task where
  | analyze (paths suppress : List String)
  | issues
  | explain (id : String)
  deriving DecidableEq, Repr

/-- A task with the flags that every task takes. -/
structure Invocation where
  task : Task
  json : Bool
  verbose : Bool
  deriving DecidableEq, Repr

/-- Why arguments name no task. Help and version are answers of their own. -/
inductive UsageError where
  | help
  | version
  | nothingGiven
  | missingTask
  | unknownTask
  | unknownArgument
  | repeatedFlag
  | missingValue
  | unneededValue
  | missingArgument
  deriving DecidableEq, Repr

def UsageError.exitCode : UsageError → Nat
  | .help | .version => 0
  | _ => 2

/-- The form of an argument. -/
inductive Word where
  | escape
  | long (name : List Char) (value : Option String)
  | short (letters : List Char)
  | plain (text : String)
  deriving DecidableEq, Repr

/-- A long flag may have a value behind an equals sign. A dash alone is a value. -/
def Word.ofText (text : String) : Word :=
  match text.toList with
  | ['-', '-'] => .escape
  | '-' :: '-' :: rest =>
    match rest.dropWhile (· != '=') with
    | [] => .long rest none
    | _ :: value => .long (rest.takeWhile (· != '=')) (some (String.ofList value))
  | '-' :: c :: rest => .short (c :: rest)
  | _ => .plain text

inductive Flag where
  | json
  | verbose
  | help
  | version
  | suppress
  deriving DecidableEq, Repr

/-- The flags that only one place takes. -/
structure Place where
  takesVersion : Bool
  takesSuppress : Bool
  maxValues : Option Nat

def Place.long? (p : Place) (name : List Char) : Option Flag :=
  match String.ofList name with
  | "json" => some .json
  | "verbose" => some .verbose
  | "help" => some .help
  | "version" => if p.takesVersion then some .version else none
  | "suppress" => if p.takesSuppress then some .suppress else none
  | _ => none

def Place.short? (p : Place) : Char → Option Flag
  | 'v' => some .verbose
  | 'h' => some .help
  | 'V' => if p.takesVersion then some .version else none
  | _ => none

/-- What has been read in one place. While `awaiting` holds, a flag stands without its value. -/
structure Reading where
  json : Bool
  verbose : Bool
  awaiting : Bool
  suppress : List String
  values : List String
  deriving DecidableEq, Repr

namespace Reading

def start : Reading := ⟨false, false, false, [], []⟩

def settled (r : Reading) : Except UsageError Reading :=
  if r.awaiting then .error .missingValue else .ok r

/-- Takes a flag without a value. -/
def flag (r : Reading) (f : Flag) : Except UsageError Reading := do
  let r ← r.settled
  match f with
  | .json => if r.json then .error .repeatedFlag else .ok { r with json := true }
  | .verbose => if r.verbose then .error .repeatedFlag else .ok { r with verbose := true }
  | .help => .error .help
  | .version => .error .version
  | .suppress => .ok { r with awaiting := true }

def long (p : Place) (r : Reading) (name : List Char) (value : Option String) :
    Except UsageError Reading :=
  match p.long? name, value with
  | none, _ => .error .unknownArgument
  | some f, none => r.flag f
  | some .suppress, some value => do
    let r ← r.settled
    .ok { r with suppress := r.suppress ++ [value] }
  | some _, some _ => .error .unneededValue

def letters (p : Place) (r : Reading) : List Char → Except UsageError Reading
  | [] => .ok r
  | c :: cs =>
    match p.short? c with
    | none => .error .unknownArgument
    | some f => do
      let r ← r.flag f
      r.letters p cs

/-- Takes a value that belongs to no flag. -/
def value (p : Place) (r : Reading) (text : String) : Except UsageError Reading :=
  match p.maxValues with
  | some n =>
    if r.values.length < n then .ok { r with values := r.values ++ [text] }
    else .error .unknownArgument
  | none => .ok { r with values := r.values ++ [text] }

def valuesOnly (p : Place) (r : Reading) : List String → Except UsageError Reading
  | [] => .ok r
  | text :: texts => do
    let r ← r.value p text
    r.valuesOnly p texts

/-- Reads the arguments behind a subcommand. -/
def all (p : Place) (r : Reading) : List String → Except UsageError Reading
  | [] => r.settled
  | text :: texts =>
    match Word.ofText text with
    | .escape => do
      let r ← r.settled
      r.valuesOnly p texts
    | .long name value => do
      let r ← r.long p name value
      r.all p texts
    | .short letters => do
      let r ← r.letters p letters
      r.all p texts
    | .plain text =>
      if r.awaiting then
        { r with awaiting := false, suppress := r.suppress ++ [text] }.all p texts
      else do
        let r ← r.value p text
        r.all p texts

end Reading

/-- The subcommands. -/
inductive Verb where
  | analyze
  | issues
  | explain
  | help
  deriving DecidableEq, Repr

def Verb.ofText? : String → Option Verb
  | "analyze" => some .analyze
  | "issues" => some .issues
  | "explain" => some .explain
  | "help" => some .help
  | _ => none

def Verb.place : Verb → Place
  | .analyze => ⟨false, true, none⟩
  | .explain => ⟨false, false, some 1⟩
  | .issues | .help => ⟨false, false, some 0⟩

/-- Help on a subcommand; they have none below them. -/
def readHelp : List String → UsageError
  | [] => .help
  | [name] => if (Verb.ofText? name).isSome then .help else .unknownTask
  | _ :: _ :: _ => .unknownTask

/-- Reads what stands behind a subcommand, with the flags before it. -/
def readTask (before : Reading) (verb : Verb) (args : List String) : Except UsageError Invocation := do
  if verb = .help then .error (readHelp args)
  else
    let r ← Reading.start.all verb.place args
    let invocation := fun (task : Task) =>
      (⟨task, before.json || r.json, before.verbose || r.verbose⟩ : Invocation)
    match verb, r.values with
    | .analyze, paths => .ok (invocation (.analyze paths r.suppress))
    | .explain, id :: _ => .ok (invocation (.explain id))
    | .explain, [] => .error .missingArgument
    | _, _ => .ok (invocation .issues)

def top : Place := ⟨true, false, some 0⟩

/-- There is no subcommand. -/
def missing (before : Reading) : UsageError :=
  if before.json || before.verbose then .missingTask else .nothingGiven

/-- Reads up to the subcommand. -/
def readTop (before : Reading) : List String → Except UsageError Invocation
  | [] => .error (missing before)
  | text :: texts =>
    match Verb.ofText? text with
    | some verb => readTask before verb texts
    | none =>
      match Word.ofText text with
      | .escape =>
        match texts with
        | [] => .error (missing before)
        | text :: _ =>
          .error (if (Verb.ofText? text).isSome then .unknownArgument else .unknownTask)
      | .long name value => do
        let before ← before.long top name value
        readTop before texts
      | .short letters => do
        let before ← before.letters top letters
        readTop before texts
      | .plain _ => .error .unknownTask

/-- The task that arguments name. -/
def Invocation.ofArguments (args : List String) : Except UsageError Invocation := readTop .start args

end Uncaught.Command
