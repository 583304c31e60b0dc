import Uncaught.Command.Arguments
import Uncaught.Files.Collect
import Uncaught.Report.Format

/-!
What the program does with its arguments, as a function of the files. A file that cannot be loaded is
reported and changes the exit code; the report is on the others.
-/

namespace Uncaught.Command

/-- What is written and how the program ends. -/
structure Outcome where
  exitCode : Nat
  output : String
  errors : List String
  deriving DecidableEq, Repr

def programName : String := "throwguard"

/-- A message of the analysis. -/
def complaint (text : String) : String := programName ++ " analyze: " ++ text

/-- A report as it is printed: without white space at its end, on a line of its own; an empty report is
not printed. -/
def printed (text : String) : String :=
  if text = "" then "" else Text.trimEndText text ++ "\n"

/-- A file with the tree in it. -/
structure LoadedFile where
  path : String
  tree : Except TreeError SyntaxTree

def LoadedFile.tree? (f : LoadedFile) : Option SyntaxTree := f.tree.toOption

def LoadedFile.complaint? (f : LoadedFile) : Option String :=
  match f.tree with
  | .ok _ => none
  | .error e => some (complaint (f.path ++ ": " ++ e.message))

/-- The counts of a run in one line. -/
def summary (count : Nat) (info : AnalysisInfo) : String :=
  complaint (toString count ++ " files, " ++ toString info.callSites.toNat ++ " calls, " ++
    toString info.checkedCalls.toNat ++ " checked (" ++ toString info.handled.toNat ++ " handled, " ++
    toString info.exempted.toNat ++ " exempt), " ++ toString info.unresolved.toNat ++ " unresolved, " ++
    toString info.skippedMalformed.toNat ++ " skipped")

/-- The exit code of an analysis. -/
def analysisExit (clean anyFailure : Bool) : Nat :=
  if anyFailure then 2 else if clean then 0 else 1

/-- Analyses files that have been loaded. -/
def analyzeLoaded (format : OutputFormat) (verbose : Bool) (analyzer : Analyzer)
    (files : List LoadedFile) : Outcome :=
  let trees := files.filterMap LoadedFile.tree?
  let failures := files.filterMap LoadedFile.complaint?
  let result := analyzer.analyze trees
  { exitCode := analysisExit result.isClean !failures.isEmpty
    output := printed (result.format format)
    errors := failures ++ (if verbose then [summary trees.length result.info] else []) }

/-- Analyses the files that were found in a search for a suffix, each with what loading it gave. -/
def analyzeFiles (format : OutputFormat) (verbose : Bool) (analyzer : Analyzer) (suffix : String)
    (files : List LoadedFile) : Outcome :=
  if files.isEmpty then
    ⟨2, "", [complaint ("no tree files found (looking for *" ++ suffix ++ ")")]⟩
  else analyzeLoaded format verbose analyzer files

/-- Reads a tree from a file. -/
def loadTree (disk : Disk) (path : String) : Except TreeError SyntaxTree :=
  match disk.readText path with
  | .ok text => SyntaxTree.ofJsonText text
  | .error fault => .error (.unreadable fault)

/-- The settings that a directory holds. -/
def loadSettings (disk : Disk) (dir : String) : Settings :=
  match disk.readText (Path.join dir Settings.fileName) with
  | .ok text => Settings.ofText text
  | .error _ => .default

/-- The files to analyse: the current directory when nothing is named. -/
def roots (disk : Disk) (paths : List String) : List String :=
  if paths.isEmpty then [Disk.pathOf disk.here] else paths

/-- The directory of the settings file. -/
def settingsDir (disk : Disk) : String := Path.join (Disk.pathOf disk.here) Settings.directory

/-- Whether the content of a file that a walk comes across can matter, by the file's name. -/
def mayRead (settings : Settings) (name : String) : Bool :=
  name.endsWith settings.treeSuffix ||
    (Ignore.levelFiles.any fun path => (Path.names path).getLast? = some name) || name = "commondir"

def runAnalyze (disk : Disk) (format : OutputFormat) (verbose : Bool) (paths suppress : List String) :
    Outcome :=
  let settings := loadSettings disk (settingsDir disk)
  match disk.view.collect settings (roots disk paths) with
  | .error e => ⟨2, "", [complaint e.message]⟩
  | .ok files =>
    let analyzer := suppress.foldl .suppress (Analyzer.configured .default settings.suppress)
    analyzeFiles format verbose analyzer settings.treeSuffix
      (files.map fun path => ⟨path, loadTree disk path⟩)

def runIssues (format : OutputFormat) : Outcome :=
  let text := Issue.formatList Issue.all format
  ⟨0, if text = "" || text.endsWith "\n" then text else text ++ "\n", []⟩

def runExplain (format : OutputFormat) (id : String) : Outcome :=
  match Issue.find? id with
  | some issue => ⟨0, printed (issue.describe format), []⟩
  | none =>
    ⟨2, "", ["error: unknown issue id: " ++ id,
      "hint: known issues: " ++ ", ".intercalate (Issue.all.map (·.id))]⟩

/-- Does what the arguments ask for. -/
def run (disk : Disk) (i : Invocation) : Outcome :=
  let format := if i.json then OutputFormat.json else .human
  match i.task with
  | .analyze paths suppress => runAnalyze disk format i.verbose paths suppress
  | .issues => runIssues format
  | .explain id => runExplain format id

end Uncaught.Command
