import Mathlib.Data.List.DropRight
import Uncaught.Command.Run
import Uncaught.Proofs.Report.PerCall

/-!
One bad file never hides another. The report of a run is on the trees that could be loaded, in the
order of the files, whatever stands between them; a file that could not be loaded shows in the exit
code alone. So lists of files that differ only in such files are reported on alike.
-/

namespace Uncaught

namespace Text

/-- The body is the text up to the white space at its end. -/
def TrimsTo (text body : String) : Prop :=
  ∃ blanks : String, text = body ++ blanks ∧ (∀ c ∈ blanks.toList, isWhiteSpace c = true) ∧
    ∀ c ∈ body.toList.getLast?, isWhiteSpace c = false

theorem trimsTo_trimEndText (text : String) : TrimsTo text (trimEndText text) := by
  have htrim : trimEnd text.toList = text.toList.rdropWhile isWhiteSpace := rfl
  refine ⟨String.ofList (text.toList.rtakeWhile isWhiteSpace), ?_, ?_, ?_⟩
  · rw [trimEndText, htrim, ← String.ofList_append, List.rdropWhile_append_rtakeWhile,
      String.ofList_toList]
  · intro c hc
    rw [String.toList_ofList] at hc
    exact List.mem_rtakeWhile_imp hc
  · intro c hc
    rw [trimEndText, htrim, String.toList_ofList] at hc
    obtain ⟨hne, rfl⟩ := List.mem_getLast?_eq_getLast hc
    exact Bool.eq_false_iff.mpr (List.rdropWhile_last_not _ _ hne)

end Text

namespace Command

open Text (TrimsTo)

/-- What is printed of a report: nothing of an empty one, and otherwise the report up to the white
space at its end, on a line of its own. -/
def Prints (text output : String) : Prop :=
  (text = "" ∧ output = "") ∨ (text ≠ "" ∧ ∃ body, TrimsTo text body ∧ output = body ++ "\n")

theorem prints_printed (text : String) : Prints text (printed text) := by
  by_cases hempty : text = ""
  · exact Or.inl ⟨hempty, if_pos hempty⟩
  · exact Or.inr ⟨hempty, _, Text.trimsTo_trimEndText text, if_neg hempty⟩

/-- The file could not be loaded. -/
def LoadedFile.Fails (f : LoadedFile) : Prop := ∃ error, f.tree = .error error

/-- The lists differ in files that fail to load, and in nothing else. -/
inductive DifferInFailures : List LoadedFile → List LoadedFile → Prop
  | nil : DifferInFailures [] []
  | keep {files files' : List LoadedFile} (f : LoadedFile) (hrest : DifferInFailures files files') :
      DifferInFailures (f :: files) (f :: files')
  | insert {files files' : List LoadedFile} {f : LoadedFile} (hf : f.Fails)
      (hrest : DifferInFailures files files') : DifferInFailures files (f :: files')
  | remove {files files' : List LoadedFile} {f : LoadedFile} (hf : f.Fails)
      (hrest : DifferInFailures files files') : DifferInFailures (f :: files) files'
  | change {files files' : List LoadedFile} {f f' : LoadedFile} (hf : f.Fails) (hf' : f'.Fails)
      (hrest : DifferInFailures files files') : DifferInFailures (f :: files) (f' :: files')

variable {files files' : List LoadedFile} {f : LoadedFile}

theorem LoadedFile.Fails.tree?_eq_none (hf : f.Fails) : f.tree? = none := by
  obtain ⟨error, hf⟩ := hf
  rw [LoadedFile.tree?, hf]
  rfl

theorem LoadedFile.exists_complaint?_iff : (∃ text, f.complaint? = some text) ↔ f.Fails := by
  rw [LoadedFile.complaint?, LoadedFile.Fails]
  cases f.tree with
  | ok t => simp
  | error error => simp

theorem isEmpty_complaints_eq_false_iff :
    (files.filterMap LoadedFile.complaint?).isEmpty = false ↔ ∃ f ∈ files, f.Fails := by
  simp only [← LoadedFile.exists_complaint?_iff, List.isEmpty_eq_false_iff_exists_mem,
    List.mem_filterMap]
  constructor
  · rintro ⟨text, f, hf, htext⟩
    exact ⟨f, hf, text, htext⟩
  · rintro ⟨f, hf, text, htext⟩
    exact ⟨text, f, hf, htext⟩

/-- The files that could be loaded give the same trees in the same order. -/
theorem DifferInFailures.trees_eq (hdiffer : DifferInFailures files files') :
    files.filterMap LoadedFile.tree? = files'.filterMap LoadedFile.tree? := by
  induction hdiffer with
  | nil => rfl
  | keep f _ ih => rw [List.filterMap_cons, List.filterMap_cons, ih]
  | insert hf _ ih => rw [List.filterMap_cons_none hf.tree?_eq_none, ih]
  | remove hf _ ih => rw [List.filterMap_cons_none hf.tree?_eq_none, ih]
  | change hf hf' _ ih =>
      rw [List.filterMap_cons_none hf.tree?_eq_none, List.filterMap_cons_none hf'.tree?_eq_none, ih]

theorem isClean_eq_false_iff (analyzer : Analyzer) (trees : List SyntaxTree) :
    (analyzer.analyze trees).isClean = false ↔
      ∃ v ∈ (analyzer.analyze trees).violations, v.suppressed = false := by
  rw [AnalysisResult.isClean, AnalysisResult.active, List.isEmpty_eq_false_iff_exists_mem]
  simp only [List.mem_filter, Bool.not_eq_true']

variable {format : OutputFormat} {verbose : Bool} {analyzer : Analyzer} {suffix : String}

theorem analyzeFiles_eq (hfiles : files ≠ []) :
    analyzeFiles format verbose analyzer suffix files = analyzeLoaded format verbose analyzer files :=
  if_neg (by rwa [List.isEmpty_iff])

theorem output_eq (hfiles : files ≠ []) :
    (analyzeFiles format verbose analyzer suffix files).output =
      printed ((analyzer.analyze (files.filterMap LoadedFile.tree?)).format format) := by
  rw [analyzeFiles_eq hfiles]
  rfl

theorem exitCode_eq (hfiles : files ≠ []) :
    (analyzeFiles format verbose analyzer suffix files).exitCode =
      analysisExit (analyzer.analyze (files.filterMap LoadedFile.tree?)).isClean
        !(files.filterMap LoadedFile.complaint?).isEmpty := by
  rw [analyzeFiles_eq hfiles]
  rfl

theorem exitCode_of_failure (hfails : ∃ f ∈ files, f.Fails) :
    (analyzeFiles format verbose analyzer suffix files).exitCode = 2 := by
  have hfiles : files ≠ [] := by
    rintro rfl
    obtain ⟨f, hf, -⟩ := hfails
    cases hf
  rw [exitCode_eq hfiles, isEmpty_complaints_eq_false_iff.mpr hfails]
  rfl

/-- Where every file could be loaded, the report decides. -/
theorem exitCode_of_loaded (hfiles : files ≠ []) (hloaded : ∀ f ∈ files, ¬f.Fails) :
    (analyzeFiles format verbose analyzer suffix files).exitCode =
      if (analyzer.analyze (files.filterMap LoadedFile.tree?)).isClean then 0 else 1 := by
  have hnone : (files.filterMap LoadedFile.complaint?).isEmpty = true := by
    rw [← Bool.not_eq_false, isEmpty_complaints_eq_false_iff]
    rintro ⟨f, hf, hfails⟩
    exact hloaded f hf hfails
  rw [exitCode_eq hfiles, hnone]
  rfl

theorem exitCode_eq_two_iff (hfiles : files ≠ []) :
    (analyzeFiles format verbose analyzer suffix files).exitCode = 2 ↔ ∃ f ∈ files, f.Fails := by
  constructor
  · intro hexit
    by_contra hnone
    have hloaded : ∀ f ∈ files, ¬f.Fails := fun f hf hfails => hnone ⟨f, hf, hfails⟩
    rw [exitCode_of_loaded hfiles hloaded] at hexit
    split at hexit
    · cases hexit
    · cases hexit
  · exact exitCode_of_failure

/-- **One bad file never hides another.** The report of a run over some files is printed from the
analysis of the trees that could be loaded, in the order of the files. The exit code is 2 if a file
could not be loaded, otherwise 1 if the report has a violation that is not suppressed, and otherwise
0. So lists that differ only in files that fail to load are reported on alike, and the exit code is 2
exactly for those with such a file. Without files there is no report, and the exit code is 2. -/
theorem failures_isolated (format : OutputFormat) (verbose : Bool) (analyzer : Analyzer)
    (suffix : String) :
    (∀ files : List LoadedFile, files ≠ [] →
      let result := analyzer.analyze (files.filterMap LoadedFile.tree?)
      let outcome := analyzeFiles format verbose analyzer suffix files
      Prints (result.format format) outcome.output ∧
      ((∃ f ∈ files, f.Fails) → outcome.exitCode = 2) ∧
      ((∀ f ∈ files, ¬f.Fails) → (∃ v ∈ result.violations, v.suppressed = false) →
        outcome.exitCode = 1) ∧
      ((∀ f ∈ files, ¬f.Fails) → (∀ v ∈ result.violations, v.suppressed = true) →
        outcome.exitCode = 0)) ∧
    (∀ files files' : List LoadedFile, files ≠ [] → files' ≠ [] → DifferInFailures files files' →
      (analyzeFiles format verbose analyzer suffix files).output =
        (analyzeFiles format verbose analyzer suffix files').output) ∧
    (∀ files : List LoadedFile, files ≠ [] →
      ((analyzeFiles format verbose analyzer suffix files).exitCode = 2 ↔ ∃ f ∈ files, f.Fails)) ∧
    (analyzeFiles format verbose analyzer suffix []).exitCode = 2 ∧
    (analyzeFiles format verbose analyzer suffix []).output = "" := by
  refine ⟨fun files hfiles => ?_, fun files files' hfiles hfiles' hdiffer => ?_,
    fun files => exitCode_eq_two_iff, rfl, rfl⟩
  · intro result outcome
    refine ⟨?_, exitCode_of_failure, fun hloaded hactive => ?_, fun hloaded hsuppressed => ?_⟩
    · have houtput : outcome.output = printed (result.format format) := output_eq hfiles
      rw [houtput]
      exact prints_printed _
    · have hclean := (isClean_eq_false_iff analyzer _).mpr hactive
      rw [exitCode_of_loaded hfiles hloaded, hclean]
      rfl
    · have hclean : result.isClean = true := by
        rw [← Bool.not_eq_false, isClean_eq_false_iff]
        rintro ⟨v, hv, hactive⟩
        rw [hsuppressed v hv] at hactive
        cases hactive
      rw [exitCode_of_loaded hfiles hloaded, hclean]
      rfl
  · rw [output_eq hfiles, output_eq hfiles', hdiffer.trees_eq]

/-- The nested call in a file of its own, and between two files that cannot be loaded: the same report,
once with the exit code of a violation and once with that of a failure. -/
theorem failures_isolated_nestedCall :
    let analyzer := Analyzer.new (.ofNames "Checked" "Safe")
    let good : LoadedFile := ⟨"Main.tree.json", .ok .nestedCall⟩
    let absent : LoadedFile := ⟨"Lost.tree.json", .error (.unreadable .notFound)⟩
    let circular : LoadedFile := ⟨"Odd.tree.json", .error (.malformed ⟨0⟩ .ownParent)⟩
    let alone := analyzeFiles .human false analyzer ".tree.json" [good]
    let between := analyzeFiles .human false analyzer ".tree.json" [absent, good, circular]
    alone.exitCode = 1 ∧ between.exitCode = 2 ∧ alone.output = between.output ∧
    Prints ((analyzer.analyze [.nestedCall]).format .human) alone.output := by
  intro analyzer good absent circular alone between
  obtain ⟨hrun, hsame, htwo, -, -⟩ := failures_isolated .human false analyzer ".tree.json"
  obtain ⟨hprints, -, hone, -⟩ := hrun [good] (List.cons_ne_nil _ _)
  have hgood : ∀ f ∈ [good], ¬f.Fails := by
    intro f hf
    rw [List.mem_singleton.mp hf]
    rintro ⟨error, herror⟩
    cases herror
  have habsent : absent.Fails := ⟨_, rfl⟩
  have hcircular : circular.Fails := ⟨_, rfl⟩
  have hdiffer : DifferInFailures [good] [absent, good, circular] :=
    .insert habsent (.keep good (.insert hcircular .nil))
  exact ⟨hone hgood ⟨_, List.mem_cons_self, rfl⟩,
    (htwo _ (List.cons_ne_nil _ _)).mpr ⟨absent, List.mem_cons_self, habsent⟩,
    hsame _ _ (List.cons_ne_nil _ _) (List.cons_ne_nil _ _) hdiffer, hprints⟩

end Command

end Uncaught
