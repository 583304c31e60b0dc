import Uncaught.Proofs.Fix.RoundTrip
import Uncaught.Proofs.Report.PerCall
import Uncaught.Report.Format

/-!
Reports survive being written and read. A reader refuses texts that nest too deep, and the fix of a
violation is the only part of a report that could: but the fixes that are offered all have one shape.
-/

namespace Uncaught

open Json.Decoder (recovers_uint32 recovers_string recovers_bool recovers_option recovers_list
  recovers_bareName)

theorem Analyzer.exists_fix_eq_offered {a : Analyzer} {trees : List SyntaxTree} {v : Violation}
    (hv : v ∈ (a.analyze trees).violations) : ∃ statement, v.fix = .offered a.policy statement := by
  obtain ⟨t, -, id, hcall⟩ := exists_analyzeCall_of_mem hv
  exact ⟨v.statementRange, fix_eq_offered hcall⟩

variable (levels : Nat)

theorem Severity.recovers (s : Severity) : decoder.Recovers levels s.toJson s := by
  apply recovers_bareName
  cases s <;> rfl

theorem Category.recovers (c : Category) : decoder.Recovers levels c.toJson c := by
  apply recovers_bareName
  cases c
  rfl

theorem AnalysisInfo.recovers (i : AnalysisInfo) : decoder.Recovers (levels + 1) i.toJson i :=
  (Json.Fields.Written.recovers
    (.member (recovers_uint32 levels i.callSites)
      (.member (recovers_uint32 levels i.checkedCalls)
        (.member (recovers_uint32 levels i.handled)
          (.member (recovers_uint32 levels i.exempted)
            (.member (recovers_uint32 levels i.unresolved)
              (.member (recovers_uint32 levels i.skippedMalformed)
                (.member (recovers_uint32 levels i.skippedFiles) .nil)))))))
    (by decide) _).map _

variable {levels}

theorem Violation.recovers (v : Violation) (hfix : v.fix.toJson.depth ≤ levels + 1) :
    decoder.Recovers (levels + 2) v.toJson v :=
  (Json.Fields.Written.recovers
    (.member (recovers_string _ v.issueId)
      (.member (Severity.recovers _ v.severity)
        (.member (Category.recovers _ v.category)
          (.member (recovers_string _ v.message)
            (.member (recovers_string _ v.file)
              (.member (recovers_option (recovers_uint32 _) nofun v.line)
                (.member (recovers_option (recovers_uint32 _) nofun v.column)
                  (.member (recovers_string _ v.callee)
                    (.member (TextRange.recovers levels v.problemRange)
                      (.member (TextRange.recovers levels v.statementRange)
                        (.member (recovers_string _ v.fingerprint)
                          (.member (recovers_bool _ v.suppressed)
                            (.member (recovers_option (recovers_string _) nofun v.suppressHint)
                              (.member (Fix.recovers v.fix hfix) .nil))))))))))))))
    (by decide) _).map _

namespace AnalysisResult

theorem recovers (r : AnalysisResult) (hfixes : ∀ v ∈ r.violations, v.fix.toJson.depth ≤ levels + 1) :
    decoder.Recovers (levels + 4) r.toJson r :=
  (Json.Fields.Written.recovers
    (.member (recovers_string _ r.version)
      (.member (recovers_string _ r.command)
        (.member (recovers_string _ r.status)
          (.member (Json.Decoder.recovers_strings (levels + 2) r.filesAnalyzed)
            (.member (recovers_list fun v hv => Violation.recovers v (hfixes v hv))
              (.member (AnalysisInfo.recovers (levels + 2) r.info) .nil))))))
    (by decide) _).map _

/-- **A report survives being written and read**, whatever analyzer made it and of whatever trees. -/
theorem decodeText_format (a : Analyzer) (trees : List SyntaxTree) :
    decoder.decodeText ((a.analyze trees).format .json) = .ok (a.analyze trees) := by
  have hfixes : ∀ v ∈ (a.analyze trees).violations, v.fix.toJson.depth ≤ 5 + 1 := by
    intro v hv
    obtain ⟨statement, hfix⟩ := Analyzer.exists_fix_eq_offered hv
    rw [hfix, Fix.depth_offered]
  exact ((a.analyze trees).recovers hfixes).decodeText_eq (by decide) (Or.inr rfl)

end AnalysisResult

end Uncaught
