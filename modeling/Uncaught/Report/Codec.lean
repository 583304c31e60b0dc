import Uncaught.Fix.Codec
import Uncaught.Report.Analysis

/-!
Verdicts, violations and results in JSON. Absent positions and hints are written as `null`.
-/

namespace Uncaught

open Json (Decoder Fields Choices)

namespace Severity

def toJson (s : Severity) : Json := .str s.toText

def choices : Choices Severity := [("ERROR", .error), ("INFO", .info)]

def decoder : Decoder Severity := Json.bareName choices.select

end Severity

namespace Category

def toJson (c : Category) : Json := .str c.toText

def choices : Choices Category := [("correctness", .correctness)]

def decoder : Decoder Category := Json.bareName choices.select

end Category

namespace HandledBy

def toJson : HandledBy → Json
  | .catchClause scope => .obj [("kind", .str "catch"), ("scope", scope.toJson)]
  | .declaration function => .obj [("kind", .str "declaration"), ("function", function.toJson)]

def catchFields : Fields [NodeId] := .cons (.required "scope" NodeId.decoder) .nil

def declarationFields : Fields [NodeId] := .cons (.required "function" NodeId.decoder) .nil

def choices : Choices (Decoder HandledBy) :=
  [("catch",
      (catchFields.decoder "struct variant HandledBy::Catch").map fun (scope, _) =>
        .catchClause scope),
    ("declaration",
      (declarationFields.decoder "struct variant HandledBy::Declaration").map fun (function, _) =>
        .declaration function)]

def decoder : Decoder HandledBy := Json.tagged "internally tagged enum HandledBy" "kind" choices

end HandledBy

namespace Exemption

def toJson : Exemption → Json
  | .throwingContract lambda =>
    .obj [("kind", .str "throwing_contract"), ("lambda", lambda.toJson)]
  | .safeMarker lambda receiver =>
    .obj [("kind", .str "safe_marker"), ("lambda", lambda.toJson), ("receiver", receiver.toJson)]

def contractFields : Fields [NodeId] := .cons (.required "lambda" NodeId.decoder) .nil

def markerFields : Fields [NodeId, NodeId] :=
  .cons (.required "lambda" NodeId.decoder) (.cons (.required "receiver" NodeId.decoder) .nil)

def choices : Choices (Decoder Exemption) :=
  [("throwing_contract",
      (contractFields.decoder "struct variant Exemption::ThrowingContract").map fun (lambda, _) =>
        .throwingContract lambda),
    ("safe_marker",
      (markerFields.decoder "struct variant Exemption::SafeMarker").map fun (lambda, receiver, _) =>
        .safeMarker lambda receiver)]

def decoder : Decoder Exemption := Json.tagged "internally tagged enum Exemption" "kind" choices

end Exemption

namespace Policy

def toJson (p : Policy) : Json :=
  .obj [("checked_exception", .str p.checkedException), ("safe_marker", .str p.safeMarker),
    ("safe_call_helper", .str p.safeCallHelper)]

def fields : Fields [String, String, String] :=
  .cons (.required "checked_exception" .string)
    (.cons (.required "safe_marker" .string) (.cons (.required "safe_call_helper" .string) .nil))

def decoder : Decoder Policy :=
  (fields.decoder "struct AnalyzerConfig").map fun (checked, marker, helper, _) =>
    ⟨checked, marker, helper⟩

end Policy

namespace Violation

def toJson (v : Violation) : Json :=
  .obj [("issue_id", .str v.issueId), ("severity", v.severity.toJson),
    ("category", v.category.toJson), ("message", .str v.message), ("file", .str v.file),
    ("line", .ofOption .ofUInt32 v.line), ("column", .ofOption .ofUInt32 v.column),
    ("callee", .str v.callee), ("problem_range", v.problemRange.toJson),
    ("statement_range", v.statementRange.toJson), ("fingerprint", .str v.fingerprint),
    ("suppressed", .bool v.suppressed), ("suppress_hint", .ofOption .str v.suppressHint),
    ("fix", v.fix.toJson)]

def fields :
    Fields [String, Severity, Category, String, String, Option UInt32, Option UInt32, String, TextRange,
      TextRange, String, Bool, Option String, Fix] :=
  .cons (.required "issue_id" .string)
    (.cons (.required "severity" Severity.decoder)
      (.cons (.required "category" Category.decoder)
        (.cons (.required "message" .string)
          (.cons (.required "file" .string)
            (.cons (.nullable "line" .uint32)
              (.cons (.nullable "column" .uint32)
                (.cons (.required "callee" .string)
                  (.cons (.required "problem_range" TextRange.decoder)
                    (.cons (.required "statement_range" TextRange.decoder)
                      (.cons (.required "fingerprint" .string)
                        (.cons (.required "suppressed" .bool)
                          (.cons (.nullable "suppress_hint" .string)
                            (.cons (.required "fix" Fix.decoder) .nil)))))))))))))

def decoder : Decoder Violation :=
  (fields.decoder "struct Violation").map
    fun (issueId, severity, category, message, file, line, column, callee, problemRange,
      statementRange, fingerprint, suppressed, suppressHint, fix, _) =>
    ⟨issueId, severity, category, message, file, line, column, callee, problemRange, statementRange,
      fingerprint, suppressed, suppressHint, fix⟩

end Violation

namespace AnalysisInfo

def toJson (i : AnalysisInfo) : Json :=
  .obj [("call_sites", .ofUInt32 i.callSites), ("checked_calls", .ofUInt32 i.checkedCalls),
    ("handled", .ofUInt32 i.handled), ("exempted", .ofUInt32 i.exempted),
    ("unresolved", .ofUInt32 i.unresolved), ("skipped_malformed", .ofUInt32 i.skippedMalformed),
    ("skipped_files", .ofUInt32 i.skippedFiles)]

def fields : Fields [UInt32, UInt32, UInt32, UInt32, UInt32, UInt32, UInt32] :=
  .cons (.required "call_sites" .uint32)
    (.cons (.required "checked_calls" .uint32)
      (.cons (.required "handled" .uint32)
        (.cons (.required "exempted" .uint32)
          (.cons (.required "unresolved" .uint32)
            (.cons (.required "skipped_malformed" .uint32)
              (.cons (.required "skipped_files" .uint32) .nil))))))

def decoder : Decoder AnalysisInfo :=
  (fields.decoder "struct AnalysisInfo").map
    fun (callSites, checkedCalls, handled, exempted, unresolved, malformed, files, _) =>
    ⟨callSites, checkedCalls, handled, exempted, unresolved, malformed, files⟩

end AnalysisInfo

namespace AnalysisResult

def toJson (r : AnalysisResult) : Json :=
  .obj [("version", .str r.version), ("command", .str r.command), ("status", .str r.status),
    ("files_analyzed", .strings r.filesAnalyzed),
    ("violations", .ofList Violation.toJson r.violations), ("info", r.info.toJson)]

def fields : Fields [String, String, String, List String, List Violation, AnalysisInfo] :=
  .cons (.required "version" .string)
    (.cons (.required "command" .string)
      (.cons (.required "status" .string)
        (.cons (.required "files_analyzed" (Decoder.list .string))
          (.cons (.required "violations" (Decoder.list Violation.decoder))
            (.cons (.required "info" AnalysisInfo.decoder) .nil)))))

def decoder : Decoder AnalysisResult :=
  (fields.decoder "struct AnalysisResult").map
    fun (version, command, status, files, violations, info, _) =>
    ⟨version, command, status, files, violations, info⟩

end AnalysisResult

end Uncaught
