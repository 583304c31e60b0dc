import Uncaught.Proofs.Fix.SharedRange
import Uncaught.Proofs.Report.PerCall

/-!
What the offered fixes do to a text. Either puts one text before the statement and another behind it.
The edit behind the statement comes first, so that it does not move the place before it; if the
statement is empty, both places are one, and the order alone keeps the two texts apart.
-/

namespace Uncaught

namespace Fix

/-- A fix is a group on one range whose edits, applied to a text around the range, put one text before
the range and another behind it. -/
def Wraps (fix : Fix) (range : TextRange) (before after : String) : Prop :=
  ∃ name family fixes, fix = .composite name family fixes ∧ bracketedRange? fixes = some range ∧
    ∀ bytes : List UInt8, range.start ≤ range.stop → range.stop.toNat ≤ bytes.length →
      TextEdit.applyAll (edits fixes) bytes =
        bytes.take range.start.toNat ++ before.toUTF8.toList ++
          (bytes.drop range.start.toNat).take (range.stop.toNat - range.start.toNat) ++
          after.toUTF8.toList ++ bytes.drop range.stop.toNat

/-- A wrapper is a group on one range, with a text for its beginning and one for its end. -/
theorem wraps_wrapper (name before after : String) (range : TextRange) :
    (wrapper name before after range).Wraps range before after := by
  refine ⟨some name, none, _, rfl, ?_, fun bytes hrange hstop => ?_⟩
  · simp [bracketedRange?]
  · have hranges : ∀ r ∈ replacements (wrapper name before after range), r.range = some range := by
      simp [wrapper]
    rw [applyAll_edits_of_range hranges (Nat.zero_le 1) hrange hstop]
    simp [textsOf, Replacement.ofTarget]

end Fix

namespace Analyzer

variable {a : Analyzer} {t : SyntaxTree} {v : Violation}

/-- **The offered fixes wrap the statement.** Whatever is reported, in a tree or on its own, comes with
two groups to choose from, and the edits of either, applied one after another, turn any text that the
statement lies in into the same text with the statement wrapped. -/
theorem offered_fixes_wrap
    (hv : v ∈ (a.analyzeTree t).violations ∨ ∃ source id, a.analyzeCall t source id = some v) :
    ∃ first second, v.fix.choices = [first, second] ∧
      first.Wraps v.statementRange "try \x7b"
        ("\x7d catch(e: " ++ a.policy.checkedException ++ ")\x7bkotlin.TODO()\x7d") ∧
      second.Wraps v.statementRange (a.policy.safeCallHelper ++ " \x7b") "\x7d" := by
  have hfix : v.fix = .offered a.policy v.statementRange := by
    rcases hv with hv | ⟨source, id, hcall⟩
    · obtain ⟨id, hcall⟩ := exists_analyzeCall_of_mem_analyzeTree hv
      exact fix_eq_offered hcall
    · exact fix_eq_offered hcall
  rw [hfix]
  exact ⟨_, _, rfl, Fix.wraps_wrapper _ _ _ _, Fix.wraps_wrapper _ _ _ _⟩

/-- The inner call of `nestedCall`, as it is reported with the tree and on its own. -/
theorem offered_fixes_wrap_nestedCall :
    let a := Analyzer.new (.ofNames "Checked" "Safe")
    let v := Violation.ofCall a.policy "Main.kt" none ⟨"open", some ⟨0⟩, ⟨40, 44⟩, ⟨40, 50⟩⟩
    v ∈ (a.analyzeTree .nestedCall).violations ∧ a.analyzeCall .nestedCall none ⟨4⟩ = some v ∧
      ∃ first second, v.fix.choices = [first, second] ∧
        first.Wraps ⟨40, 50⟩ "try \x7b" ("\x7d catch(e: " ++ "Checked" ++ ")\x7bkotlin.TODO()\x7d") ∧
        second.Wraps ⟨40, 50⟩ ("callSafely" ++ " \x7b") "\x7d" := by
  intro a v
  have hviolations : (a.analyzeTree .nestedCall).violations = [v] := rfl
  have hv : v ∈ (a.analyzeTree .nestedCall).violations := hviolations ▸ List.mem_cons_self
  have hwrap := offered_fixes_wrap (Or.inl hv)
  exact ⟨hv, rfl, hwrap⟩

end Analyzer

end Uncaught
