import Uncaught.Fingerprint.Basic
import Uncaught.Proofs.Fingerprint.Digits
import Uncaught.Proofs.Report.PerCall

/-!
Fingerprints collide only where the hash does. What is hashed joins the issue, the file, the callee and
the range by zero characters; if no name holds one, splitting there gives the parts back, and splitting
the text of a range at its dots gives the two bounds back. The text of a word determines the word, so that
equal fingerprints are equal hashes.
-/

namespace Uncaught

theorem not_mem_toDigits_ten {c : Char} (hc : c.isDigit = false) (n : Nat) :
    c ∉ Nat.toDigits 10 n := by
  intro hmem
  rw [Nat.isDigit_of_mem_toDigits (by decide) (by decide) hmem] at hc
  cases hc

namespace TextRange

theorem toList_toText (r : TextRange) : r.toText.toList =
    ['.'].intercalate [Nat.toDigits 10 r.start.toNat, [], Nat.toDigits 10 r.stop.toNat] := by
  simp [toText, List.intercalate, Nat.toString_eq_repr, Nat.toList_repr]

theorem splitOn_toText (r : TextRange) : r.toText.toList.splitOn '.' =
    [Nat.toDigits 10 r.start.toNat, [], Nat.toDigits 10 r.stop.toNat] := by
  rw [toList_toText, List.splitOn_intercalate '.' _ (List.cons_ne_nil _ _)]
  simp [not_mem_toDigits_ten (c := '.') rfl]

theorem toDigits_ten_inj {m n : UInt32}
    (heq : Nat.toDigits 10 m.toNat = Nat.toDigits 10 n.toNat) : m = n := by
  apply UInt32.toNat_inj.mp
  calc m.toNat
      = Nat.ofDigitChars 10 (Nat.toDigits 10 m.toNat) 0 := Nat.ofDigitChars_ten_toDigits.symm
    _ = Nat.ofDigitChars 10 (Nat.toDigits 10 n.toNat) 0 := by rw [heq]
    _ = n.toNat := Nat.ofDigitChars_ten_toDigits

theorem toText_injective : Function.Injective toText := by
  intro r s heq
  have hsplit : r.toText.toList.splitOn '.' = s.toText.toList.splitOn '.' := by rw [heq]
  simp only [splitOn_toText, List.cons.injEq] at hsplit
  obtain ⟨hstart, -, hstop, -⟩ := hsplit
  cases r
  cases s
  exact congrArg₂ mk (toDigits_ten_inj hstart) (toDigits_ten_inj hstop)

theorem zero_not_mem_toText (r : TextRange) : '\x00' ∉ r.toText.toList := by
  rw [toList_toText]
  simp [List.intercalate, not_mem_toDigits_ten (c := '\x00') rfl]

end TextRange

namespace Fingerprint

/-- What a fingerprint stands for. -/
structure Subject where
  issue : String
  file : String
  callee : String
  range : TextRange
  deriving DecidableEq

namespace Subject

/-- The bytes that are hashed. -/
def bytes (s : Subject) : ByteArray := (key s.issue s.file s.callee s.range).toUTF8

/-- The fingerprint under a hash function. -/
def fingerprint (hash : ByteArray → UInt64) (s : Subject) : String :=
  ofHash hash s.issue s.file s.callee s.range

/-- None of the names holds a zero character. -/
structure ZeroFree (s : Subject) : Prop where
  issue : '\x00' ∉ s.issue.toList
  file : '\x00' ∉ s.file.toList
  callee : '\x00' ∉ s.callee.toList

variable {s s' : Subject}

theorem ZeroFree.splitOn_key (hs : s.ZeroFree) :
    (key s.issue s.file s.callee s.range).toList.splitOn '\x00' =
      [s.issue.toList, s.file.toList, s.callee.toList, s.range.toText.toList] := by
  rw [key, String.toList_intercalate]
  refine List.splitOn_intercalate '\x00' ?_ (List.cons_ne_nil _ _)
  simp [hs.issue, hs.file, hs.callee, s.range.zero_not_mem_toText]

theorem bytes_injOn : Set.InjOn bytes {s | s.ZeroFree} := by
  intro s hs s' hs' heq
  have hkey : key s.issue s.file s.callee s.range = key s'.issue s'.file s'.callee s'.range :=
    String.toByteArray_inj.mp heq
  have hparts := hs.splitOn_key
  rw [hkey, ZeroFree.splitOn_key hs'] at hparts
  simp only [List.cons.injEq, String.toList_inj, and_true] at hparts
  obtain ⟨hissue, hfile, hcallee, hrange⟩ := hparts
  cases s
  cases s'
  exact (mk.injEq ..).mpr ⟨hissue.symm, hfile.symm, hcallee.symm,
    (TextRange.toText_injective hrange).symm⟩

theorem fingerprint_eq_iff (hash : ByteArray → UInt64) (s s' : Subject) :
    s.fingerprint hash = s'.fingerprint hash ↔ hash s.bytes = hash s'.bytes :=
  Base62.encode_injective.eq_iff

end Subject

end Fingerprint

namespace Violation

open Fingerprint

/-- The violation is what an analyzer gives for a call, be it asked for the call alone or for all calls of
a list of trees. -/
def Reported (v : Violation) : Prop :=
  ∃ (a : Analyzer) (t : SyntaxTree) (source : Option String) (id : NodeId),
    a.report? (t.verdict a.policy source id) = some v

/-- What the fingerprint of the violation stands for. -/
def subject (v : Violation) : Subject := ⟨v.issueId, v.file, v.callee, v.statementRange⟩

variable {v w : Violation}

theorem Reported.of_analyzeCall {a : Analyzer} {t : SyntaxTree} {source : Option String} {id : NodeId}
    (hcall : a.analyzeCall t source id = some v) : v.Reported :=
  ⟨a, t, source, id, Analyzer.report?_eq_some_iff.mpr (Analyzer.analyzeCall_eq_some_iff.mp hcall).2⟩

theorem Reported.exists_ofCall (hv : v.Reported) :
    ∃ (a : Analyzer) (t : SyntaxTree) (source : Option String) (c : Call),
      v = a.suppressions.apply (.ofCall a.policy t.file source c) := by
  obtain ⟨a, t, source, id, hreport⟩ := hv
  obtain ⟨w, hverdict, rfl⟩ := Analyzer.report?_eq_some_iff.mp hreport
  obtain ⟨c, -, -, -, -, -, -, rfl⟩ := (SyntaxTree.verdict_eq_violation_iff _ _).mp hverdict
  exact ⟨a, t, source, c, rfl⟩

theorem Reported.issueId_eq (hv : v.Reported) : v.issueId = "CheckedExceptionNotCaught" := by
  obtain ⟨a, t, source, c, rfl⟩ := hv.exists_ofCall
  rw [Suppressions.apply]
  split <;> rfl

theorem Reported.fingerprint_eq (hv : v.Reported) :
    v.fingerprint = v.subject.fingerprint Xxh64.hash := by
  obtain ⟨a, t, source, c, rfl⟩ := hv.exists_ofCall
  rw [Suppressions.apply]
  split <;> rfl

theorem Reported.zeroFree (hv : v.Reported) (hfile : '\x00' ∉ v.file.toList)
    (hcallee : '\x00' ∉ v.callee.toList) : v.subject.ZeroFree := by
  refine ⟨?_, hfile, hcallee⟩
  show '\x00' ∉ v.issueId.toList
  rw [hv.issueId_eq]
  decide

theorem subject_bytes_eq_iff (hv : v.Reported) (hw : w.Reported) (hvs : v.subject.ZeroFree)
    (hws : w.subject.ZeroFree) : v.subject.bytes = w.subject.bytes ↔
      v.file = w.file ∧ v.callee = w.callee ∧ v.statementRange = w.statementRange := by
  rw [Subject.bytes_injOn.eq_iff hvs hws, subject, subject, Subject.mk.injEq, hv.issueId_eq,
    hw.issueId_eq]
  exact and_iff_right rfl

end Violation

namespace Fingerprint

/-- **Fingerprints collide only where the hash does**, whatever the hash function is. On names without
zero characters the bytes that are hashed determine the issue, the file, the callee and the range, and
fingerprints are equal exactly if the hashes of these bytes are. So two reported violations that differ
in file, callee or statement have equal fingerprints only if their bytes are different and have one
hash. -/
theorem equal_only_if_hash_collides (hash : ByteArray → UInt64) :
    Set.InjOn Subject.bytes {s | s.ZeroFree} ∧
    (∀ s s' : Subject, s.fingerprint hash = s'.fingerprint hash ↔ hash s.bytes = hash s'.bytes) ∧
    (∀ v : Violation, v.Reported → v.fingerprint = v.subject.fingerprint Xxh64.hash) ∧
    ∀ v w : Violation, v.Reported → w.Reported →
      '\x00' ∉ v.file.toList → '\x00' ∉ v.callee.toList →
      '\x00' ∉ w.file.toList → '\x00' ∉ w.callee.toList →
      v.file ≠ w.file ∨ v.callee ≠ w.callee ∨ v.statementRange ≠ w.statementRange →
      v.subject.bytes ≠ w.subject.bytes ∧
        (v.subject.fingerprint hash = w.subject.fingerprint hash →
          hash v.subject.bytes = hash w.subject.bytes) := by
  refine ⟨Subject.bytes_injOn, Subject.fingerprint_eq_iff hash, fun v => Violation.Reported.fingerprint_eq,
    fun v w hv hw hvfile hvcallee hwfile hwcallee hdiffer => ⟨fun heq => ?_,
      (Subject.fingerprint_eq_iff hash _ _).mp⟩⟩
  obtain ⟨hfile, hcallee, hrange⟩ := (Violation.subject_bytes_eq_iff hv hw
    (hv.zeroFree hvfile hvcallee) (hw.zeroFree hwfile hwcallee)).mp heq
  rcases hdiffer with h | h | h
  · exact h hfile
  · exact h hcallee
  · exact h hrange

/-- The tree of `nestedCall` in a file with another name of the same length. -/
def renamedCall : SyntaxTree := { SyntaxTree.nestedCall with file := "Test.kt" }

/-- The length of the bytes is a hash with many collisions: it gives the call in `nestedCall` and that in
`renamedCall` one fingerprint, although their bytes are different. -/
theorem equal_only_if_hash_collides_renamedCall :
    ∃ v w : Violation, v.Reported ∧ w.Reported ∧ v.file = "Main.kt" ∧ w.file = "Test.kt" ∧
      v.subject.bytes ≠ w.subject.bytes ∧
      v.subject.fingerprint (fun bytes => bytes.size.toUInt64) =
        w.subject.fingerprint (fun bytes => bytes.size.toUInt64) := by
  let a := Analyzer.new (.ofNames "Checked" "Safe")
  have hcall : a.analyzeCall .nestedCall none ⟨4⟩ = some _ := rfl
  have hrenamed : a.analyzeCall renamedCall none ⟨4⟩ = some _ := rfl
  have hv := Violation.Reported.of_analyzeCall hcall
  have hw := Violation.Reported.of_analyzeCall hrenamed
  obtain ⟨-, hequal, -, hdiffer⟩ := equal_only_if_hash_collides fun bytes => bytes.size.toUInt64
  obtain ⟨hbytes, -⟩ := hdiffer _ _ hv hw (by decide) (by decide) (by decide) (by decide)
    (Or.inl (by decide))
  exact ⟨_, _, hv, hw, rfl, rfl, hbytes, (hequal _ _).mpr (by decide +kernel)⟩

end Fingerprint

end Uncaught
