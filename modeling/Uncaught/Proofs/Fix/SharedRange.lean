import Uncaught.Proofs.Fix.Insertion
import Uncaught.Proofs.Fix.Order

/-!
Groups whose replacements share one range. Their edits are made in three rounds: behind the range, on the
range, before it. The places of the rounds do not move each other, and if the range is empty, so that all
of them are one place, the order of the rounds keeps the texts apart.
-/

namespace Uncaught

open TextEdit (applyAll applyAll_append applyAll_map_insertion insertion reversedBytes)

namespace Replacement

variable {r : Replacement} {range place : TextRange} {target : Target}

theorem edit?_of_place? (hr : r.range = some range) (hplace : r.target.place? range = some place) :
    r.edit? = some ⟨place, r.replacement.getD ""⟩ := by
  rw [edit?, hr]
  change (r.target.place? range).bind _ = _
  rw [hplace]
  rfl

theorem appliesAt_of_place? (hr : r.range = some range) (hplace : target.place? range = some place) :
    r.appliesAt place.start target = decide (r.target = target) := by
  rw [Bool.eq_iff_iff, appliesAt_iff, decide_eq_true_eq]
  refine ⟨And.left, fun htarget => ⟨htarget, _, edit?_of_place? hr ?_, rfl⟩⟩
  rw [htarget, hplace]

end Replacement

namespace Fix

variable {fixes : List Fix} {range place : TextRange} {target : Target}

/-- The texts of the replacements with one target, in the order of the leaves. -/
def textsOf (target : Target) (fixes : List Fix) : List String :=
  ((replacementsOf fixes).filter (·.target = target)).map fun r => r.replacement.getD ""

theorem application_filter_target (hrange : ∀ r ∈ replacementsOf fixes, r.range = some range)
    (hplace : target.place? range = some place) :
    (application fixes).filter (·.target = target) =
      (replacementsOf fixes).filter (·.target = target) := by
  have happlies : ∀ r ∈ replacementsOf fixes,
      r.appliesAt place.start target = decide (r.target = target) :=
    fun r hr => Replacement.appliesAt_of_place? (hrange r hr) hplace
  calc (application fixes).filter (·.target = target)
      = (application fixes).filter (·.appliesAt place.start target) :=
        List.filter_congr fun r hr => (happlies r (mem_application.mp hr).1).symm
    _ = (replacementsOf fixes).filter (·.appliesAt place.start target) :=
        application_stable fixes place.start target
    _ = (replacementsOf fixes).filter (·.target = target) := List.filter_congr happlies

theorem start_of_edit? {r : Replacement} {e : TextEdit} (hr : r.range = some range)
    (he : r.edit? = some e) :
    e.range.start = if r.target = .ending then range.stop else range.start := by
  rcases Replacement.target_of_edit? he with htarget | htarget | htarget
  all_goals
    rw [Replacement.edit?_of_place? hr (by rw [htarget]; rfl), Option.some.injEq] at he
    rw [← he, htarget]
    rfl

/-- On one range the targets alone give the order: an edit behind a range that is not empty starts
later. -/
theorem application_pairwise_targets (hrange : ∀ r ∈ replacementsOf fixes, r.range = some range)
    (hle : range.start ≤ range.stop) :
    (application fixes).Pairwise fun r s => r.target = s.target ∨ r.target.Precedes s.target := by
  apply (pairwise_application fixes).imp_of_mem
  intro r s hr hs hbefore
  obtain ⟨hr, e, he⟩ := mem_application.mp hr
  obtain ⟨hs, f, hf⟩ := mem_application.mp hs
  obtain ⟨hstart, htarget⟩ := hbefore e f he hf
  have hestart := start_of_edit? (hrange r hr) he
  have hfstart := start_of_edit? (hrange s hs) hf
  by_cases hr : r.target = .ending
  · rcases Replacement.target_of_edit? hf with hs | hs | hs
    · exact Or.inl (hr.trans hs.symm)
    · exact Or.inr (by rw [hr, hs]; trivial)
    · exact Or.inr (by rw [hr, hs]; trivial)
  · apply htarget
    rw [if_neg hr] at hestart
    by_cases hs : s.target = .ending
    · rw [if_pos hs] at hfstart
      rw [hestart, hfstart] at hstart ⊢
      exact UInt32.le_antisymm hle hstart
    · rw [if_neg hs] at hfstart
      rw [hestart, hfstart]

theorem filterMap_edit?_of_target (hrange : ∀ r ∈ replacementsOf fixes, r.range = some range)
    (hplace : target.place? range = some place) :
    ((application fixes).filter (·.target = target)).filterMap Replacement.edit? =
      (textsOf target fixes).map fun text => ⟨place, text⟩ := by
  rw [application_filter_target hrange hplace, textsOf, List.map_map, ← List.filterMap_eq_map]
  apply List.filterMap_congr
  intro r hr
  obtain ⟨hr, htarget⟩ := List.mem_filter.mp hr
  rw [decide_eq_true_eq] at htarget
  exact Replacement.edit?_of_place? (hrange r hr) (htarget ▸ hplace)

theorem edits_eq_rounds (hrange : ∀ r ∈ replacementsOf fixes, r.range = some range)
    (hle : range.start ≤ range.stop) :
    edits fixes = (textsOf .ending fixes).map (insertion range.stop) ++
      (textsOf .all fixes).map (fun text => ⟨range, text⟩) ++
      (textsOf .beginning fixes).map (insertion range.start) := by
  have hsorted := application_pairwise_targets hrange hle
  rw [edits_eq_filterMap, Replacement.eq_append_of_targets hsorted fun r hr => (mem_application.mp hr).2,
    List.filterMap_append, List.filterMap_append, filterMap_edit?_of_target hrange rfl,
    filterMap_edit?_of_target hrange rfl, filterMap_edit?_of_target hrange rfl]
  rfl

/-- A text for the whole range, if there is one, takes the place of what stands there. -/
theorem applyAll_whole {front middle : List UInt8} (hstart : front.length = range.start.toNat)
    (hstop : (front ++ middle).length = range.stop.toNat) (back : List UInt8) {texts : List String}
    (hone : texts.length ≤ 1) :
    applyAll (texts.map fun text => ⟨range, text⟩) (front ++ middle ++ back) =
      front ++ texts.head?.elim middle (fun text => text.toUTF8.toList) ++ back := by
  match texts, hone with
  | [], _ => rfl
  | [text], _ =>
      change TextEdit.apply ⟨range, text⟩ (front ++ middle ++ back) =
        front ++ text.toUTF8.toList ++ back
      rw [TextEdit.apply, ← hstop, List.drop_left, ← hstart, List.append_assoc front middle back,
        List.take_left]

theorem applyAll_edits_of_range {bytes : List UInt8}
    (hrange : ∀ r ∈ replacementsOf fixes, r.range = some range)
    (hone : (textsOf .all fixes).length ≤ 1) (hle : range.start ≤ range.stop)
    (hstop : range.stop.toNat ≤ bytes.length) :
    applyAll (edits fixes) bytes =
      bytes.take range.start.toNat ++ reversedBytes (textsOf .beginning fixes) ++
        (textsOf .all fixes).head?.elim
          ((bytes.drop range.start.toNat).take (range.stop.toNat - range.start.toNat))
          (fun text => text.toUTF8.toList) ++
        reversedBytes (textsOf .ending fixes) ++ bytes.drop range.stop.toNat := by
  have hnat := UInt32.le_iff_toNat_le.mp hle
  generalize hfront : bytes.take range.start.toNat = front
  generalize hmiddle : (bytes.drop range.start.toNat).take (range.stop.toNat - range.start.toNat) = middle
  generalize hback : bytes.drop range.stop.toNat = back
  have hstartLength : front.length = range.start.toNat := by
    rw [← hfront, List.length_take]
    omega
  have hstopLength : (front ++ middle).length = range.stop.toNat := by
    rw [← hfront, ← hmiddle]
    simp only [List.length_append, List.length_take, List.length_drop]
    omega
  have hbytes : bytes = front ++ middle ++ back := by
    rw [← hfront, ← hmiddle, ← hback, ← List.take_add, Nat.add_sub_cancel' hnat,
      List.take_append_drop]
  rw [hbytes, edits_eq_rounds hrange hle, applyAll_append, applyAll_append,
    applyAll_map_insertion _ _ hstopLength, List.append_assoc (front ++ middle),
    applyAll_whole hstartLength hstopLength _ hone, List.append_assoc front,
    applyAll_map_insertion _ _ hstartLength]
  simp only [List.append_assoc]

/-- **Edits on one range.** If all replacements of a group have one range and at most one of them is for
the whole of it, the edits turn a text around the range into the same text with the texts for its
beginning before it and those for its end behind it, each in the reverse order of the leaves, and the
text for the whole, if there is one, in its place. -/
theorem sharedRange_edits_apply (fixes : List Fix) (range : TextRange) (bytes : List UInt8)
    (hrange : bracketedRange? fixes = some range) (hone : (textsOf .all fixes).length ≤ 1)
    (hle : range.start ≤ range.stop) (hstop : range.stop.toNat ≤ bytes.length) :
    applyAll (edits fixes) bytes =
      bytes.take range.start.toNat ++ reversedBytes (textsOf .beginning fixes) ++
        (textsOf .all fixes).head?.elim
          ((bytes.drop range.start.toNat).take (range.stop.toNat - range.start.toNat))
          (fun text => text.toUTF8.toList) ++
        reversedBytes (textsOf .ending fixes) ++ bytes.drop range.stop.toNat :=
  applyAll_edits_of_range ((bracketedRange?_eq_some_iff fixes range).mp hrange).2 hone hle hstop

/-- Texts of every kind on one range, in groups. -/
def mixedGroup (range : TextRange) : List Fix :=
  let on (target : Target) (text : String) : Fix :=
    .replace { Replacement.ofTarget target with replacement := some text, range := some range }
  [.composite none none [on .beginning "<", on (.text "b") "B"], on .all "X",
    .alternatives none none [on .ending ">", on .beginning "\x7b"], on .ending "\x7d"]

/-- On a range with two bytes and on an empty one. -/
theorem sharedRange_edits_apply_mixedGroup :
    applyAll (edits (mixedGroup ⟨1, 3⟩)) "abcd".toUTF8.toList = "a\x7b<X\x7d>d".toUTF8.toList ∧
    applyAll (edits (mixedGroup ⟨2, 2⟩)) "abcd".toUTF8.toList = "ab\x7b<X\x7d>cd".toUTF8.toList := by
  constructor
  · rw [sharedRange_edits_apply (mixedGroup ⟨1, 3⟩) ⟨1, 3⟩ _ (by decide) (by decide) (by decide)
      (by decide +kernel)]
    decide +kernel
  · rw [sharedRange_edits_apply (mixedGroup ⟨2, 2⟩) ⟨2, 2⟩ _ (by decide) (by decide) (by decide)
      (by decide +kernel)]
    decide +kernel

end Fix

end Uncaught
