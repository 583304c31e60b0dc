import Uncaught.Proofs.Fix.RoundTrip

/-!
How deep fixes may nest. Every level of fixes is written as two levels of the text: a group as an object
with a list in it, a replacement as an object with objects in it. A fix whose text nests more levels
than a reader allows can still be written, but not read. Nothing else gets in the way of reading it:
its members are held back before any of them is decoded, and the limit is noticed there.
-/

namespace Uncaught.Fix

open Json (Decoder nestingLimit)

mutual

/-- How many levels of fixes a fix has. -/
def height : Fix → Nat
  | .replace _ => 1
  | .composite _ _ fixes => 1 + heightOf fixes
  | .alternatives _ _ fixes => 1 + heightOf fixes

def heightOf : List Fix → Nat
  | [] => 0
  | fix :: fixes => max (height fix) (heightOf fixes)

end

mutual

theorem depth_toJson : ∀ fix : Fix, fix.toJson.depth = 2 * fix.height
  | .replace r => by rw [depth_replace, height]
  | .composite name family fixes => by
      rw [toJson, Json.depth_tagged, membersDepth_groupMembers, itemsDepth_listToJson fixes, height]
      omega
  | .alternatives name family fixes => by
      rw [toJson, Json.depth_tagged, membersDepth_groupMembers, itemsDepth_listToJson fixes, height]
      omega

theorem itemsDepth_listToJson : ∀ fixes : List Fix,
    Json.itemsDepth (listToJson fixes) = 2 * heightOf fixes
  | [] => rfl
  | fix :: fixes => by
      rw [listToJson, Json.itemsDepth, depth_toJson fix, itemsDepth_listToJson fixes, heightOf]
      omega

end

theorem toJson_exact (fix : Fix) : fix.toJson.Exact := (fix.recovers (Nat.le_refl _)).exact

/-- A fix that nests too deep for the room is refused for that. -/
theorem decoder_tooDeep (fix : Fix) {room : Nat} (hdeep : room < fix.toJson.depth) :
    decoder (.text room) fix.toJson.document = .error (.malformed .tooDeep) := by
  have hexact := fix.toJson_exact
  rw [decoder]
  cases fix with
  | replace r =>
      obtain ⟨-, hmembers⟩ := hexact
      exact Json.tagged_tooDeep _ rfl (type_notMem_replacement r) hmembers hdeep
  | composite name family fixes | alternatives name family fixes =>
      obtain ⟨-, hmembers⟩ := hexact
      exact Json.tagged_tooDeep _ rfl (type_notMem_group name family _) hmembers hdeep

theorem decodeText_eq (fix : Fix) {text : String}
    (htext : text = fix.toJson.compact ∨ text = fix.toJson.pretty) :
    decoder.decodeText text =
      if fix.toJson.depth ≤ nestingLimit then .ok fix else .error (.malformed .tooDeep) := by
  by_cases hdepth : fix.toJson.depth ≤ nestingLimit
  · rw [if_pos hdepth]
    exact (fix.recovers hdepth).decodeText_eq (Nat.le_refl _) htext
  · rw [if_neg hdepth, Decoder.decodeText_written decoder htext]
    exact fix.decoder_tooDeep (Nat.lt_of_not_le hdepth)

/-- **A fix survives being written and read exactly if its text nests at most 127 levels**, in either
layout; otherwise it is refused for its depth. That is, fixes may stand in each other 63 deep. -/
theorem decodeText_toJson (fix : Fix) :
    decoder.decodeText fix.toJson.compact =
      (if fix.toJson.depth ≤ 127 then .ok fix else .error (.malformed .tooDeep)) ∧
    decoder.decodeText fix.toJson.pretty =
      (if fix.toJson.depth ≤ 127 then .ok fix else .error (.malformed .tooDeep)) ∧
    (fix.toJson.depth ≤ 127 ↔ fix.height ≤ 63) := by
  refine ⟨fix.decodeText_eq (Or.inl rfl), fix.decodeText_eq (Or.inr rfl), ?_⟩
  rw [depth_toJson]
  omega

/-- Empty groups, one in the other. -/
def nested : Nat → Fix
  | 0 => .composite none none []
  | levels + 1 => .composite none none [nested levels]

theorem height_nested (levels : Nat) : (nested levels).height = levels + 1 := by
  induction levels with
  | zero => rfl
  | succ levels ih =>
      rw [nested, height, heightOf, heightOf, ih]
      omega

/-- The 63rd level is read, the 64th is not. -/
theorem decodeText_toJson_nested :
    decoder.decodeText (nested 62).toJson.compact = .ok (nested 62) ∧
    decoder.decodeText (nested 63).toJson.compact = .error (.malformed .tooDeep) := by
  obtain ⟨hread, -, hfits⟩ := decodeText_toJson (nested 62)
  obtain ⟨hrefused, -, hdeep⟩ := decodeText_toJson (nested 63)
  have hlow : (nested 62).toJson.depth ≤ 127 := hfits.mpr (Nat.le_of_eq (height_nested 62))
  have hhigh : ¬(nested 63).toJson.depth ≤ 127 := fun h => by
    have hheight := hdeep.mp h
    rw [height_nested] at hheight
    omega
  exact ⟨hread.trans (if_pos hlow), hrefused.trans (if_neg hhigh)⟩

end Uncaught.Fix
