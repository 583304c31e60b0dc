import Uncaught.Fix.Codec
import Uncaught.Fix.Offer
import Uncaught.Proofs.Tree.RoundTrip

/-!
Fixes survive being written and read, as long as they do not nest too deep for a text. The reader of
fixes counts levels of fixes, and the written form has at least one level more for each of them, so its
count does not run out before the room does.
-/

namespace Uncaught

open Json (Decoder)
open Json.Decoder (recovers_string recovers_bool recovers_option recovers_list)

namespace Json

mutual

@[simp] theorem depth_document : ∀ j : Json, j.document.depth = j.depth
  | .null => rfl
  | .bool _ => rfl
  | .num _ => rfl
  | .str _ => rfl
  | .arr items => by rw [document, Document.depth, depth, itemsDepth_itemDocuments items]
  | .obj members => by rw [document, Document.depth, depth, membersDepth_memberDocuments members]

@[simp] theorem itemsDepth_itemDocuments : ∀ items : List Json,
    Document.itemsDepth (itemDocuments items) = itemsDepth items
  | [] => rfl
  | v :: vs => by
      rw [itemDocuments, Document.itemsDepth, itemsDepth, depth_document v,
        itemsDepth_itemDocuments vs]

@[simp] theorem membersDepth_memberDocuments : ∀ members : List (String × Json),
    Document.membersDepth (memberDocuments members) = membersDepth members
  | [] => rfl
  | (_, v) :: ms => by
      rw [memberDocuments, Document.membersDepth, membersDepth, depth_document v,
        membersDepth_memberDocuments ms]

end

@[simp] theorem membersDepth_append (ms ns : List (String × Json)) :
    membersDepth (ms ++ ns) = max (membersDepth ms) (membersDepth ns) := by
  induction ms with
  | nil => rw [List.nil_append, membersDepth, Nat.zero_max]
  | cons m ms ih => rw [List.cons_append, membersDepth, membersDepth, ih, Nat.max_assoc]

theorem depth_le_itemsDepth {items : List Json} {j : Json} (hj : j ∈ items) :
    j.depth ≤ itemsDepth items := by
  induction items with
  | nil => cases hj
  | cons v vs ih =>
      rw [itemsDepth]
      rcases List.mem_cons.mp hj with rfl | hmem
      · exact Nat.le_max_left _ _
      · exact Nat.le_trans (ih hmem) (Nat.le_max_right _ _)

@[simp] theorem depth_tagged (tag name : String) (members : List (String × Json)) :
    (obj ((tag, .str name) :: members)).depth = 1 + membersDepth members := by
  simp only [depth, membersDepth, Nat.zero_max]

theorem stringMember_eq (key : String) (text? : Option String) :
    stringMember key text? = text?.toList.map fun text => (key, .str text) := by
  cases text? <;> rfl

@[simp] theorem membersDepth_stringMember (key : String) (text? : Option String) :
    membersDepth (stringMember key text?) = 0 := by
  cases text? <;> rfl

end Json

variable (levels : Nat)

theorem Target.recovers (t : Target) : decoder.Recovers (levels + 1) t.toJson t := by
  cases t with
  | all | beginning | ending => exact Json.recovers_adjacent_bare _ rfl rfl levels
  | text s | pattern s | select s =>
      exact Json.recovers_adjacent _ rfl (by decide) ((recovers_string levels s).map _)

theorem FixOptions.recovers (o : FixOptions) : decoder.Recovers (levels + 1) o.toJson o :=
  (Json.Fields.Written.recovers
    (.member (recovers_bool levels o.shortenNames)
      (.member (recovers_bool levels o.reformat)
        (.member (recovers_bool levels o.robot) (.member (recovers_bool levels o.independent) .nil))))
    (by decide) _).map _

theorem Replacement.recovers (r : Replacement) :
    decoder.Recovers (levels + 2) (.obj r.toMembers) r := by
  have hwritten : fields.Written (levels + 1)
      (r.name, r.family, r.target, r.replacement, r.range, r.options, ()) _ :=
    .optional "name" (recovers_string _) nofun r.name
      (.optional "family" (recovers_string _) nofun r.family
        (.member (Target.recovers levels r.target)
          (.member (recovers_option (recovers_string _) nofun r.replacement)
            (.member (recovers_option (TextRange.recovers levels) nofun r.range)
              (.member (FixOptions.recovers levels r.options) .nil)))))
  rw [toMembers, Json.stringMember_eq, Json.stringMember_eq, List.append_assoc]
  exact (hwritten.recovers (by decide) _).map _

namespace Fix

variable {levels}

@[simp] theorem listToJson_eq (fixes : List Fix) : listToJson fixes = fixes.map toJson := by
  induction fixes with
  | nil => rfl
  | cons fix fixes ih => rw [listToJson, ih, List.map_cons]

@[simp] theorem membersDepth_groupMembers (name family : Option String) (fixes : List Json) :
    Json.membersDepth (groupMembers name family fixes) = 1 + Json.itemsDepth fixes := by
  simp [groupMembers, Json.membersDepth, Json.depth]

@[simp] theorem depth_replace (r : Replacement) : (replace r).toJson.depth = 2 := by
  have htarget : r.target.toJson.depth = 1 := by cases r.target <;> rfl
  have hreplacement : (Json.ofOption .str r.replacement).depth = 0 := by cases r.replacement <;> rfl
  have hrange : (Json.ofOption TextRange.toJson r.range).depth ≤ 1 := by
    cases r.range with
    | none => exact Nat.zero_le 1
    | some range => exact Nat.le_refl 1
  have hoptions : r.options.toJson.depth = 1 := rfl
  simp only [toJson, Json.depth_tagged, Replacement.toMembers, Json.membersDepth_append,
    Json.membersDepth_stringMember, Json.membersDepth, htarget, hreplacement, hoptions]
  omega

theorem two_le_depth (fix : Fix) : 2 ≤ fix.toJson.depth := by
  cases fix with
  | replace r => exact Nat.le_of_eq (depth_replace r).symm
  | composite name family fixes | alternatives name family fixes =>
      rw [toJson, Json.depth_tagged, membersDepth_groupMembers]
      omega

@[simp] theorem depth_wrapper (name before after : String) (range : TextRange) :
    (wrapper name before after range).toJson.depth = 4 := by
  rw [wrapper, toJson]
  simp [Json.itemsDepth]

/-- The fixes that are offered all have one shape. -/
theorem depth_offered (policy : Policy) (statement : TextRange) :
    (offered policy statement).toJson.depth = 6 := by
  rw [offered, toJson]
  simp [Json.itemsDepth]

theorem type_notMem_replacement (r : Replacement) : "type" ∉ r.toMembers.map Prod.fst := by
  simp [Replacement.toMembers, Json.stringMember_eq]

theorem type_notMem_group (name family : Option String) (fixes : List Json) :
    "type" ∉ (groupMembers name family fixes).map Prod.fst := by
  simp [groupMembers, Json.stringMember_eq]

theorem names_groupFields (child : Decoder Fix) :
    (groupFields child).names = ["name", "family", "fixes"] := rfl

theorem group_recovers {child : Decoder Fix} (name family : Option String) {fixes : List Fix}
    (hchild : ∀ fix ∈ fixes, child.Recovers levels fix.toJson fix) :
    ((groupFields child).decoder "struct FixGroup").Recovers (levels + 2)
      (.obj (groupMembers name family (listToJson fixes))) (name, family, fixes, ()) := by
  have hwritten : (groupFields child).Written (levels + 1) (name, family, fixes, ()) _ :=
    .optional "name" (recovers_string _) nofun name
      (.optional "family" (recovers_string _) nofun family (.member (recovers_list hchild) .nil))
  rw [groupMembers, listToJson_eq, Json.stringMember_eq, Json.stringMember_eq, List.append_assoc]
  exact hwritten.recovers (names_groupFields child ▸ by decide) _

/-- The reader with a count above the depth of the written form reads it. -/
theorem nestedDecoder_recovers (count : Nat) : ∀ (fix : Fix) (levels : Nat),
    fix.toJson.depth < count → fix.toJson.depth ≤ levels →
      (nestedDecoder count).Recovers levels fix.toJson fix := by
  induction count with
  | zero => intro fix levels hcount; omega
  | succ count ih =>
      -- A group is written two levels above its children, so both bounds pass on to them.
      have hchildren : ∀ {name family fixes levels},
          1 + (1 + Json.itemsDepth (listToJson fixes)) < count + 1 →
          1 + (1 + Json.itemsDepth (listToJson fixes)) ≤ levels + 2 →
          ((groupFields (nestedDecoder count)).decoder "struct FixGroup").Recovers (levels + 2)
            (.obj (groupMembers name family (listToJson fixes))) (name, family, fixes, ()) := by
        intro name family fixes levels hcount hdepth
        apply group_recovers
        intro fix hfix
        have hle := Json.depth_le_itemsDepth (listToJson_eq fixes ▸ List.mem_map_of_mem hfix)
        exact ih fix levels (by omega) (by omega)
      intro fix levels hcount hdepth
      have htwo := two_le_depth fix
      obtain ⟨levels, rfl⟩ : ∃ below, levels = below + 2 := ⟨levels - 2, by omega⟩
      cases fix with
      | replace r =>
          exact Json.recovers_tagged _ rfl (type_notMem_replacement r)
            ((Replacement.recovers levels r).map _)
      | composite name family fixes | alternatives name family fixes =>
          rw [toJson, Json.depth_tagged, membersDepth_groupMembers] at hcount hdepth
          exact Json.recovers_tagged _ rfl (type_notMem_group name family _)
            ((hchildren hcount hdepth).map _)

theorem recovers (fix : Fix) (hdepth : fix.toJson.depth ≤ levels) :
    decoder.Recovers levels fix.toJson fix := by
  have hnested := nestedDecoder_recovers _ fix levels (Nat.lt_succ_self _) hdepth
  refine ⟨fun o ho => ?_, hdepth, hnested.exact⟩
  rw [decoder, Json.depth_document]
  exact hnested.decode o ho

end Fix

end Uncaught
