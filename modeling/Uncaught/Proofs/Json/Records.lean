import Uncaught.Proofs.Json.Recovery

/-!
Records and alternatives survive being written and read. A record is written with its members in the
order of its fields, and a member may be left out where its absence means the same; an alternative
carries its name in front. The fields of one record have different names, so each member finds its
field and none is met twice.
-/

namespace Uncaught.Json

namespace Fields

def names : {ts : List Type} → Fields ts → List String
  | _, .nil => []
  | _, .cons field fields => field.name :: fields.names

/-- The members write the values of the fields, in their order. -/
inductive Written (levels : Nat) :
    {ts : List Type} → Fields ts → Values ts → List (String × Json) → Prop
  | nil : Written levels .nil () []
  | member {α : Type} {ts : List Type} {field : Field α} {fields : Fields ts} {values : Values ts}
      {members : List (String × Json)} {j : Json} {a : α} (hvalue : field.decoder.Recovers levels j a)
      (hrest : Written levels fields values members) :
      Written levels (.cons field fields) (a, values) ((field.name, j) :: members)
  | absent {α : Type} {ts : List Type} {field : Field α} {fields : Fields ts} {values : Values ts}
      {members : List (String × Json)} {a : α} (habsent : field.absent = some a)
      (hrest : Written levels fields values members) :
      Written levels (.cons field fields) (a, values) members

variable {levels : Nat} {ts : List Type} {fields : Fields ts} {values : Values ts}
  {members : List (String × Json)}

theorem Written.keys_sublist (hwritten : fields.Written levels values members) :
    (members.map Prod.fst).Sublist fields.names := by
  induction hwritten with
  | nil => exact List.Sublist.refl []
  | member _ _ ih => exact ih.cons_cons _
  | absent _ _ ih => exact ih.cons _

theorem Written.depth_le (hwritten : fields.Written levels values members) :
    membersDepth members ≤ levels := by
  induction hwritten with
  | nil => exact Nat.zero_le levels
  | member hvalue _ ih => exact Nat.max_le.mpr ⟨hvalue.depth_le, ih⟩
  | absent _ _ ih => exact ih

theorem Written.exact (hwritten : fields.Written levels values members) : ExactMembers members := by
  induction hwritten with
  | nil => trivial
  | member hvalue _ ih => exact ⟨hvalue.exact, ih⟩
  | absent _ _ ih => exact ih

/-- A member of another field passes by a field. -/
theorem put_cons {α : Type} (o : Origin) (doc : Document) {field : Field α} {key : String}
    (hkey : key ≠ field.name) (fields : Fields ts) (slot : Option α) (slots : Slots ts) :
    put o key doc (.cons field fields) (slot, slots) =
      (put o key doc fields slots).map fun slots => (slot, slots) := by
  change (if key = field.name then _ else _) = _
  rw [if_neg hkey]
  cases put o key doc fields slots <;> rfl

theorem putAll_cons {α : Type} (o : Origin) {field : Field α} (hkeys : field.name ∉ members.map Prod.fst)
    (fields : Fields ts) (slot : Option α) (slots : Slots ts) :
    putAll o (.cons field fields) (slot, slots) (memberDocuments members) =
      (putAll o fields slots (memberDocuments members)).map fun slots => (slot, slots) := by
  induction members generalizing slots with
  | nil => rfl
  | cons member members ih =>
      obtain ⟨key, j⟩ := member
      rw [List.map_cons, List.mem_cons, not_or] at hkeys
      simp only [memberDocuments, putAll, Quotation.text_ofText, refuse, bind, Except.bind]
      rw [put_cons o _ (Ne.symm hkeys.1)]
      cases put o key j.document fields slots with
      | error error => rfl
      | ok slots => exact ih hkeys.2 slots

/-- Taking the members one by one fills the slots of the fields that they write. -/
theorem Written.putAll_eq (hwritten : fields.Written levels values members)
    (hnames : fields.names.Nodup) {o : Origin} (ho : o.HasRoom levels) :
    ∃ slots, putAll o fields fields.emptySlots (memberDocuments members) = .ok slots ∧
      fields.fill slots = .ok values := by
  induction hwritten with
  | nil => exact ⟨(), rfl, rfl⟩
  | @member α ts field fields values members j a hvalue hrest ih =>
      rw [names, List.nodup_cons] at hnames
      obtain ⟨slots, hput, hfill⟩ := ih hnames.2
      have hkeys : field.name ∉ members.map Prod.fst :=
        fun hmem => hnames.1 (hrest.keys_sublist.subset hmem)
      refine ⟨(some a, slots), ?_, ?_⟩
      · rw [memberDocuments, putAll, Quotation.text_ofText, emptySlots]
        change (put o field.name j.document (.cons field fields) (none, fields.emptySlots) >>= _) = _
        rw [put, if_pos rfl, hvalue.decode o ho]
        change putAll o (.cons field fields) (some a, fields.emptySlots) (memberDocuments members) = _
        rw [putAll_cons o hkeys, hput]
        rfl
      · rw [fill, hfill]
        rfl
  | @absent α ts field fields values members a habsent hrest ih =>
      rw [names, List.nodup_cons] at hnames
      obtain ⟨slots, hput, hfill⟩ := ih hnames.2
      have hkeys : field.name ∉ members.map Prod.fst :=
        fun hmem => hnames.1 (hrest.keys_sublist.subset hmem)
      refine ⟨(none, slots), ?_, ?_⟩
      · rw [emptySlots, putAll_cons o hkeys, hput]
        rfl
      · simp only [fill, habsent, hfill]
        rfl

/-- A field that may be left out is written where it has a value. -/
theorem Written.optional {α : Type} {d : Decoder α} {write : α → Json} (name : String)
    (hwrite : ∀ a, d.Recovers levels (write a) a) (hnull : ∀ a, write a ≠ .null) (a? : Option α)
    (hrest : fields.Written levels values members) :
    Written levels (.cons (.optional name d) fields) (a?, values)
      (a?.toList.map (fun a => (name, write a)) ++ members) := by
  cases a? with
  | none => exact .absent rfl hrest
  | some a => exact .member (Decoder.recovers_option hwrite hnull (some a)) hrest

theorem Written.recovers (hwritten : fields.Written levels values members)
    (hnames : fields.names.Nodup) (name : String) :
    (fields.decoder name).Recovers (levels + 1) (.obj members) values where
  decode o ho := by
    obtain ⟨o', henter, ho'⟩ := ho.enter
    obtain ⟨slots, hput, hfill⟩ := hwritten.putAll_eq hnames ho'
    rw [document, decoder]
    simp only [henter, bind, Except.bind, hput]
    exact hfill
  depth_le := by
    have hdepth := hwritten.depth_le
    rw [depth]
    omega
  exact := by
    rw [Exact]
    exact hwritten.exact

end Fields

/-! ### Alternatives -/

section Alternatives

variable {α : Type} {levels : Nat} {tag name : String} {members : List (String × Json)} {a : α}

theorem Choices.select_eq {choices : Choices α} (hlookup : choices.lookup name = some a) :
    choices.select name = .ok a := by
  rw [select, hlookup]

/-- After the tag the other members are held back as they are. -/
theorem splitTag_memberDocuments {o : Origin} (ho : o.HasRoom levels) (choices : Choices α)
    (htag : tag ∉ members.map Prod.fst) (hdepth : membersDepth members ≤ levels)
    (hexact : ExactMembers members) :
    splitTag o tag choices (some a) (memberDocuments members) =
      .ok (some a, memberDocuments members) := by
  induction members with
  | nil => rfl
  | cons member members ih =>
      obtain ⟨key, j⟩ := member
      rw [List.map_cons, List.mem_cons, not_or] at htag
      rw [membersDepth, Nat.max_le] at hdepth
      rw [ExactMembers] at hexact
      rw [memberDocuments, splitTag, Quotation.text_ofText]
      simp only [refuse, bind, Except.bind, if_neg (Ne.symm htag.1), ho.hold hexact.1 hdepth.1,
        ih htag.2 hdepth.2 hexact.2]

/-- Of members that nest too deep one cannot be held back. -/
theorem splitTag_tooDeep {room : Nat} (choices : Choices α) (htag : tag ∉ members.map Prod.fst)
    (hexact : ExactMembers members) (hdeep : room < membersDepth members) :
    splitTag (.text room) tag choices (some a) (memberDocuments members) =
      .error (.malformed .tooDeep) := by
  induction members with
  | nil => exact absurd hdeep (Nat.not_lt_zero room)
  | cons member members ih =>
      obtain ⟨key, j⟩ := member
      rw [List.map_cons, List.mem_cons, not_or] at htag
      rw [ExactMembers] at hexact
      rw [memberDocuments, splitTag, Quotation.text_ofText]
      simp only [refuse, bind, Except.bind, if_neg (Ne.symm htag.1), Origin.hold,
        hold_document room j hexact.1]
      by_cases hj : j.depth ≤ room
      · have hrest : room < membersDepth members := by
          rw [membersDepth] at hdeep
          omega
        rw [heldWithin_ok hj, ih htag.2 hexact.2 hrest]
      · rw [heldWithin, if_neg hj]

/-- The tag is written first, and it chooses the alternative. -/
theorem splitTag_cons (o : Origin) {choices : Choices α} (hlookup : choices.lookup name = some a)
    (members : List (String × Json)) :
    splitTag o tag choices none (memberDocuments ((tag, .str name) :: members)) =
      splitTag o tag choices (some a) (memberDocuments members) := by
  rw [memberDocuments, splitTag, Quotation.text_ofText, document]
  simp only [refuse, bind, Except.bind, if_true, Choices.identifier, Quotation.text_ofText,
    Choices.select_eq hlookup]

theorem recovers_tagged {choices : Choices (Decoder α)} {d : Decoder α} (expected : String)
    (hlookup : choices.lookup name = some d) (htag : tag ∉ members.map Prod.fst)
    (hmembers : d.Recovers (levels + 1) (.obj members) a) :
    (tagged expected tag choices).Recovers (levels + 1) (.obj ((tag, .str name) :: members)) a where
  decode o ho := by
    obtain ⟨o', henter, ho'⟩ := ho.enter
    have hdepth := hmembers.depth_le
    have hexact := hmembers.exact
    rw [depth] at hdepth
    rw [Exact] at hexact
    have hsplit : splitTag o' tag choices none (memberDocuments ((tag, .str name) :: members)) =
        .ok (some d, memberDocuments members) := by
      rw [splitTag_cons o' hlookup]
      exact splitTag_memberDocuments ho' choices htag (by omega) hexact
    rw [document, tagged]
    simp only [henter, bind, Except.bind, hsplit]
    have hheld := hmembers.decode .held trivial
    rw [document] at hheld
    exact hheld
  depth_le := by
    have hdepth := hmembers.depth_le
    rw [depth] at hdepth
    simp only [depth, membersDepth]
    omega
  exact := by
    have hexact := hmembers.exact
    rw [Exact] at hexact
    exact ⟨trivial, hexact⟩

/-- An alternative that nests too deep for the text is refused for that, whatever its fields are. -/
theorem tagged_tooDeep {choices : Choices (Decoder α)} {d : Decoder α} {room : Nat} (expected : String)
    (hlookup : choices.lookup name = some d) (htag : tag ∉ members.map Prod.fst)
    (hexact : ExactMembers members) (hdeep : room < (obj ((tag, .str name) :: members)).depth) :
    tagged expected tag choices (.text room) (obj ((tag, .str name) :: members)).document =
      .error (.malformed .tooDeep) := by
  rw [document, tagged]
  cases room with
  | zero => rfl
  | succ room =>
      have hmembers : room < membersDepth members := by
        simp only [depth, membersDepth] at hdeep
        omega
      simp only [Origin.enter, bind, Except.bind, splitTag_cons (.text room) hlookup,
        splitTag_tooDeep choices htag hexact hmembers]

theorem recovers_noFields (levels : Nat) (a : α) :
    (noFields a).Recovers (levels + 1) (.obj []) a where
  decode _ _ := rfl
  depth_le := Nat.succ_le_succ (Nat.zero_le levels)
  exact := trivial

theorem recovers_adjacent_bare {names : Adjacent} {choices : Choices (Content α)} {content : Content α}
    (expected : String) (hlookup : choices.lookup name = some content)
    (habsent : content.absent = some a) (levels : Nat) :
    (adjacent expected names choices).Recovers (levels + 1) (.obj [(names.tag, .str name)]) a where
  decode o ho := by
    obtain ⟨o', henter, ho'⟩ := ho.enter
    have hcontent := (Decoder.recovers_bareName (Choices.select_eq hlookup) levels).decode o' ho'
    rw [document] at hcontent
    simp [document, memberDocuments, adjacent, henter, bind, Except.bind, Adjacent.members,
      Adjacent.next, refuse, hcontent, Document.check, ObjectEnd.fault?, habsent]
  depth_le := by
    simp only [depth, membersDepth]
    omega
  exact := ⟨trivial, trivial⟩

theorem recovers_adjacent {names : Adjacent} {choices : Choices (Content α)} {content : Content α}
    {j : Json} (expected : String) (hlookup : choices.lookup name = some content)
    (hnames : names.content ≠ names.tag) (hvalue : content.decoder.Recovers levels j a) :
    (adjacent expected names choices).Recovers (levels + 1)
      (.obj [(names.tag, .str name), (names.content, j)]) a where
  decode o ho := by
    obtain ⟨o', henter, ho'⟩ := ho.enter
    have hcontent := (Decoder.recovers_bareName (Choices.select_eq hlookup) levels).decode o' ho'
    rw [document] at hcontent
    simp [document, memberDocuments, adjacent, henter, bind, Except.bind, Adjacent.members,
      Adjacent.next, refuse, hcontent, Document.check, ObjectEnd.fault?, hnames,
      hvalue.decode o' ho', Adjacent.finish]
  depth_le := by
    have hdepth := hvalue.depth_le
    simp only [depth, membersDepth]
    omega
  exact := ⟨trivial, hvalue.exact, trivial⟩

end Alternatives

end Uncaught.Json
