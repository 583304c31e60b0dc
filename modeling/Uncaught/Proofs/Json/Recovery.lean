import Uncaught.Json.Variant
import Uncaught.Proofs.Json.Spelling

/-!
Decoders that give back what was written. `d.Recovers levels j a` says that `d` reads `a` from the
document of `j` wherever `levels` more levels may be opened, and that `j` can be held back unread in the
same room. There is one lemma for each way to put decoders together, so the round trip of a type is
put together from those of its parts, as its decoder is.
-/

namespace Uncaught.Json

mutual

/-- The numbers of a value fit into 64 bits. -/
def Exact : Json → Prop
  | .num n => n < UInt64.size
  | .arr items => ExactItems items
  | .obj members => ExactMembers members
  | .null | .bool _ | .str _ => True

def ExactItems : List Json → Prop
  | [] => True
  | v :: vs => Exact v ∧ ExactItems vs

def ExactMembers : List (String × Json) → Prop
  | [] => True
  | (_, v) :: ms => Exact v ∧ ExactMembers ms

end

/-- What holding back answers for a value of a depth. -/
def heldWithin (room depth : Nat) : Except Fault Unit :=
  if depth ≤ room then .ok () else .error .tooDeep

theorem heldWithin_ok {room depth : Nat} (h : depth ≤ room) : heldWithin room depth = .ok () :=
  if_pos h

@[simp] theorem heldWithin_succ (room depth : Nat) :
    heldWithin (room + 1) (1 + depth) = heldWithin room depth := by
  rw [heldWithin, heldWithin, Nat.add_comm 1 depth]
  simp only [Nat.add_le_add_iff_right]

@[simp] theorem heldWithin_max (room m n : Nat) :
    heldWithin room (max m n) = heldWithin room m >>= fun _ => heldWithin room n := by
  simp only [heldWithin, Nat.max_le]
  by_cases hm : m ≤ room
  · simp [hm, bind, Except.bind]
  · simp [hm, bind, Except.bind]

mutual

/-- A written value can be held back exactly if it does not nest too deep. -/
theorem hold_document : ∀ (room : Nat) (j : Json), j.Exact →
    j.document.hold room = heldWithin room j.depth
  | room, .null, _ => by simp [document, Document.hold, depth, heldWithin]
  | room, .bool b, _ => by simp [document, Document.hold, depth, heldWithin]
  | room, .num n, hexact => by
      rw [Exact] at hexact
      simp [document, Document.hold, depth, heldWithin, Numeral.found, Numeral.value_ofNat hexact,
        Except.map]
  | room, .str s, _ => by simp [document, Document.hold, depth, heldWithin, Except.map]
  | 0, .arr items, _ => by simp [document, Document.hold, depth, heldWithin]
  | room + 1, .arr items, hexact => by
      rw [Exact] at hexact
      rw [document, Document.hold, holdItems_itemDocuments room items hexact, depth, heldWithin_succ]
      cases heldWithin room (itemsDepth items) <;> rfl
  | 0, .obj members, _ => by simp [document, Document.hold, depth, heldWithin]
  | room + 1, .obj members, hexact => by
      rw [Exact] at hexact
      rw [document, Document.hold, holdMembers_memberDocuments room members hexact, depth,
        heldWithin_succ]
      cases heldWithin room (membersDepth members) <;> rfl

theorem holdItems_itemDocuments : ∀ (room : Nat) (items : List Json), ExactItems items →
    Document.holdItems room (itemDocuments items) = heldWithin room (itemsDepth items)
  | room, [], _ => by simp [itemDocuments, Document.holdItems, itemsDepth, heldWithin]
  | room, v :: vs, hexact => by
      rw [ExactItems] at hexact
      rw [itemDocuments, Document.holdItems, hold_document room v hexact.1,
        holdItems_itemDocuments room vs hexact.2, itemsDepth, heldWithin_max]

theorem holdMembers_memberDocuments : ∀ (room : Nat) (members : List (String × Json)),
    ExactMembers members →
    Document.holdMembers room (memberDocuments members) = heldWithin room (membersDepth members)
  | room, [], _ => by simp [memberDocuments, Document.holdMembers, membersDepth, heldWithin]
  | room, (k, v) :: ms, hexact => by
      rw [ExactMembers] at hexact
      rw [memberDocuments, Document.holdMembers, Quotation.text_ofText, hold_document room v hexact.1,
        holdMembers_memberDocuments room ms hexact.2, membersDepth, heldWithin_max]
      rfl

end

namespace Origin

/-- So many more levels may be opened. -/
def HasRoom (levels : Nat) : Origin → Prop
  | .text room => levels ≤ room
  | .held => True

theorem HasRoom.enter {levels : Nat} {o : Origin} (ho : o.HasRoom (levels + 1)) :
    ∃ o', o.enter = .ok o' ∧ o'.HasRoom levels := by
  cases o with
  | held => exact ⟨.held, rfl, trivial⟩
  | text room =>
      cases room with
      | zero => exact absurd ho (Nat.not_succ_le_zero levels)
      | succ room => exact ⟨.text room, rfl, Nat.le_of_succ_le_succ ho⟩

theorem HasRoom.hold {levels : Nat} {o : Origin} (ho : o.HasRoom levels) {j : Json}
    (hexact : j.Exact) (hdepth : j.depth ≤ levels) : o.hold j.document = .ok () := by
  cases o with
  | held => rfl
  | text room =>
      have hroom : j.depth ≤ room := Nat.le_trans hdepth ho
      rw [Origin.hold, hold_document room j hexact, heldWithin_ok hroom]
      rfl

end Origin

/-! ### Decoders -/

namespace Decoder

/-- The decoder reads `a` from the document of `j`, where `levels` more levels may be opened. -/
structure Recovers {α : Type} (d : Decoder α) (levels : Nat) (j : Json) (a : α) : Prop where
  decode : ∀ o : Origin, o.HasRoom levels → d o j.document = .ok a
  depth_le : j.depth ≤ levels
  exact : j.Exact

variable {α β : Type} {d : Decoder α} {levels : Nat} {j : Json} {a : α}

theorem Recovers.map (h : d.Recovers levels j a) (f : α → β) : (d.map f).Recovers levels j (f a) where
  decode o ho := by rw [Decoder.map, h.decode o ho, Except.map]
  depth_le := h.depth_le
  exact := h.exact

theorem recovers_uint32 (levels : Nat) (n : UInt32) : uint32.Recovers levels (.ofUInt32 n) n where
  decode o _ := by
    have hsmall : n.toNat < UInt32.size := n.toNat_lt
    have hvalue := Numeral.value_ofNat (Nat.lt_trans hsmall (by decide : UInt32.size < UInt64.size))
    simp [ofUInt32, document, uint32, hvalue, hsmall]
  depth_le := Nat.zero_le levels
  exact := Nat.lt_trans n.toNat_lt (by decide)

theorem recovers_string (levels : Nat) (s : String) : string.Recovers levels (.str s) s where
  decode o _ := by rw [document, string, Quotation.text_ofText, refuse]
  depth_le := Nat.zero_le levels
  exact := trivial

theorem recovers_bool (levels : Nat) (b : Bool) : bool.Recovers levels (.bool b) b where
  decode _ _ := rfl
  depth_le := Nat.zero_le levels
  exact := trivial

theorem document_ne_null (hj : j ≠ .null) : j.document ≠ .null := by
  cases j with
  | null => exact absurd rfl hj
  | bool _ | num _ | str _ | arr _ | obj _ =>
      rw [document]
      nofun

theorem recovers_option {write : α → Json} (hwrite : ∀ a, d.Recovers levels (write a) a)
    (hnull : ∀ a, write a ≠ .null) (a? : Option α) :
    d.option.Recovers levels (.ofOption write a?) a? := by
  cases a? with
  | none => exact ⟨fun _ _ => rfl, Nat.zero_le levels, trivial⟩
  | some a =>
      refine ⟨fun o ho => ?_, (hwrite a).depth_le, (hwrite a).exact⟩
      rw [ofOption, option]
      · rw [(hwrite a).decode o ho, Except.map]
      · exact document_ne_null (hnull a)

theorem recovers_list {write : α → Json} {as : List α}
    (hwrite : ∀ a ∈ as, d.Recovers levels (write a) a) :
    (Decoder.list d).Recovers (levels + 1) (.ofList write as) as := by
  have hitems : itemsDepth (as.map write) ≤ levels ∧ ExactItems (as.map write) ∧
      ∀ o : Origin, o.HasRoom levels → items d o (itemDocuments (as.map write)) = .ok as := by
    induction as with
    | nil => exact ⟨Nat.zero_le levels, trivial, fun _ _ => rfl⟩
    | cons a as ih =>
        obtain ⟨hdepth, hexact, hdecode⟩ := ih fun b hb => hwrite b (List.mem_cons_of_mem a hb)
        have ha := hwrite a List.mem_cons_self
        rw [List.map_cons, itemsDepth, ExactItems, itemDocuments]
        refine ⟨Nat.max_le.mpr ⟨ha.depth_le, hdepth⟩, ⟨ha.exact, hexact⟩, fun o ho => ?_⟩
        rw [items, ha.decode o ho, hdecode o ho]
        rfl
  obtain ⟨hdepth, hexact, hdecode⟩ := hitems
  refine ⟨fun o ho => ?_, ?_, ?_⟩
  · obtain ⟨o', henter, ho'⟩ := ho.enter
    rw [ofList, document, list]
    simp only [henter, bind, Except.bind, hdecode o' ho']
    rfl
  · rw [ofList, depth]
    omega
  · rw [ofList, Exact]
    exact hexact

theorem recovers_bareName {select : String → Except DecodeError α} {name : String}
    (hselect : select name = .ok a) (levels : Nat) :
    (bareName select).Recovers levels (.str name) a where
  decode o _ := by
    rw [document, bareName, Quotation.text_ofText]
    exact hselect
  depth_le := Nat.zero_le levels
  exact := trivial

/-- A written text is decoded as the document of what was written, in either layout. -/
theorem decodeText_written (d : Decoder α) {text : String} (htext : text = j.compact ∨ text = j.pretty) :
    d.decodeText text = d (.text nestingLimit) j.document := by
  have hparse : Document.parse text = (j.document, true) := by
    rcases htext with rfl | rfl
    · exact parse_write .dense j
    · exact parse_write .indented j
  rw [decodeText, hparse]
  cases hresult : d (.text nestingLimit) j.document <;> simp [hresult, bind, Except.bind]

/-- A whole text gives back what was written into it. -/
theorem Recovers.decodeText_eq (h : d.Recovers levels j a) (hlevels : levels ≤ nestingLimit)
    {text : String} (htext : text = j.compact ∨ text = j.pretty) : d.decodeText text = .ok a := by
  rw [decodeText_written d htext]
  exact h.decode (.text nestingLimit) hlevels

end Decoder

end Uncaught.Json
