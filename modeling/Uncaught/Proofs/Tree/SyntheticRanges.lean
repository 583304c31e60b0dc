import Uncaught.Proofs.Text.LineStarts
import Uncaught.Proofs.Tree.Building

/-!
The ranges that the builder chooses. They are evenly spaced, so that no two of them meet. The callee of a
call takes as many bytes as its name, whatever the length of the statement: a long name leaves the
statement, and a longer one runs into the ranges of the nodes that follow.
-/

namespace Uncaught

namespace TextRange

def Covers (r : TextRange) (offset : UInt32) : Prop := r.start ≤ offset ∧ offset < r.stop

/-- No byte lies in both ranges. -/
def Apart (r s : TextRange) : Prop := ∀ offset, r.Covers offset → ¬s.Covers offset

/-- Ranges share no byte if one of them is empty or ends before the other starts. -/
theorem apart_iff (r s : TextRange) : r.Apart s ↔
    r.stop.toNat ≤ r.start.toNat ∨ s.stop.toNat ≤ s.start.toNat ∨ r.stop.toNat ≤ s.start.toNat ∨
      s.stop.toNat ≤ r.start.toNat := by
  constructor
  · intro hapart
    by_contra hmeet
    -- The later of the two starts lies in both ranges.
    rcases Nat.le_total r.start.toNat s.start.toNat with hle | hle
    · refine hapart s.start ⟨hle, ?_⟩ ⟨UInt32.le_refl _, ?_⟩ <;> rw [UInt32.lt_iff_toNat_lt] <;> omega
    · refine hapart r.start ⟨UInt32.le_refl _, ?_⟩ ⟨hle, ?_⟩ <;> rw [UInt32.lt_iff_toNat_lt] <;> omega
  · intro hbounds offset hr hs
    simp only [Covers, UInt32.le_iff_toNat_le, UInt32.lt_iff_toNat_lt] at hr hs
    omega

theorem contains_iff (r s : TextRange) :
    r.contains s ↔ r.start.toNat ≤ s.start.toNat ∧ s.stop.toNat ≤ r.stop.toNat := by
  simp [contains, UInt32.le_iff_toNat_le]

/-- The bytes from the start of a range on, `size` of them, whether or not the range has as many. -/
def head (r : TextRange) (size : Nat) : TextRange := ⟨r.start, r.start + size.toUInt32⟩

end TextRange

theorem TreeBuilder.span_pos : 0 < span.toNat := by decide

theorem TreeBuilder.span_le_stride : span.toNat ≤ stride.toNat := by decide

namespace BuildStep

/-- The operation adds a node and leaves its range to the builder. -/
def synthetic : BuildStep → Bool
  | .function _ _ _ | .tryScope _ _ | .lambda _ _ | .block _ | .call _ _ _ => true
  | .source _ | .declaration _ _ | .annotatedDeclaration _ _ _ | .abstractMember _ _
  | .interface _ _ | .callAt _ _ _ _ _ => false

variable {op : BuildStep}

@[simp] theorem cursor_apply (op : BuildStep) (b : TreeBuilder) : (op.apply b).2.cursor =
    if op.synthetic then b.cursor + TreeBuilder.stride else b.cursor := by
  cases op <;> rfl

theorem added?_of_synthetic (hop : op.synthetic) (b : TreeBuilder) :
    ∃ n, op.added? b = some (.node n) ∧ n.range = b.nextRange := by
  cases op <;> cases hop <;> exact ⟨_, rfl, rfl⟩

/-- The number of ranges that the builder has chosen before an operation. -/
def rank (ops : List BuildStep) (i : Nat) : Nat := (ops.take i).countP (·.synthetic)

variable {ops : List BuildStep} {i j : Nat}

theorem rank_succ (hop : ops[i]? = some op) (hsynthetic : op.synthetic) :
    rank ops (i + 1) = rank ops i + 1 := by
  rw [rank, List.take_add_one, hop, List.countP_append]
  simp [rank, hsynthetic]

theorem rank_mono (hle : i ≤ j) : rank ops i ≤ rank ops j := by
  have hstarts := List.take_prefix_take_left (l := ops) hle
  exact hstarts.sublist.countP_le

theorem rank_le (ops : List BuildStep) (i : Nat) : rank ops i ≤ ops.countP (·.synthetic) :=
  (List.take_sublist i ops).countP_le

end BuildStep

namespace BuildRun
open TreeBuilder (stride span)
open BuildStep (rank)

variable {r : BuildRun} {file : String} {language : SourceLanguage} {ops : List BuildStep}
  {op : BuildStep} {i j : Nat} {n m : Node}

theorem toNat_cursor_step (r : BuildRun) (op : BuildStep) (hfits :
    r.builder.cursor.toNat + stride.toNat * [op].countP (·.synthetic) < UInt32.size) :
    (r.step op).builder.cursor.toNat =
      r.builder.cursor.toNat + stride.toNat * [op].countP (·.synthetic) := by
  cases hop : op.synthetic with
  | false => simp [step, hop]
  | true =>
      have hone : [op].countP (·.synthetic) = 1 := by simp [hop]
      rw [hone, Nat.mul_one] at hfits ⊢
      simp [step, hop, toNat_add_of_lt hfits]

/-- The cursor counts the ranges that were chosen, as long as it does not wrap around. -/
theorem toNat_cursor_steps (r : BuildRun) (ops : List BuildStep) (hfits :
    r.builder.cursor.toNat + stride.toNat * ops.countP (·.synthetic) < UInt32.size) :
    (r.steps ops).builder.cursor.toNat =
      r.builder.cursor.toNat + stride.toNat * ops.countP (·.synthetic) := by
  induction ops generalizing r with
  | nil => rfl
  | cons op ops ih =>
      have hcount : (op :: ops).countP (·.synthetic) =
          [op].countP (·.synthetic) + ops.countP (·.synthetic) := by
        rw [← List.countP_append, List.singleton_append]
      rw [hcount, Nat.mul_add] at hfits ⊢
      have hcursor := r.toNat_cursor_step op (by omega)
      rw [steps_cons, ih (r.step op) (by omega), hcursor, Nat.add_assoc]

/-- The node was added by the operation at this place of the run, which left its range to the builder. -/
def Placed (r : BuildRun) (ops : List BuildStep) (i : Nat) (n : Node) : Prop :=
  ops[i]?.any (·.synthetic) ∧
    (r.steps ops).tree.nodes[(r.steps (ops.take i)).tree.nodes.size]? = some n

/-- A node is found as it was added. -/
theorem placed_iff (hop : ops[i]? = some op) (hsynthetic : op.synthetic) :
    r.Placed ops i n ↔ op.added? (r.steps (ops.take i)).builder = some (.node n) := by
  obtain ⟨node, hadded, -⟩ := BuildStep.added?_of_synthetic hsynthetic (r.steps (ops.take i)).builder
  have hfound : (r.steps ops).tree.nodes[(r.steps (ops.take i)).tree.nodes.size]? = some node := by
    obtain ⟨hi, rfl⟩ := List.getElem?_eq_some_iff.mp hop
    have hrun : r.steps ops = (r.steps (ops.take i)).steps (ops[i] :: ops.drop (i + 1)) := by
      rw [← steps_append, ← List.drop_eq_getElem_cons hi, List.take_append_drop]
    have htable := (r.steps (ops.take i)).table_steps_getElem? hadded (ops.drop (i + 1))
    rw [← hrun] at htable
    simpa [TableEntry.table, SyntaxTree.table, SyntaxTree.count] using htable
  simp [Placed, hop, hsynthetic, hfound, hadded]

theorem Placed.exists_op (hn : r.Placed ops i n) : ∃ op, ops[i]? = some op ∧ op.synthetic :=
  (Option.any_eq_true ..).mp hn.1

theorem Placed.range_eq (hn : r.Placed ops i n) :
    n.range = (r.steps (ops.take i)).builder.nextRange := by
  obtain ⟨op, hop, hsynthetic⟩ := hn.exists_op
  obtain ⟨node, hadded, hrange⟩ :=
    BuildStep.added?_of_synthetic hsynthetic (r.steps (ops.take i)).builder
  rw [(placed_iff hop hsynthetic).mp hn] at hadded
  cases hadded
  exact hrange

theorem Placed.range_eq_head (hn : r.Placed ops i n) : n.range = n.range.head span.toNat := by
  rw [hn.range_eq]
  rfl

theorem Placed.rank_lt (hn : r.Placed ops i n) (hlt : i < j) : rank ops i < rank ops j := by
  obtain ⟨op, hop, hsynthetic⟩ := hn.exists_op
  have hsucc := BuildStep.rank_succ hop hsynthetic
  have hle : rank ops (i + 1) ≤ rank ops j := BuildStep.rank_mono hlt
  omega

theorem exists_placed (hop : ops[i]? = some op) (hsynthetic : op.synthetic) :
    ∃ n, r.Placed ops i n := by
  obtain ⟨n, hadded, -⟩ := BuildStep.added?_of_synthetic hsynthetic (r.steps (ops.take i)).builder
  exact ⟨n, (placed_iff hop hsynthetic).mpr hadded⟩

/-- The callee of a call starts with its statement and takes as many bytes as its name. -/
theorem exists_placed_call {parent : NodeId} {name : String} {target : Option DeclId}
    (hop : ops[i]? = some (.call parent name target)) :
    ∃ n c, r.Placed ops i n ∧ n.kind = .call c ∧ c.name = name ∧ c.statementRange = n.range ∧
      c.calleeRange = n.range.head name.utf8ByteSize :=
  ⟨_, _, (placed_iff hop rfl).mpr rfl, rfl, rfl, rfl, rfl⟩

section Bounds

variable (hfits : stride.toNat * ops.countP (·.synthetic) < UInt32.size)
  (hn : (start file language).Placed ops i n) (hm : (start file language).Placed ops j m)

include hfits hn

theorem Placed.room : stride.toNat * rank ops i + stride.toNat < UInt32.size :=
  calc stride.toNat * rank ops i + stride.toNat
      = stride.toNat * (rank ops i + 1) := rfl
    _ ≤ stride.toNat * rank ops (i + 1) := Nat.mul_le_mul_left _ (hn.rank_lt (Nat.lt_succ_self i))
    _ ≤ stride.toNat * ops.countP (·.synthetic) := Nat.mul_le_mul_left _ (BuildStep.rank_le ops _)
    _ < UInt32.size := hfits

/-- Ranges start at the multiples of the stride. -/
theorem Placed.toNat_start : n.range.start.toNat = stride.toNat * rank ops i := by
  have hroom := hn.room hfits
  have hzero : (start file language).builder.cursor.toNat = 0 := rfl
  have hcursor := (start file language).toNat_cursor_steps (ops.take i)
  rw [hzero, Nat.zero_add, ← rank] at hcursor
  rw [hn.range_eq]
  exact hcursor (by omega)

theorem Placed.toNat_head_stop {size : Nat} (hsize : stride.toNat * rank ops i + size < UInt32.size) :
    (n.range.head size).stop.toNat = stride.toNat * rank ops i + size := by
  have hstart := hn.toNat_start hfits
  have hnat : size.toUInt32.toNat = size := UInt32.toNat_ofNat_of_lt' (by omega)
  rw [TextRange.head, toNat_add_of_lt (by omega), hstart, hnat]

theorem Placed.toNat_stop : n.range.stop.toNat = stride.toNat * rank ops i + span.toNat := by
  have hroom := hn.room hfits
  have hspan := TreeBuilder.span_le_stride
  rw [hn.range_eq_head, hn.toNat_head_stop hfits (by omega)]

theorem Placed.contains_head_iff {size : Nat}
    (hsize : stride.toNat * rank ops i + size < UInt32.size) :
    n.range.contains (n.range.head size) ↔ size ≤ span.toNat := by
  have hstart : n.range.start.toNat ≤ (n.range.head size).start.toNat := Nat.le_refl _
  rw [TextRange.contains_iff, and_iff_right hstart, hn.toNat_head_stop hfits hsize,
    hn.toNat_stop hfits, Nat.add_le_add_iff_left]

include hm

/-- Bytes from the start of a range on meet no earlier range, and they meet a later one if there are more
of them than on the way to it. -/
theorem Placed.head_apart_iff {size : Nat} (hsize : stride.toNat * rank ops i + size < UInt32.size) :
    (n.range.head size).Apart m.range ↔
      j < i ∨ size ≤ stride.toNat * (rank ops j - rank ops i) := by
  have hstart : (n.range.head size).start.toNat = _ := hn.toNat_start hfits
  rw [TextRange.apart_iff, hn.toNat_head_stop hfits hsize, hstart, hm.toNat_start hfits,
    hm.toNat_stop hfits]
  have hspan := TreeBuilder.span_le_stride
  have hpos := TreeBuilder.span_pos
  rcases Nat.lt_or_ge j i with hlt | hle
  · have hmul := Nat.mul_le_mul_left stride.toNat (hm.rank_lt hlt)
    rw [Nat.mul_succ] at hmul
    omega
  · have hrank : rank ops i ≤ rank ops j := BuildStep.rank_mono hle
    have hmul := Nat.mul_le_mul_left stride.toNat hrank
    rw [Nat.mul_sub]
    omega

/-- The way to the next range is longer than a range. -/
theorem Placed.head_apart (hne : i ≠ j) {size : Nat} (hshort : size ≤ span.toNat) :
    (n.range.head size).Apart m.range := by
  have hroom := hn.room hfits
  have hspan := TreeBuilder.span_le_stride
  rw [hn.head_apart_iff hfits hm (by omega)]
  rcases Nat.lt_or_gt_of_ne hne with hlt | hlt
  · have hmul := Nat.mul_le_mul_left stride.toNat (Nat.sub_pos_of_lt (hn.rank_lt hlt))
    omega
  · exact Or.inl hlt

theorem Placed.apart (hne : i ≠ j) : n.range.Apart m.range := by
  rw [hn.range_eq_head]
  exact hn.head_apart hfits hm hne (Nat.le_refl _)

end Bounds

/-- **Synthetic ranges.** As long as the cursor does not wrap around, the ranges that the builder chooses
share no bytes. The callee of a call stays in its statement, and clear of all other ranges, if its name is
no longer than a range. With a longer name it leaves the statement, and it runs into every later node that
is nearer than the name is long. -/
theorem synthetic_ranges (file : String) (language : SourceLanguage) (ops : List BuildStep)
    (hfits : stride.toNat * ops.countP (·.synthetic) < UInt32.size) :
    let Placed := (start file language).Placed ops
    (∀ i op, ops[i]? = some op → op.synthetic → ∃ n, Placed i n) ∧
    (∀ i j n m, i ≠ j → Placed i n → Placed j m → n.range.Apart m.range) ∧
    (∀ i parent name target, ops[i]? = some (.call parent name target) →
      ∃ n c, Placed i n ∧ n.kind = .call c ∧ c.name = name ∧ c.statementRange = n.range ∧
        (name.utf8ByteSize ≤ span.toNat → c.statementRange.contains c.calleeRange ∧
          ∀ j m, i ≠ j → Placed j m → c.calleeRange.Apart m.range) ∧
        (stride.toNat * rank ops i + name.utf8ByteSize < UInt32.size →
          (c.statementRange.contains c.calleeRange ↔ name.utf8ByteSize ≤ span.toNat) ∧
          ∀ j m, Placed j m → (c.calleeRange.Apart m.range ↔
            j < i ∨ name.utf8ByteSize ≤ stride.toNat * (rank ops j - rank ops i)))) := by
  refine ⟨fun i op => exists_placed, fun i j n m hne hn hm => hn.apart hfits hm hne,
    fun i parent name target hop => ?_⟩
  obtain ⟨n, c, hn, hkind, hname, hstatement, hcallee⟩ := exists_placed_call hop
  refine ⟨n, c, hn, hkind, hname, hstatement, fun hshort => ?_, fun hsize => ?_⟩
  · have hroom := hn.room hfits
    have hspan := TreeBuilder.span_le_stride
    rw [hstatement, hcallee]
    exact ⟨(hn.contains_head_iff hfits (by omega)).mpr hshort,
      fun j m hne hm => hn.head_apart hfits hm hne hshort⟩
  · rw [hstatement, hcallee]
    exact ⟨hn.contains_head_iff hfits hsize, fun j m hm => hn.head_apart_iff hfits hm hsize⟩

/-- A function with two calls and a block between them. -/
def shortCalls : List BuildStep :=
  [.function none "main" [], .call ⟨0⟩ "open" none, .block ⟨0⟩, .call ⟨2⟩ "close" none]

theorem synthetic_ranges_shortCalls :
    stride.toNat * shortCalls.countP (·.synthetic) < UInt32.size ∧
    ∃ n c, (start "Main.kt" .kotlin).Placed shortCalls 1 n ∧ n.kind = .call c ∧
      c.statementRange.contains c.calleeRange ∧
      ∀ j m, 1 ≠ j → (start "Main.kt" .kotlin).Placed shortCalls j m →
        c.calleeRange.Apart m.range := by
  have hfits : stride.toNat * shortCalls.countP (·.synthetic) < UInt32.size := by decide
  obtain ⟨-, -, hcalls⟩ := synthetic_ranges "Main.kt" .kotlin shortCalls hfits
  obtain ⟨n, c, hn, hkind, -, -, hshort, -⟩ := hcalls 1 ⟨0⟩ "open" none rfl
  exact ⟨hfits, n, c, hn, hkind, hshort (by decide)⟩

/-- A call whose name is longer than the distance of two ranges, followed by a block. -/
def longCall : List BuildStep :=
  [.function none "main" [], .call ⟨0⟩ (String.ofList (List.replicate 120 'n')) none, .block ⟨0⟩]

theorem longCall_callee_leaves_statement :
    stride.toNat * longCall.countP (·.synthetic) < UInt32.size ∧
    ∃ n m c, (start "Main.kt" .kotlin).Placed longCall 1 n ∧ n.kind = .call c ∧
      (start "Main.kt" .kotlin).Placed longCall 2 m ∧
      c.statementRange.contains c.calleeRange = false ∧ ¬c.calleeRange.Apart m.range := by
  refine ⟨by decide, _, _, _, (placed_iff rfl rfl).mpr rfl, rfl, (placed_iff rfl rfl).mpr rfl, ?_, ?_⟩
  · decide +kernel
  · rw [TextRange.apart_iff]
    decide +kernel

end BuildRun

end Uncaught
