import Mathlib.Logic.Function.Iterate
import Uncaught.Proofs.Tree.Validity

/-!
An ascent ends on every tree and gives exactly the ancestors. After `n` steps it holds the parent number
`n + 1` of the node that it began at, unless the bound is passed: a handle that points nowhere has no
parent, so this is still true after its error. What a step gives depends on the handle alone. A step that
gives no ancestor leaves no handle, and without a handle nothing is given.
-/

namespace Uncaught

/-- What a chain gives one after another: its nodes, and the error at its end. -/
def Chain.items (c : Chain) : List (Except TreeError (NodeId × Node)) :=
  c.nodes.map .ok ++ (c.error.map .error).toList

theorem Chain.error_mem_items {c : Chain} {error : TreeError} :
    .error error ∈ c.items ↔ c.error = some error := by
  simp [items]

namespace Ascent

variable {t : SyntaxTree} {a : Ascent} {id x : NodeId} {entry : NodeId × Node} {error : TreeError}
  {m n : Nat}

/-- The ascent that is left after `n` steps. -/
def after (t : SyntaxTree) (a : Ascent) (n : Nat) : Ascent := (fun b => (b.step t).2)^[n] a

/-- What step number `n` gives, counted from zero. -/
def item? (t : SyntaxTree) (a : Ascent) (n : Nat) : Option (Except TreeError (NodeId × Node)) :=
  ((a.after t n).step t).1

theorem after_succ (t : SyntaxTree) (a : Ascent) (n : Nat) :
    a.after t (n + 1) = ((a.after t n).step t).2 :=
  Function.iterate_succ_apply' _ n a

@[simp] theorem item?_succ (t : SyntaxTree) (a : Ascent) (n : Nat) :
    a.item? t (n + 1) = (a.step t).2.item? t n := rfl

theorem item?_add (t : SyntaxTree) (a : Ascent) (m n : Nat) :
    a.item? t (m + n) = (a.after t m).item? t n := by
  rw [item?, item?, after, after, after, Nat.add_comm, Function.iterate_add_apply]

theorem item?_of_ended (hnext : a.next = none) (n : Nat) : a.item? t n = none := by
  induction n with
  | zero => rw [item?, after, Function.iterate_zero_apply, step_of_ended hnext]
  | succ n ih => rw [item?_succ, step_of_ended hnext, ih]

/-- Only a step that gives an ancestor leaves a handle. -/
theorem next_of_step (hgives : ∀ entry, (a.step t).1 ≠ some (.ok entry)) :
    (a.step t).2.next = none := by
  cases hnext : a.next with
  | none => rw [step_of_ended hnext, hnext]
  | some x =>
      by_cases hdepth : a.depth < maxAncestors
      · cases hnode : t.node? x with
        | none => rw [step_of_dangling hnext hdepth hnode]
        | some node => exact absurd (by rw [step_of_node hnext hdepth hnode]) (hgives (x, node))
      · rw [step_of_tooDeep hnext (Nat.not_lt.mp hdepth)]

theorem item?_succ_of_step (hgives : ∀ entry, (a.step t).1 ≠ some (.ok entry)) (n : Nat) :
    a.item? t (n + 1) = none := by
  rw [item?_succ]
  exact item?_of_ended (next_of_step hgives) n

/-- Once a step gives no ancestor, all later ones give nothing. -/
theorem item?_eq_none_of_lt (hgives : ∀ entry, a.item? t n ≠ some (.ok entry)) (hlt : n < m) :
    a.item? t m = none := by
  obtain ⟨k, rfl⟩ := Nat.exists_eq_add_of_lt hlt
  rw [Nat.add_assoc, item?_add]
  exact item?_succ_of_step hgives k

/-- A chain gives what its steps give, as far as they go. -/
theorem getElem?_items_chain {steps : Nat} (hn : n < steps) :
    (a.chain t steps).items[n]? = a.item? t n := by
  induction steps generalizing n a with
  | zero => cases hn
  | succ steps ih =>
      -- the chain stops at a step without ancestor, after which no step gives anything
      rcases hstep : a.step t with ⟨_ | error | entry, b⟩
      · rw [chain_of_ended hstep]
        cases n with
        | zero => exact (congrArg Prod.fst hstep).symm
        | succ n => exact (item?_succ_of_step (by simp [hstep]) n).symm
      · rw [chain_of_error hstep]
        cases n with
        | zero => exact (congrArg Prod.fst hstep).symm
        | succ n => exact (item?_succ_of_step (by simp [hstep]) n).symm
      · rw [chain_of_ok hstep]
        cases n with
        | zero => exact (congrArg Prod.fst hstep).symm
        | succ n =>
            rw [item?_succ, hstep, ← ih (Nat.lt_of_succ_lt_succ hn)]
            rfl

theorem length_items_chain_le (t : SyntaxTree) (a : Ascent) (steps : Nat) :
    (a.chain t steps).items.length ≤ steps := by
  induction steps generalizing a with
  | zero => exact Nat.le_refl 0
  | succ steps ih =>
      rcases hstep : a.step t with ⟨_ | error | entry, b⟩
      · rw [chain_of_ended hstep]
        exact Nat.zero_le _
      · rw [chain_of_error hstep]
        exact Nat.succ_le_succ (Nat.zero_le _)
      · rw [chain_of_ok hstep]
        exact Nat.succ_le_succ (ih b)

/-- Where an ascent from `id` stands after `n` steps. Its depth matters only while it has a handle. -/
structure At (t : SyntaxTree) (id : NodeId) (n : Nat) (a : Ascent) : Prop where
  origin : a.origin = id
  next : n ≤ maxAncestors → a.next = t.above id (n + 1)
  ended : maxAncestors < n → a.next = none
  depth : ∀ x, a.next = some x → a.depth = n

theorem at_start (t : SyntaxTree) (id : NodeId) : At t id 0 (t.ascent id) :=
  ⟨rfl, fun _ => rfl, fun hlt => absurd hlt (Nat.not_lt_zero _), fun _ _ => rfl⟩

/-- An ascent without a handle stands where there is no parent or the bound is passed. -/
theorem at_of_ended (horigin : a.origin = id) (hnext : a.next = none)
    (habove : n ≤ maxAncestors → t.above id (n + 1) = none) : At t id n a := by
  refine ⟨horigin, fun hn => ?_, fun _ => hnext, fun x hx => ?_⟩
  · rw [hnext, habove hn]
  · rw [hnext] at hx
    cases hx

theorem At.next_eq_some_iff (hat : At t id n a) :
    a.next = some x ↔ n ≤ maxAncestors ∧ t.above id (n + 1) = some x := by
  by_cases hn : n ≤ maxAncestors
  · rw [hat.next hn, and_iff_right hn]
  · rw [hat.ended (Nat.not_le.mp hn)]
    exact iff_of_false (Option.some_ne_none x).symm fun h => hn h.1

/-- A handle that is taken leaves its parent for the next step, if there is one within the bound. -/
theorem At.step (hat : At t id n a) : At t id (n + 1) (a.step t).2 := by
  cases hnext : a.next with
  | none =>
      rw [step_of_ended hnext]
      refine at_of_ended hat.origin hnext fun hn => ?_
      rw [SyntaxTree.above, ← hat.next (Nat.le_of_succ_le hn), hnext, Option.bind_none]
  | some x =>
      obtain ⟨hn, habove⟩ := hat.next_eq_some_iff.mp hnext
      have hdepth := hat.depth x hnext
      have hparent : t.above id (n + 1 + 1) = t.parent? x := by
        rw [SyntaxTree.above, habove, Option.bind_some]
      rcases Nat.lt_or_eq_of_le hn with hlt | heq
      · cases hnode : t.node? x with
        | none =>
            rw [step_of_dangling hnext (by omega) hnode]
            refine at_of_ended hat.origin rfl fun _ => ?_
            rw [hparent, SyntaxTree.parent?_of_dangling hnode]
        | some node =>
            rw [step_of_node hnext (by omega) hnode]
            refine ⟨hat.origin, fun _ => ?_, fun _ => by omega, fun _ _ => by rw [hdepth]⟩
            rw [hparent, SyntaxTree.parent?_of_node? hnode]
      · rw [step_of_tooDeep hnext (by omega)]
        exact at_of_ended hat.origin rfl fun _ => by omega

theorem at_after (t : SyntaxTree) (id : NodeId) (n : Nat) : At t id n ((t.ascent id).after t n) := by
  induction n with
  | zero => exact at_start t id
  | succ n ih =>
      rw [after_succ]
      exact ih.step

/-- What an ascent from `id` gives for the handle `x` after `n` steps. The bound is looked at before the
table. -/
def found (t : SyntaxTree) (id : NodeId) (n : Nat) (x : NodeId) : Except TreeError (NodeId × Node) :=
  if n = maxAncestors then .error (.malformed id .tooDeep)
  else (t.node? x).elim (.error (.invalidHandle .node x.index t.nodes.size)) fun node => .ok (x, node)

theorem found_eq_ok_iff :
    found t id n x = .ok entry ↔ n ≠ maxAncestors ∧ x = entry.1 ∧ t.node? x = some entry.2 := by
  rw [found]
  split
  · simp_all
  · cases t.node? x with
    | none => simp
    | some node => simp_all [Prod.ext_iff]

theorem found_eq_error_iff :
    found t id n x = .error error ↔ n = maxAncestors ∧ error = .malformed id .tooDeep ∨
      n ≠ maxAncestors ∧ t.node? x = none ∧ error = .invalidHandle .node x.index t.nodes.size := by
  rw [found]
  split
  · simp_all [eq_comm]
  · cases t.node? x with
    | none => simp_all [eq_comm]
    | some node => simp_all

theorem At.step_fst (hat : At t id n a) : (a.step t).1 = a.next.map (found t id n) := by
  cases hnext : a.next with
  | none => rw [step_of_ended hnext, Option.map_none]
  | some x =>
      obtain ⟨hn, -⟩ := hat.next_eq_some_iff.mp hnext
      have hdepth := hat.depth x hnext
      rw [Option.map_some, found]
      rcases Nat.lt_or_eq_of_le hn with hlt | rfl
      · rw [if_neg hlt.ne]
        cases hnode : t.node? x with
        | none => rw [step_of_dangling hnext (by omega) hnode, Option.elim_none]
        | some node => rw [step_of_node hnext (by omega) hnode, Option.elim_some]
      · rw [step_of_tooDeep hnext (Nat.le_of_eq hdepth.symm), if_pos rfl, hat.origin]

theorem item?_eq_some_iff {item : Except TreeError (NodeId × Node)} :
    (t.ascent id).item? t n = some item ↔
      ∃ x, n ≤ maxAncestors ∧ t.above id (n + 1) = some x ∧ found t id n x = item := by
  simp only [item?, (at_after t id n).step_fst, Option.map_eq_some_iff,
    (at_after t id n).next_eq_some_iff, and_assoc]

theorem item?_eq_ok_iff : (t.ascent id).item? t n = some (.ok entry) ↔
    n < maxAncestors ∧ t.above id (n + 1) = some entry.1 ∧ t.node? entry.1 = some entry.2 := by
  simp only [item?_eq_some_iff, found_eq_ok_iff]
  constructor
  · rintro ⟨x, hn, habove, hne, rfl, hnode⟩
    exact ⟨Nat.lt_of_le_of_ne hn hne, habove, hnode⟩
  · rintro ⟨hlt, habove, hnode⟩
    exact ⟨entry.1, hlt.le, habove, hlt.ne, rfl, hnode⟩

theorem item?_eq_error_iff : (t.ascent id).item? t n = some (.error error) ↔
    ∃ x, t.above id (n + 1) = some x ∧ (n = maxAncestors ∧ error = .malformed id .tooDeep ∨
      n < maxAncestors ∧ t.node? x = none ∧ error = .invalidHandle .node x.index t.nodes.size) := by
  simp only [item?_eq_some_iff, found_eq_error_iff]
  constructor
  · rintro ⟨x, hn, habove, ⟨heq, herror⟩ | ⟨hne, hnode, herror⟩⟩
    · exact ⟨x, habove, .inl ⟨heq, herror⟩⟩
    · exact ⟨x, habove, .inr ⟨Nat.lt_of_le_of_ne hn hne, hnode, herror⟩⟩
  · rintro ⟨x, habove, ⟨heq, herror⟩ | ⟨hlt, hnode, herror⟩⟩
    · exact ⟨x, heq.le, habove, .inl ⟨heq, herror⟩⟩
    · exact ⟨x, hlt.le, habove, .inr ⟨hlt.ne, hnode, herror⟩⟩

theorem item?_eq_none_of_bound (hlt : maxAncestors < n) : (t.ascent id).item? t n = none := by
  have hat := at_after t id n
  rw [item?, hat.step_fst, hat.ended hlt, Option.map_none]

end Ascent

namespace SyntaxTree

variable {t : SyntaxTree} {id : NodeId}

/-- The chain above a node holds all that the ascent ever gives. -/
theorem item?_eq_getElem?_items (t : SyntaxTree) (id : NodeId) (n : Nat) :
    (t.ascent id).item? t n = (t.ancestors id).items[n]? := by
  by_cases hn : n ≤ maxAncestors
  · exact (Ascent.getElem?_items_chain (Nat.lt_succ_of_le hn)).symm
  · have hlength := Ascent.length_items_chain_le t (t.ascent id) (maxAncestors + 1)
    have hend : (t.ancestors id).items[n]? = none :=
      List.getElem?_eq_none (Nat.le_trans hlength (Nat.not_le.mp hn))
    rw [hend, Ascent.item?_eq_none_of_bound (Nat.not_le.mp hn)]

theorem ancestors_of_dangling (hnode : t.node? id = none) : t.ancestors id = ⟨[], none⟩ := by
  rw [ancestors_eq, parent?_of_dangling hnode, climb]

theorem ancestors_error_eq_none_iff :
    (t.ancestors id).error = none ↔ t.RootWithin maxAncestors id ∨ t.node? id = none := by
  cases hnode : t.node? id with
  | none => simp [ancestors_of_dangling hnode]
  | some node =>
      rw [ancestors_eq, parent?_of_node? hnode, climb_error_eq_none_iff id maxAncestors hnode]
      simp

theorem length_nodes_ancestors_le (t : SyntaxTree) (id : NodeId) :
    (t.ancestors id).nodes.length ≤ maxAncestors := by
  by_contra hlong
  have hlt : maxAncestors < (t.ancestors id).nodes.length := Nat.not_le.mp hlong
  have hitem : (t.ascent id).item? t maxAncestors = some (.ok (t.ancestors id).nodes[maxAncestors]) := by
    rw [item?_eq_getElem?_items, Chain.items, List.getElem?_append_left (by simpa using hlt),
      List.getElem?_map, List.getElem?_eq_getElem hlt, Option.map_some]
  exact Nat.lt_irrefl _ (Ascent.item?_eq_ok_iff.mp hitem).1

/-- **An ascent ends on every tree and gives exactly the ancestors.** What its steps give is a list of at
most 4097 items, and nothing after it. An item that is no error is a successive parent of the node with its
entry in the table; all of them that come before a handle without entry are given, but at most 4096. Only
the last item can be an error, and there is one unless a node without parent is reached within 4096 parents
or the node itself is not in the table, where nothing is given. After an error or after nothing, every later
step gives nothing. -/
theorem ascent_exact (t : SyntaxTree) (id : NodeId) :
    (∀ n, (t.ascent id).item? t n = (t.ancestors id).items[n]?) ∧
    (t.ancestors id).items.length ≤ 4097 ∧ (t.ancestors id).nodes.length ≤ 4096 ∧
    (∀ n entry, (t.ancestors id).items[n]? = some (.ok entry) ↔
      n < 4096 ∧ t.above id (n + 1) = some entry.1 ∧ t.node? entry.1 = some entry.2) ∧
    (∀ n error, (t.ancestors id).items[n]? = some (.error error) ↔
      ∃ x, t.above id (n + 1) = some x ∧ (n = 4096 ∧ error = .malformed id .tooDeep ∨
        n < 4096 ∧ t.node? x = none ∧ error = .invalidHandle .node x.index t.nodes.size)) ∧
    (∀ n error, (t.ancestors id).items[n]? = some (.error error) →
      n + 1 = (t.ancestors id).items.length) ∧
    ((∀ error, .error error ∉ (t.ancestors id).items) ↔ t.RootWithin 4096 id ∨ t.node? id = none) ∧
    (t.node? id = none → (t.ancestors id).items = []) ∧
    (∀ n, (∀ entry, (t.ascent id).item? t n ≠ some (.ok entry)) →
      ∀ m, n < m → (t.ascent id).item? t m = none) := by
  have hitems := item?_eq_getElem?_items t id
  refine ⟨hitems, Ascent.length_items_chain_le t (t.ascent id) 4097, length_nodes_ancestors_le t id,
    fun n entry => ?_, fun n error => ?_, fun n error herror => ?_, ?_, fun hnode => ?_,
    fun n hgives m => Ascent.item?_eq_none_of_lt hgives⟩
  · rw [← hitems]
    exact Ascent.item?_eq_ok_iff
  · rw [← hitems]
    exact Ascent.item?_eq_error_iff
  · obtain ⟨hlt, -⟩ := List.getElem?_eq_some_iff.mp herror
    rw [← hitems] at herror
    have hend : (t.ancestors id).items[n + 1]? = none := by
      rw [← hitems]
      exact Ascent.item?_eq_none_of_lt (by simp [herror]) n.lt_succ_self
    exact Nat.le_antisymm hlt (List.getElem?_eq_none_iff.mp hend)
  · simp only [Chain.error_mem_items, ← Option.eq_none_iff_forall_ne_some]
    exact ancestors_error_eq_none_iff
  · rw [ancestors_of_dangling hnode]
    rfl

theorem above_circle (n : Nat) :
    circle.above ⟨0⟩ n = some ⟨0⟩ ∨ circle.above ⟨0⟩ n = some ⟨1⟩ := by
  induction n with
  | zero => exact Or.inl rfl
  | succ n ih =>
      rcases ih with h | h
      · refine Or.inr ?_
        rw [above, h]
        rfl
      · refine Or.inl ?_
        rw [above, h]
        rfl

/-- Around the circle 4096 parents are given, then an error, then nothing. -/
theorem ascent_exact_circle :
    (circle.ancestors ⟨0⟩).items[4096]? = some (.error (.malformed ⟨0⟩ .tooDeep)) ∧
    (circle.ancestors ⟨0⟩).items.length = 4097 ∧
    (∀ m, 4096 < m → (circle.ascent ⟨0⟩).item? circle m = none) ∧
    circle.node? ⟨2⟩ = none ∧ (circle.ancestors ⟨2⟩).items = [] := by
  obtain ⟨hitems, -, -, -, herrors, hlast, -, -, hended⟩ := ascent_exact circle ⟨0⟩
  obtain ⟨-, -, -, -, -, -, -, hdangling, -⟩ := ascent_exact circle ⟨2⟩
  have habove : ∃ x, circle.above ⟨0⟩ (4096 + 1) = some x := by
    rcases above_circle (4096 + 1) with h | h
    · exact ⟨_, h⟩
    · exact ⟨_, h⟩
  obtain ⟨x, hx⟩ := habove
  have herror := (herrors 4096 (.malformed ⟨0⟩ .tooDeep)).mpr ⟨x, hx, Or.inl ⟨rfl, rfl⟩⟩
  refine ⟨herror, (hlast _ _ herror).symm, hended 4096 fun entry => ?_, rfl, hdangling rfl⟩
  rw [hitems, herror]
  simp

end SyntaxTree

end Uncaught
