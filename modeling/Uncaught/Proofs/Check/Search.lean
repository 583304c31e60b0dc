import Uncaught.Proofs.Check.Conditions

/-!
Searches along the parents of a node in any tree, well formed or not. A search passes over ancestors
until it is stopped by one, until there is no parent, until a handle points nowhere, or until the bound
is used up. One of the four happens on every node of the table, and it alone decides the answer.
-/

namespace Uncaught

namespace SyntaxTree

section Search

variable (t : SyntaxTree) {α : Type} (stops : NodeId × Node → Bool)
  (found : NodeId × Node → Except TreeError (Option α)) (origin : NodeId)

/-- Searches from the handle `next` on, over at most `steps` nodes. -/
def search (steps : Nat) (next : Option NodeId) : Except TreeError (Option α) :=
  ((t.climb origin steps next).nodes.find? stops).elim
    (ending α (t.climb origin steps next).error) found

/-- The first `steps` ancestors of a node are in the table, and none of them stops the search. -/
def Passes (id : NodeId) (steps : Nat) : Prop :=
  ∀ j < steps, ∃ a node, t.above id (j + 1) = some a ∧ t.node? a = some node ∧ stops (a, node) = false

theorem search_root (steps : Nat) : t.search stops found origin steps none = .ok none := by
  rw [search, climb]
  rfl

theorem search_tooDeep (a : NodeId) :
    t.search stops found origin 0 (some a) = .error (.malformed origin .tooDeep) := by
  rw [search, climb]
  rfl

variable {t stops} {id a : NodeId} {node : Node} {k : Nat}

theorem search_dangling (ha : t.node? a = none) (steps : Nat) :
    t.search stops found origin (steps + 1) (some a) =
      .error (.invalidHandle .node a.index t.nodes.size) := by
  rw [search, climb, ha]
  rfl

theorem search_stopped (ha : t.node? a = some node) (hstops : stops (a, node) = true) (steps : Nat) :
    t.search stops found origin (steps + 1) (some a) = found (a, node) := by
  rw [search, climb, ha]
  simp only [List.find?_cons_of_pos hstops, Option.elim_some]

theorem search_passed (ha : t.node? a = some node) (hpasses : stops (a, node) = false) (steps : Nat) :
    t.search stops found origin (steps + 1) (some a) =
      t.search stops found origin steps node.parent := by
  have hnot : ¬stops (a, node) = true := by rw [hpasses]; exact Bool.false_ne_true
  rw [search, climb, ha]
  simp only [List.find?_cons_of_neg hnot, search]

theorem Passes.succ (hpasses : t.Passes stops id k) (ha : t.above id (k + 1) = some a)
    (hnode : t.node? a = some node) (hstop : stops (a, node) = false) :
    t.Passes stops id (k + 1) := by
  intro j hj
  rcases Nat.lt_succ_iff_lt_or_eq.mp hj with hlt | rfl
  · exact hpasses j hlt
  · exact ⟨a, node, ha, hnode, hstop⟩

theorem Passes.mono (hpasses : t.Passes stops id (k + 1)) : t.Passes stops id k :=
  fun j hj => hpasses j (Nat.lt_succ_of_lt hj)

/-- Ancestors that are passed over do not change the answer; they use up steps. -/
theorem Passes.search_eq (hpasses : t.Passes stops id k) (ha : t.above id k = some a) (steps : Nat) :
    t.search stops found origin (k + steps) (t.parent? id) =
      t.search stops found origin steps (t.parent? a) := by
  induction k generalizing a steps with
  | zero =>
      cases ha
      rw [Nat.zero_add]
  | succ k ih =>
      obtain ⟨c, node, hc, hnode, hstop⟩ := hpasses k (Nat.lt_succ_self k)
      obtain rfl : c = a := Option.some.inj (hc.symm.trans ha)
      obtain ⟨b, hb, hparent⟩ := Option.bind_eq_some_iff.mp hc
      calc t.search stops found origin (k + 1 + steps) (t.parent? id)
        _ = t.search stops found origin (k + (steps + 1)) (t.parent? id) := by
            rw [Nat.add_assoc, Nat.add_comm 1 steps]
        _ = t.search stops found origin (steps + 1) (some c) := by
            rw [ih hpasses.mono hb, hparent]
        _ = t.search stops found origin steps (t.parent? c) := by
            rw [search_passed found origin hnode hstop, parent?_of_node? hnode]

/-- How a search ends. -/
inductive SearchEnd where
  | stopped (entry : NodeId × Node)
  | root
  | dangling (handle : NodeId)
  | tooDeep

/-- The search along the parents of a node ends in this way. -/
inductive EndsIn (t : SyntaxTree) (stops : NodeId × Node → Bool) (id : NodeId) : SearchEnd → Prop
  | stopped {k : Nat} {a : NodeId} {node : Node} (hk : k < maxAncestors) (hpasses : t.Passes stops id k)
      (ha : t.above id (k + 1) = some a) (hnode : t.node? a = some node)
      (hstops : stops (a, node) = true) : EndsIn t stops id (.stopped (a, node))
  | root {k : Nat} {a : NodeId} {node : Node} (hk : k ≤ maxAncestors) (hpasses : t.Passes stops id k)
      (ha : t.above id k = some a) (hnode : t.node? a = some node) (hroot : node.parent = none) :
      EndsIn t stops id .root
  | dangling {k : Nat} {a : NodeId} (hk : k < maxAncestors) (hpasses : t.Passes stops id k)
      (ha : t.above id (k + 1) = some a) (hnode : t.node? a = none) : EndsIn t stops id (.dangling a)
  | tooDeep {a : NodeId} (hpasses : t.Passes stops id maxAncestors)
      (ha : t.above id (maxAncestors + 1) = some a) : EndsIn t stops id .tooDeep

/-- The answer of a search, by how it ends. -/
def SearchEnd.answer (t : SyntaxTree) (found : NodeId × Node → Except TreeError (Option α))
    (origin : NodeId) : SearchEnd → Except TreeError (Option α)
  | .stopped entry => found entry
  | .root => .ok none
  | .dangling handle => .error (.invalidHandle .node handle.index t.nodes.size)
  | .tooDeep => .error (.malformed origin .tooDeep)

theorem EndsIn.search_eq {e : SearchEnd} (hends : t.EndsIn stops id e) :
    t.search stops found origin maxAncestors (t.parent? id) = e.answer t found origin := by
  -- after the ancestors that are passed over, one more step decides
  have hnext : ∀ {k a}, k < maxAncestors → t.Passes stops id k → t.above id (k + 1) = some a →
      ∃ left, t.search stops found origin maxAncestors (t.parent? id) =
        t.search stops found origin (left + 1) (some a) := by
    intro k a hk hpasses ha
    obtain ⟨b, hb, hparent⟩ := Option.bind_eq_some_iff.mp ha
    obtain ⟨left, hleft⟩ := Nat.exists_eq_add_of_lt hk
    refine ⟨left, ?_⟩
    rw [hleft, Nat.add_assoc, hpasses.search_eq found origin hb, hparent]
  cases hends with
  | stopped hk hpasses ha hnode hstops =>
      obtain ⟨left, hleft⟩ := hnext hk hpasses ha
      rw [hleft, search_stopped found origin hnode hstops]
      rfl
  | @root k a node hk hpasses ha hnode hroot =>
      obtain ⟨left, hleft⟩ := Nat.exists_eq_add_of_le hk
      rw [hleft, hpasses.search_eq found origin ha, parent?_of_node? hnode, hroot, search_root]
      rfl
  | dangling hk hpasses ha hnode =>
      obtain ⟨left, hleft⟩ := hnext hk hpasses ha
      rw [hleft, search_dangling found origin hnode]
      rfl
  | tooDeep hpasses ha =>
      obtain ⟨b, hb, hparent⟩ := Option.bind_eq_some_iff.mp ha
      rw [← Nat.add_zero maxAncestors, hpasses.search_eq found origin hb, hparent, search_tooDeep]
      rfl

/-- A search that has passed over some ancestors ends in one of the four ways. -/
theorem Passes.exists_endsIn (hpasses : t.Passes stops id k) (ha : t.above id k = some a)
    (hnode : t.node? a = some node) (left : Nat) (hleft : k + left = maxAncestors) :
    ∃ e, t.EndsIn stops id e := by
  induction left generalizing k a node with
  | zero =>
      cases hparent : node.parent with
      | none => exact ⟨_, .root (Nat.le_of_eq hleft) hpasses ha hnode hparent⟩
      | some b =>
          obtain rfl : k = maxAncestors := hleft
          have hb : t.above id (maxAncestors + 1) = some b := by
            rw [above, ha, Option.bind_some, parent?_of_node? hnode, hparent]
          exact ⟨_, .tooDeep hpasses hb⟩
  | succ left ih =>
      have hk : k < maxAncestors := by omega
      cases hparent : node.parent with
      | none => exact ⟨_, .root (Nat.le_of_lt hk) hpasses ha hnode hparent⟩
      | some b =>
          have hb : t.above id (k + 1) = some b := by
            rw [above, ha, Option.bind_some, parent?_of_node? hnode, hparent]
          cases hbnode : t.node? b with
          | none => exact ⟨_, .dangling hk hpasses hb hbnode⟩
          | some bnode =>
              cases hstops : stops (b, bnode) with
              | true => exact ⟨_, .stopped hk hpasses hb hbnode hstops⟩
              | false => exact ih (hpasses.succ hb hbnode hstops) hb hbnode (by omega)

theorem exists_endsIn (stops : NodeId × Node → Bool) (hid : id.index.toNat < t.nodes.size) :
    ∃ e, t.EndsIn stops id e := by
  obtain ⟨node, hnode⟩ := exists_node?_iff.mpr hid
  have hnone : t.Passes stops id 0 := fun j hj => absurd hj (Nat.not_lt_zero j)
  exact hnone.exists_endsIn rfl hnode maxAncestors (Nat.zero_add _)

end Search

end SyntaxTree

/-! ### The search for a handler -/

/-- The search for a handler ends at a node of this kind: a function, or a try with a clause for the
checked exception. -/
def Policy.Decisive (p : Policy) : NodeKind → Prop
  | .function _ => True
  | .tryScope clauses => ∃ clause ∈ clauses, p.checkedException ∈ clause.caught
  | .call _ | .lambda _ | .other => False

theorem Policy.decides_iff_decisive (p : Policy) (entry : NodeId × Node) :
    p.decides entry = true ↔ p.Decisive entry.2.kind := by
  rw [decides]
  cases entry.2.kind with
  | tryScope clauses => exact p.caughtBy_iff clauses
  | function f => exact iff_of_true rfl trivial
  | call _ | lambda _ | other => exact iff_of_false Bool.false_ne_true id

theorem Policy.decides_eq_false_iff (p : Policy) (entry : NodeId × Node) :
    p.decides entry = false ↔ ¬p.Decisive entry.2.kind := by
  rw [← decides_iff_decisive, Bool.not_eq_true]

namespace SyntaxTree

variable {t : SyntaxTree} {p : Policy} {id : NodeId}

/-- The first `steps` ancestors of a node are in the table, and none of them is decisive. -/
def Undecided (t : SyntaxTree) (p : Policy) (id : NodeId) (steps : Nat) : Prop :=
  ∀ j < steps, ∃ a node, t.above id (j + 1) = some a ∧ t.node? a = some node ∧ ¬p.Decisive node.kind

theorem passes_iff_undecided (k : Nat) : t.Passes p.decides id k ↔ t.Undecided p id k := by
  simp only [Passes, Undecided, p.decides_eq_false_iff]

/-- The answers of a search for a handler: the first decisive ancestor gives it, a try as a handler and
a function by what it declares. Without one the answer is that there is no handler if a node without
parent is reached within the bound, and otherwise the error that the parents break off with. -/
inductive HandlerIs (t : SyntaxTree) (p : Policy) (id : NodeId) :
    Except TreeError (Option HandledBy) → Prop
  | caught {k : Nat} {a : NodeId} {node : Node} {clauses : List CatchClause} (hk : k < maxAncestors)
      (hbefore : t.Undecided p id k) (ha : t.above id (k + 1) = some a) (hnode : t.node? a = some node)
      (hkind : node.kind = .tryScope clauses) (hdecisive : p.Decisive node.kind) :
      HandlerIs t p id (.ok (some (.catchClause a)))
  | declared {k : Nat} {a : NodeId} {node : Node} {f : FunctionDecl} (hk : k < maxAncestors)
      (hbefore : t.Undecided p id k) (ha : t.above id (k + 1) = some a) (hnode : t.node? a = some node)
      (hkind : node.kind = .function f) (hthrows : p.checkedException ∈ f.throws) :
      HandlerIs t p id (.ok (some (.declaration a)))
  | undeclared {k : Nat} {a : NodeId} {node : Node} {f : FunctionDecl} (hk : k < maxAncestors)
      (hbefore : t.Undecided p id k) (ha : t.above id (k + 1) = some a) (hnode : t.node? a = some node)
      (hkind : node.kind = .function f) (hthrows : p.checkedException ∉ f.throws) :
      HandlerIs t p id (.ok none)
  | root {k : Nat} {a : NodeId} {node : Node} (hk : k ≤ maxAncestors) (hbefore : t.Undecided p id k)
      (ha : t.above id k = some a) (hnode : t.node? a = some node) (hroot : node.parent = none) :
      HandlerIs t p id (.ok none)
  | dangling {k : Nat} {a : NodeId} (hk : k < maxAncestors) (hbefore : t.Undecided p id k)
      (ha : t.above id (k + 1) = some a) (hout : t.nodes.size ≤ a.index.toNat) :
      HandlerIs t p id (.error (.invalidHandle .node a.index t.nodes.size))
  | tooDeep {a : NodeId} (hbefore : t.Undecided p id maxAncestors)
      (ha : t.above id (maxAncestors + 1) = some a) :
      HandlerIs t p id (.error (.malformed id .tooDeep))

theorem handler?_eq_search (t : SyntaxTree) (p : Policy) (id : NodeId) :
    t.handler? p id =
      t.search p.decides (fun entry => .ok (p.handling entry)) id maxAncestors (t.parent? id) := by
  rw [handler?, Policy.handlerAlong_eq, search, ← ancestors_eq]

theorem node?_eq_none_iff {a : NodeId} : t.node? a = none ↔ t.nodes.size ≤ a.index.toNat :=
  Array.getElem?_eq_none_iff

/-- Each rule is a way for the search to end, with its answer. -/
theorem HandlerIs.handler?_eq {result : Except TreeError (Option HandledBy)}
    (hresult : t.HandlerIs p id result) : t.handler? p id = result := by
  rw [handler?_eq_search]
  cases hresult with
  | @caught k a node clauses hk hbefore ha hnode hkind hdecisive =>
      have hstops := (p.decides_iff_decisive (a, node)).mpr hdecisive
      rw [EndsIn.search_eq _ id (.stopped hk (passes_iff_undecided k |>.mpr hbefore) ha hnode hstops)]
      simp only [SearchEnd.answer, Policy.handling, hkind]
  | @declared k a node f hk hbefore ha hnode hkind hthrows =>
      have hstops : p.decides (a, node) = true := by simp only [Policy.decides, hkind]
      rw [EndsIn.search_eq _ id (.stopped hk (passes_iff_undecided k |>.mpr hbefore) ha hnode hstops)]
      simp only [SearchEnd.answer, Policy.handling, hkind, if_pos ((p.covers_iff _).mpr hthrows)]
  | @undeclared k a node f hk hbefore ha hnode hkind hthrows =>
      have hstops : p.decides (a, node) = true := by simp only [Policy.decides, hkind]
      rw [EndsIn.search_eq _ id (.stopped hk (passes_iff_undecided k |>.mpr hbefore) ha hnode hstops)]
      simp only [SearchEnd.answer, Policy.handling, hkind, if_neg (mt (p.covers_iff _).mp hthrows)]
  | @root k _ _ hk hbefore ha hnode hroot =>
      exact EndsIn.search_eq _ id (.root hk (passes_iff_undecided k |>.mpr hbefore) ha hnode hroot)
  | @dangling k _ hk hbefore ha hout =>
      exact EndsIn.search_eq _ id
        (.dangling hk (passes_iff_undecided k |>.mpr hbefore) ha (node?_eq_none_iff.mpr hout))
  | tooDeep hbefore ha =>
      exact EndsIn.search_eq _ id (.tooDeep (passes_iff_undecided _ |>.mpr hbefore) ha)

/-- Every way for the search to end has its rule. -/
theorem EndsIn.exists_handlerIs {e : SearchEnd} (hends : t.EndsIn p.decides id e) :
    ∃ result, t.HandlerIs p id result := by
  cases hends with
  | @stopped k a node hk hpasses ha hnode hstops =>
      have hbefore := passes_iff_undecided k |>.mp hpasses
      have hdecisive := (p.decides_iff_decisive (a, node)).mp hstops
      cases hkind : node.kind with
      | tryScope clauses => exact ⟨_, .caught hk hbefore ha hnode hkind hdecisive⟩
      | function f =>
          by_cases hthrows : p.checkedException ∈ f.throws
          · exact ⟨_, .declared hk hbefore ha hnode hkind hthrows⟩
          · exact ⟨_, .undeclared hk hbefore ha hnode hkind hthrows⟩
      | call _ | lambda _ | other =>
          rw [hkind] at hdecisive
          exact hdecisive.elim
  | @root k _ _ hk hpasses ha hnode hroot =>
      exact ⟨_, .root hk (passes_iff_undecided k |>.mp hpasses) ha hnode hroot⟩
  | @dangling k _ hk hpasses ha hnode =>
      exact ⟨_, .dangling hk (passes_iff_undecided k |>.mp hpasses) ha (node?_eq_none_iff.mp hnode)⟩
  | tooDeep hpasses ha => exact ⟨_, .tooDeep (passes_iff_undecided _ |>.mp hpasses) ha⟩

/-- **The handler in any tree.** On a node of the table the search for a handler answers by the rules
of `HandlerIs` and by nothing else, whatever the parents above the node are: the rules cover every
chain of parents, and no chain falls under rules with different answers. -/
theorem handler?_exact (t : SyntaxTree) (p : Policy) (id : NodeId)
    (hid : id.index.toNat < t.nodes.size) (result : Except TreeError (Option HandledBy)) :
    t.handler? p id = result ↔ t.HandlerIs p id result := by
  refine ⟨fun hresult => ?_, HandlerIs.handler?_eq⟩
  obtain ⟨e, hends⟩ := exists_endsIn p.decides hid
  obtain ⟨answer, hanswer⟩ := hends.exists_handlerIs
  rwa [← hresult, hanswer.handler?_eq]

/-- A node that is its own parent. -/
def ownParent : SyntaxTree := { nestedCall with nodes := #[⟨some ⟨0⟩, ⟨0, 9⟩, .other⟩] }

theorem ownParent_above (steps : Nat) : ownParent.above ⟨0⟩ steps = some ⟨0⟩ := by
  induction steps with
  | zero => rfl
  | succ steps ih => rw [above, ih]; rfl

/-- Looking for the exception that the try of `nestedCall` catches, the search from the inner call passes
over a lambda and a call and finds the try; above `ownParent` it passes over nodes until the bound. -/
theorem handler?_exact_ownParent :
    nestedCall.handler? (.ofNames "IOException" "Safe") ⟨4⟩ = .ok (some (.catchClause ⟨1⟩)) ∧
    ownParent.handler? (.ofNames "Checked" "Safe") ⟨0⟩ = .error (.malformed ⟨0⟩ .tooDeep) := by
  constructor
  · apply (handler?_exact nestedCall _ _ (by decide) _).mpr
    have hbefore : nestedCall.Undecided (.ofNames "IOException" "Safe") ⟨4⟩ 2 := by
      intro j hj
      match j with
      | 0 => exact ⟨⟨3⟩, _, rfl, rfl, id⟩
      | 1 => exact ⟨⟨2⟩, _, rfl, rfl, id⟩
    exact .caught (by decide) hbefore rfl rfl rfl ⟨_, List.mem_singleton_self _, List.mem_singleton_self _⟩
  · apply (handler?_exact ownParent _ _ (by decide) _).mpr
    have hbefore : ownParent.Undecided (.ofNames "Checked" "Safe") ⟨0⟩ maxAncestors :=
      fun j _ => ⟨⟨0⟩, _, ownParent_above (j + 1), rfl, id⟩
    exact .tooDeep hbefore (ownParent_above _)

end SyntaxTree

end Uncaught
