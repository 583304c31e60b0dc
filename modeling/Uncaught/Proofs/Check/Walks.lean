import Uncaught.Check.Verdict
import Uncaught.Proofs.Tree.Scope

/-!
The two walks that decide about a checked call, as searches of a list of ancestors. Both stop at a
function, so on a node with a scope within the bound they search the scope and cannot fail. A node is
reported exactly if it is a checked call with such a scope that holds neither a handler nor an
exemption.
-/

namespace Uncaught

namespace Policy

variable (p : Policy)

@[simp] theorem covers_iff (names : List String) :
    p.covers names = true ↔ p.checkedException ∈ names := by
  simp [covers, isChecked]

@[simp] theorem caughtBy_iff (clauses : List CatchClause) :
    p.caughtBy clauses = true ↔ ∃ clause ∈ clauses, p.checkedException ∈ clause.caught := by
  simp only [caughtBy, List.any_eq_true, covers_iff]

/-- The search for a handler ends at this node. -/
def decides (entry : NodeId × Node) : Bool :=
  match entry.2.kind with
  | .tryScope clauses => p.caughtBy clauses
  | .function _ => true
  | .call _ | .lambda _ | .other => false

/-- The handler that a node is, where the search ends at it. -/
def handling (entry : NodeId × Node) : Option HandledBy :=
  match entry.2.kind with
  | .tryScope _ => some (.catchClause entry.1)
  | .function f => if p.covers f.throws then some (.declaration entry.1) else none
  | .call _ | .lambda _ | .other => none

/-- The handler on a scope. -/
def handlerIn (chain : List (NodeId × Node)) : Option HandledBy :=
  (chain.find? p.decides).bind p.handling

end Policy

/-- What a walk answers at the end of a chain. -/
def ending (α : Type) : Option TreeError → Except TreeError (Option α)
  | none => .ok none
  | some error => .error error

/-- The search for a lambda ends at this node. -/
def closes (entry : NodeId × Node) : Bool := entry.2.kind.isLambda || entry.2.kind.isFunction

/-- The lambda that a node is. -/
def lambdaSite? (entry : NodeId × Node) : Option LambdaSite :=
  match entry.2.kind with
  | .lambda interface => some ⟨entry.1, entry.2.parent, interface⟩
  | .call _ | .tryScope _ | .function _ | .other => none

/-- The innermost lambda on a scope. -/
def lambdaIn (chain : List (NodeId × Node)) : Option LambdaSite :=
  (chain.find? (·.2.kind.isLambda)).bind lambdaSite?

theorem lambdaSite?_eq_some {entry : NodeId × Node} {site : LambdaSite}
    (hsite : lambdaSite? entry = some site) :
    site.id = entry.1 ∧ site.parent = entry.2.parent ∧ entry.2.kind = .lambda site.interface := by
  obtain ⟨id, node⟩ := entry
  rw [lambdaSite?] at hsite
  cases hkind : node.kind with
  | lambda interface =>
      simp only [hkind, Option.some.injEq] at hsite
      subst hsite
      exact ⟨rfl, rfl, rfl⟩
  | call _ | tryScope _ | function _ | other => simp [hkind] at hsite

theorem Policy.handlerAlong_eq (p : Policy) (nodes : List (NodeId × Node)) (error : Option TreeError) :
    p.handlerAlong nodes error =
      (nodes.find? p.decides).elim (ending HandledBy error) fun entry => .ok (p.handling entry) := by
  induction nodes with
  | nil => cases error <;> rfl
  | cons entry rest ih =>
      obtain ⟨id, node⟩ := entry
      rw [handlerAlong, List.find?_cons]
      cases hkind : node.kind with
      | tryScope clauses =>
          cases hcaught : p.caughtBy clauses <;> simp [decides, handling, hkind, hcaught, ih]
      | function f => simp [decides, handling, hkind]
      | call _ | lambda _ | other => simp [decides, hkind, ih]

theorem lambdaAlong_eq (nodes : List (NodeId × Node)) (error : Option TreeError) :
    lambdaAlong nodes error =
      (nodes.find? closes).elim (ending LambdaSite error) fun entry => .ok (lambdaSite? entry) := by
  induction nodes with
  | nil => cases error <;> rfl
  | cons entry rest ih =>
      obtain ⟨id, node⟩ := entry
      rw [lambdaAlong, List.find?_cons]
      cases hkind : node.kind with
      | lambda interface => simp [closes, lambdaSite?, hkind, NodeKind.isLambda]
      | function f => simp [closes, lambdaSite?, hkind, NodeKind.isLambda, NodeKind.isFunction]
      | call _ | tryScope _ | other =>
          simp [closes, hkind, ih, NodeKind.isLambda, NodeKind.isFunction]

namespace SyntaxTree

variable {t : SyntaxTree} {p : Policy} {id receiver : NodeId} {node : Node}
  {chain : List (NodeId × Node)} {site : LambdaSite}

/-- The exemption of a lambda, where no look-up can fail. -/
def exemptionOf (t : SyntaxTree) (p : Policy) (site : LambdaSite) : Option Exemption :=
  if t.throwsByContract p site.interface then some (.throwingContract site.id)
  else site.parent.bind fun receiver => (t.node? receiver).bind fun node =>
    if t.receivesSafely p node then some (.safeMarker site.id receiver) else none

/-- The exemption on a scope. -/
def exemptionIn (t : SyntaxTree) (p : Policy) (chain : List (NodeId × Node)) : Option Exemption :=
  (lambdaIn chain).bind (t.exemptionOf p)

namespace Scope

/-- A search that stops at functions searches the scope. -/
theorem search_eq (hscope : t.Scope id chain) (hlength : chain.length ≤ maxAncestors) {α : Type}
    (stops : NodeId × Node → Bool)
    (hstops : ∀ entry : NodeId × Node, entry.2.kind.isFunction = true → stops entry = true)
    (found : NodeId × Node → Except TreeError (Option α)) :
    ((t.ancestors id).nodes.find? stops).elim (ending α (t.ancestors id).error) found =
      (chain.find? stops).elim (.ok none) found := by
  obtain ⟨rest, hnodes, hend⟩ := hscope.climb_eq id hlength
  rw [ancestors_eq, hnodes]
  rcases hend with ⟨rfl, herror⟩ | ⟨entry, hmem, hfunction⟩
  · rw [herror, List.append_nil]
    rfl
  · have hfind : (chain.find? stops).isSome :=
      List.find?_isSome.mpr ⟨entry, hmem, hstops entry hfunction⟩
    obtain ⟨first, hfirst⟩ := Option.isSome_iff_exists.mp hfind
    rw [List.find?_append, hfirst]
    rfl

theorem handler?_eq (hscope : t.Scope id chain) (hlength : chain.length ≤ maxAncestors)
    (p : Policy) : t.handler? p id = .ok (p.handlerIn chain) := by
  have hstops : ∀ entry : NodeId × Node, entry.2.kind.isFunction = true → p.decides entry = true := by
    rintro ⟨_, node⟩ hfunction
    cases hkind : node.kind <;> simp_all [NodeKind.isFunction, Policy.decides]
  rw [handler?, Policy.handlerAlong_eq, hscope.search_eq hlength p.decides hstops, Policy.handlerIn]
  cases chain.find? p.decides <;> rfl

/-- A function ends a scope, so a lambda on it comes before. -/
theorem lambdaIn_eq (hscope : t.Scope id chain) :
    lambdaIn chain = (chain.find? closes).bind lambdaSite? := by
  rw [lambdaIn]
  induction hscope with
  | root => rfl
  | @function _ f fnode _ _ hfunction =>
      cases hkind : fnode.kind <;> simp_all [NodeKind.isFunction, NodeKind.isLambda, closes, lambdaSite?]
  | @step _ a anode chain _ _ hinner _ ih =>
      rw [List.find?_cons, List.find?_cons]
      cases hlambda : anode.kind.isLambda with
      | true => simp [closes, hlambda]
      | false => simp [closes, hlambda, hinner, ih]

theorem enclosingLambda?_eq (hscope : t.Scope id chain) (hlength : chain.length ≤ maxAncestors) :
    t.enclosingLambda? id = .ok (lambdaIn chain) := by
  have hstops : ∀ entry : NodeId × Node, entry.2.kind.isFunction = true → closes entry = true := by
    intro entry hfunction
    rw [closes, hfunction, Bool.or_true]
  rw [enclosingLambda?, lambdaAlong_eq, hscope.search_eq hlength closes hstops, hscope.lambdaIn_eq]
  cases chain.find? closes <;> rfl

/-- The parent of a lambda on a scope is on the scope. -/
theorem exists_receiver (hscope : t.Scope id chain) (hsite : lambdaIn chain = some site)
    (hreceiver : site.parent = some receiver) : ∃ rnode, (receiver, rnode) ∈ chain := by
  rw [lambdaIn] at hsite
  induction hscope with
  | root => cases hsite
  | @function _ f fnode _ _ hfunction =>
      cases hkind : fnode.kind <;> simp_all [NodeKind.isFunction, NodeKind.isLambda]
  | @step _ a anode chain _ ha _ hrest ih =>
      rw [List.find?_cons] at hsite
      cases hlambda : anode.kind.isLambda with
      | true =>
          rw [hlambda] at hsite
          have hup : t.parent? a = some receiver := by
            rw [parent?_of_node? ha, ← hreceiver, (lambdaSite?_eq_some hsite).2.1]
          cases hrest with
          | root hnode hroot =>
              rw [parent?_of_node? hnode, hroot] at hup
              cases hup
          | @function _ f fnode hparent _ _ | @step _ f fnode _ hparent _ _ _ =>
              cases hparent.symm.trans hup
              exact ⟨fnode, by simp⟩
      | false =>
          rw [hlambda] at hsite
          obtain ⟨rnode, hmem⟩ := ih hsite
          exact ⟨rnode, List.mem_cons_of_mem _ hmem⟩

theorem exemption?_eq (hscope : t.Scope id chain) (hlength : chain.length ≤ maxAncestors)
    (p : Policy) : t.exemption? p id = .ok (t.exemptionIn p chain) := by
  rw [exemption?, hscope.enclosingLambda?_eq hlength, exemptionIn]
  cases hsite : lambdaIn chain with
  | none => rfl
  | some site =>
      change t.lambdaExemption? p site = .ok (t.exemptionOf p site)
      rw [lambdaExemption?, exemptionOf]
      split
      · rfl
      · cases hparent : site.parent with
        | none => rfl
        | some receiver =>
            obtain ⟨rnode, hmem⟩ := hscope.exists_receiver hsite hparent
            simp only [hscope.node?_of_mem hmem, Option.bind_some]

/-- On a scope within the bound the verdict on a checked call is never left open. -/
theorem checkedVerdict_eq (hscope : t.Scope id chain) (hlength : chain.length ≤ maxAncestors)
    (p : Policy) (source : Option String) (c : Call) :
    t.checkedVerdict p source id c =
      match p.handlerIn chain, t.exemptionIn p chain with
      | some h, _ => .handled h
      | none, some e => .exempt e
      | none, none => .violation (.ofCall p t.file source c) := by
  rw [checkedVerdict, hscope.handler?_eq hlength p]
  cases p.handlerIn chain with
  | some h => rfl
  | none =>
      rw [hscope.exemption?_eq hlength p]
      cases t.exemptionIn p chain <;> rfl

end Scope

/-- A node is a call that resolves to something that throws the checked exception. -/
def CheckedCall (t : SyntaxTree) (p : Policy) (id : NodeId) (c : Call) : Prop :=
  ∃ node d, t.node? id = some node ∧ node.kind = .call c ∧ t.resolve? c = some d ∧
    p.covers d.throws = true

theorem CheckedCall.exists_node? {c : Call} (hcall : t.CheckedCall p id c) :
    ∃ node, t.node? id = some node ∧ node.kind = .call c := by
  obtain ⟨node, -, hnode, hkind, -⟩ := hcall
  exact ⟨node, hnode, hkind⟩

theorem CheckedCall.verdict_eq {c : Call} (hcall : t.CheckedCall p id c) (source : Option String) :
    t.verdict p source id = t.checkedVerdict p source id c := by
  obtain ⟨node, d, hnode, hkind, hresolve, hcovers⟩ := hcall
  simp only [verdict, hnode, hkind, hresolve, hcovers, if_true]

/-- A walk that finds no handler has seen a whole scope. -/
theorem exists_scope_of_handler? (hnode : t.node? id = some node)
    (hhandler : t.handler? p id = .ok none) :
    ∃ chain, t.Scope id chain ∧ chain.length ≤ maxAncestors := by
  apply Scope.exists_of_climb id maxAncestors hnode
  rw [handler?, Policy.handlerAlong_eq, ancestors_eq, parent?_of_node? hnode] at hhandler
  cases hfind : (t.climb id maxAncestors node.parent).nodes.find? p.decides with
  | none =>
      rw [hfind] at hhandler
      cases herror : (t.climb id maxAncestors node.parent).error with
      | none => exact Or.inl rfl
      | some error =>
          rw [herror] at hhandler
          cases hhandler
  | some entry =>
      rw [hfind] at hhandler
      have hdecides := List.find?_some hfind
      have hhandling : p.handling entry = none := by simpa using hhandler
      refine Or.inr ⟨entry, List.mem_of_find?_eq_some hfind, ?_⟩
      cases hkind : entry.2.kind <;>
        simp_all [Policy.decides, Policy.handling, NodeKind.isFunction]

/-- What is not a checked call needs no walk. -/
theorem checkedCall_or_verdict_eq (p : Policy) (source : Option String)
    (hnode : t.node? id = some node) :
    (∃ c, t.CheckedCall p id c) ∨ t.verdict p source id = .unresolved ∨
      t.verdict p source id = .unchecked := by
  cases hkind : node.kind with
  | call c =>
      cases hresolve : t.resolve? c with
      | none => exact Or.inr (Or.inl (by simp only [verdict, hnode, hkind, hresolve]))
      | some d =>
          cases hcovers : p.covers d.throws with
          | true => exact Or.inl ⟨c, node, d, hnode, hkind, hresolve, hcovers⟩
          | false => exact Or.inr (Or.inr (by simp [verdict, hnode, hkind, hresolve, hcovers]))
  | tryScope _ | function _ | lambda _ | other =>
      exact Or.inr (Or.inr (by simp only [verdict, hnode, hkind]))

/-- Only checked calls are reported. -/
theorem exists_checkedCall {source : Option String} {v : Violation}
    (hverdict : t.verdict p source id = .violation v) : ∃ c, t.CheckedCall p id c := by
  cases hnode : t.node? id with
  | none => simp [verdict, hnode] at hverdict
  | some node =>
      rcases checkedCall_or_verdict_eq p source hnode with hcall | hother | hother
      · exact hcall
      · rw [hother] at hverdict
        cases hverdict
      · rw [hother] at hverdict
        cases hverdict

theorem handler?_of_checkedVerdict {source : Option String} {c : Call} {v : Violation}
    (hverdict : t.checkedVerdict p source id c = .violation v) : t.handler? p id = .ok none := by
  rw [checkedVerdict] at hverdict
  cases hhandler : t.handler? p id with
  | error error => simp [hhandler] at hverdict
  | ok handler =>
      cases handler with
      | some h => simp [hhandler] at hverdict
      | none => rfl

/-- The calls that are reported, in any tree. -/
theorem verdict_eq_violation_iff (source : Option String) (v : Violation) :
    t.verdict p source id = .violation v ↔
      ∃ c chain, t.CheckedCall p id c ∧ t.Scope id chain ∧ chain.length ≤ maxAncestors ∧
        p.handlerIn chain = none ∧ t.exemptionIn p chain = none ∧ v = .ofCall p t.file source c := by
  constructor
  · intro hverdict
    obtain ⟨c, hcall⟩ := exists_checkedCall hverdict
    rw [hcall.verdict_eq] at hverdict
    have hhandler := handler?_of_checkedVerdict hverdict
    obtain ⟨node, hnode, -⟩ := hcall.exists_node?
    obtain ⟨chain, hscope, hlength⟩ := exists_scope_of_handler? hnode hhandler
    rw [hscope.handler?_eq hlength, Except.ok.injEq] at hhandler
    rw [hscope.checkedVerdict_eq hlength, hhandler] at hverdict
    refine ⟨c, chain, hcall, hscope, hlength, hhandler, ?_⟩
    cases hexemption : t.exemptionIn p chain with
    | some e => simp [hexemption] at hverdict
    | none =>
        rw [hexemption, Verdict.violation.injEq] at hverdict
        exact ⟨rfl, hverdict.symm⟩
  · rintro ⟨c, chain, hcall, hscope, hlength, hhandler, hexemption, rfl⟩
    rw [hcall.verdict_eq, hscope.checkedVerdict_eq hlength, hhandler, hexemption]

end SyntaxTree

end Uncaught
