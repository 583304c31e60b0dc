import Uncaught.Proofs.Check.Locality
import Uncaught.Proofs.Check.Search

/-!
Exemptions in any tree, well formed or not. The search for a lambda ends at the first ancestor that is a
lambda or a function. What a lambda is exempt by is read off its interface and off its parent alone; the
parent is looked up apart from the search, so the bound on ancestors does not apply to it, but it may
point nowhere. Lambdas further out have no say.
-/

namespace Uncaught

/-- The search for a lambda ends at a node of this kind. -/
def NodeKind.Closes : NodeKind → Prop
  | .lambda _ | .function _ => True
  | .call _ | .tryScope _ | .other => False

theorem closes_iff (entry : NodeId × Node) : closes entry = true ↔ entry.2.kind.Closes := by
  rw [closes]
  cases entry.2.kind with
  | lambda _ | function _ => exact iff_of_true rfl trivial
  | call _ | tryScope _ | other => exact iff_of_false Bool.false_ne_true id

theorem closes_eq_false_iff (entry : NodeId × Node) : closes entry = false ↔ ¬entry.2.kind.Closes := by
  rw [← closes_iff, Bool.not_eq_true]

namespace SyntaxTree

variable {t t' : SyntaxTree} {p : Policy} {id lambda receiver : NodeId} {lnode : Node} {k : Nat}

/-- The first `steps` ancestors of a node are in the table, and none of them is a lambda or a
function. -/
def Unclosed (t : SyntaxTree) (id : NodeId) (steps : Nat) : Prop :=
  ∀ j < steps, ∃ a node, t.above id (j + 1) = some a ∧ t.node? a = some node ∧ ¬node.kind.Closes

/-- The innermost lambda around a node, with no function before it and within the bound. -/
def InnermostLambda (t : SyntaxTree) (id lambda : NodeId) (lnode : Node) : Prop :=
  ∃ k < maxAncestors, t.Unclosed id k ∧ t.above id (k + 1) = some lambda ∧
    t.node? lambda = some lnode ∧ ∃ interface, lnode.kind = .lambda interface

/-- The answers of a search for an exemption. The innermost lambda gives it if there is one: its
interface comes first, whatever its parent is, then its parent. Without a lambda the answer is that there
is no exemption if a function or a node without parent comes first, and otherwise the error that the
parents break off with. -/
inductive ExemptionIs (t : SyntaxTree) (p : Policy) (id : NodeId) :
    Except TreeError (Option Exemption) → Prop
  | contract {lambda : NodeId} {lnode : Node} (hlambda : t.InnermostLambda id lambda lnode)
      (hcontract : t.ExemptByContract p lnode) :
      ExemptionIs t p id (.ok (some (.throwingContract lambda)))
  | marker {lambda receiver : NodeId} {lnode : Node} (hlambda : t.InnermostLambda id lambda lnode)
      (hcontract : ¬t.ExemptByContract p lnode) (hreceiver : lnode.parent = some receiver)
      (hmarker : t.ExemptByMarker p lnode) :
      ExemptionIs t p id (.ok (some (.safeMarker lambda receiver)))
  | noReceiver {lambda receiver : NodeId} {lnode : Node} (hlambda : t.InnermostLambda id lambda lnode)
      (hcontract : ¬t.ExemptByContract p lnode) (hreceiver : lnode.parent = some receiver)
      (hout : t.nodes.size ≤ receiver.index.toNat) :
      ExemptionIs t p id (.error (.invalidHandle .node receiver.index t.nodes.size))
  | plain {lambda : NodeId} {lnode : Node} (hlambda : t.InnermostLambda id lambda lnode)
      (hcontract : ¬t.ExemptByContract p lnode) (hmarker : ¬t.ExemptByMarker p lnode)
      (hin : ∀ receiver, lnode.parent = some receiver → receiver.index.toNat < t.nodes.size) :
      ExemptionIs t p id (.ok none)
  | function {k : Nat} {a : NodeId} {node : Node} {f : FunctionDecl} (hk : k < maxAncestors)
      (hbefore : t.Unclosed id k) (ha : t.above id (k + 1) = some a) (hnode : t.node? a = some node)
      (hkind : node.kind = .function f) : ExemptionIs t p id (.ok none)
  | root {k : Nat} {a : NodeId} {node : Node} (hk : k ≤ maxAncestors) (hbefore : t.Unclosed id k)
      (ha : t.above id k = some a) (hnode : t.node? a = some node) (hroot : node.parent = none) :
      ExemptionIs t p id (.ok none)
  | dangling {k : Nat} {a : NodeId} (hk : k < maxAncestors) (hbefore : t.Unclosed id k)
      (ha : t.above id (k + 1) = some a) (hout : t.nodes.size ≤ a.index.toNat) :
      ExemptionIs t p id (.error (.invalidHandle .node a.index t.nodes.size))
  | tooDeep {a : NodeId} (hbefore : t.Unclosed id maxAncestors)
      (ha : t.above id (maxAncestors + 1) = some a) :
      ExemptionIs t p id (.error (.malformed id .tooDeep))

theorem passes_iff_unclosed (k : Nat) : t.Passes closes id k ↔ t.Unclosed id k := by
  simp only [Passes, Unclosed, closes_eq_false_iff]

/-- What a search for an exemption answers where it ends. -/
def closing (t : SyntaxTree) (p : Policy) (entry : NodeId × Node) :
    Except TreeError (Option Exemption) :=
  (lambdaSite? entry).elim (.ok none) (t.lambdaExemption? p)

theorem closing_lambda (t : SyntaxTree) (p : Policy) (a : NodeId) {node : Node}
    {interface : Option TypeId} (hkind : node.kind = .lambda interface) :
    t.closing p (a, node) = t.lambdaExemption? p ⟨a, node.parent, interface⟩ := by
  simp only [closing, lambdaSite?, hkind, Option.elim_some]

theorem closing_function (t : SyntaxTree) (p : Policy) (a : NodeId) {node : Node} {f : FunctionDecl}
    (hkind : node.kind = .function f) : t.closing p (a, node) = .ok none := by
  simp only [closing, lambdaSite?, hkind, Option.elim_none]

theorem exemption?_eq_search (t : SyntaxTree) (p : Policy) (id : NodeId) :
    t.exemption? p id = t.search closes (t.closing p) id maxAncestors (t.parent? id) := by
  rw [exemption?, enclosingLambda?, lambdaAlong_eq, search, ← ancestors_eq]
  cases (t.ancestors id).nodes.find? closes with
  | none => cases (t.ancestors id).error <;> rfl
  | some entry =>
      rw [Option.elim_some, Option.elim_some, closing]
      cases lambdaSite? entry <;> rfl

theorem InnermostLambda.exemption?_eq (hlambda : t.InnermostLambda id lambda lnode) (p : Policy) :
    t.exemption? p id = t.closing p (lambda, lnode) := by
  obtain ⟨k, hk, hbefore, ha, hnode, interface, hkind⟩ := hlambda
  have hcloses : closes (lambda, lnode) = true := by
    rw [closes_iff, hkind]
    trivial
  rw [exemption?_eq_search]
  exact EndsIn.search_eq _ id (.stopped hk (passes_iff_unclosed k |>.mpr hbefore) ha hnode hcloses)

theorem InnermostLambda.exemption?_of_contract (hlambda : t.InnermostLambda id lambda lnode)
    (hcontract : t.ExemptByContract p lnode) :
    t.exemption? p id = .ok (some (.throwingContract lambda)) := by
  rw [hlambda.exemption?_eq]
  obtain ⟨_, _, _, _, _, interface, hkind⟩ := hlambda
  rw [closing_lambda t p lambda hkind, lambdaExemption?,
    if_pos ((t.throwsByContract_iff p hkind).mpr hcontract)]

/-- Without a contract the parent of the lambda decides. -/
theorem InnermostLambda.exemption?_of_not_contract (hlambda : t.InnermostLambda id lambda lnode)
    (hcontract : ¬t.ExemptByContract p lnode) :
    t.exemption? p id = lnode.parent.elim (.ok none) fun receiver =>
      (t.node? receiver).elim (.error (.invalidHandle .node receiver.index t.nodes.size)) fun rnode =>
        .ok (if t.receivesSafely p rnode then some (.safeMarker lambda receiver) else none) := by
  rw [hlambda.exemption?_eq]
  obtain ⟨_, _, _, _, _, interface, hkind⟩ := hlambda
  rw [closing_lambda t p lambda hkind, lambdaExemption?,
    if_neg (mt (t.throwsByContract_iff p hkind).mp hcontract)]
  cases lnode.parent with
  | none => rfl
  | some receiver =>
      simp only [Option.elim_some]
      cases t.node? receiver <;> rfl

/-- The marker is read off the node that the parent of the lambda points to. -/
theorem exemptByMarker_iff_of_receiver (hreceiver : lnode.parent = some receiver) {rnode : Node}
    (hnode : t.node? receiver = some rnode) :
    t.ExemptByMarker p lnode ↔ t.receivesSafely p rnode = true := by
  rw [exemptByMarker_iff]
  refine ⟨fun ⟨other, onode, hother, honode, hsafely⟩ => ?_, fun hsafely =>
    ⟨receiver, rnode, hreceiver, hnode, hsafely⟩⟩
  obtain rfl : receiver = other := Option.some.inj (hreceiver.symm.trans hother)
  obtain rfl : rnode = onode := Option.some.inj (hnode.symm.trans honode)
  exact hsafely

theorem ExemptByMarker.exists_receiver (hmarker : t.ExemptByMarker p lnode) :
    ∃ receiver rnode, lnode.parent = some receiver ∧ t.node? receiver = some rnode := by
  obtain ⟨receiver, rnode, _, _, _, hreceiver, hnode, -⟩ := hmarker
  exact ⟨receiver, rnode, hreceiver, hnode⟩

/-- Each rule is a way for the search to end, with its answer. -/
theorem ExemptionIs.exemption?_eq {result : Except TreeError (Option Exemption)}
    (hresult : t.ExemptionIs p id result) : t.exemption? p id = result := by
  cases hresult with
  | contract hlambda hcontract => exact hlambda.exemption?_of_contract hcontract
  | @marker lambda receiver lnode hlambda hcontract hreceiver hmarker =>
      obtain ⟨other, rnode, hother, hnode⟩ := hmarker.exists_receiver
      obtain rfl : receiver = other := Option.some.inj (hreceiver.symm.trans hother)
      have hsafely := (exemptByMarker_iff_of_receiver hreceiver hnode).mp hmarker
      rw [hlambda.exemption?_of_not_contract hcontract, hreceiver, Option.elim_some, hnode,
        Option.elim_some, if_pos hsafely]
  | noReceiver hlambda hcontract hreceiver hout =>
      rw [hlambda.exemption?_of_not_contract hcontract, hreceiver, Option.elim_some,
        node?_eq_none_iff.mpr hout, Option.elim_none]
  | @plain lambda lnode hlambda hcontract hmarker hin =>
      rw [hlambda.exemption?_of_not_contract hcontract]
      cases hreceiver : lnode.parent with
      | none => rfl
      | some receiver =>
          obtain ⟨rnode, hnode⟩ := exists_node?_iff.mpr (hin receiver hreceiver)
          have hunsafe := mt (exemptByMarker_iff_of_receiver hreceiver hnode).mpr hmarker
          rw [Option.elim_some, hnode, Option.elim_some, if_neg hunsafe]
  | @function k a node f hk hbefore ha hnode hkind =>
      have hcloses : closes (a, node) = true := by
        rw [closes_iff, hkind]
        trivial
      rw [exemption?_eq_search,
        EndsIn.search_eq _ id (.stopped hk (passes_iff_unclosed k |>.mpr hbefore) ha hnode hcloses)]
      exact closing_function t p a hkind
  | @root k _ _ hk hbefore ha hnode hroot =>
      rw [exemption?_eq_search]
      exact EndsIn.search_eq _ id (.root hk (passes_iff_unclosed k |>.mpr hbefore) ha hnode hroot)
  | @dangling k _ hk hbefore ha hout =>
      rw [exemption?_eq_search]
      exact EndsIn.search_eq _ id
        (.dangling hk (passes_iff_unclosed k |>.mpr hbefore) ha (node?_eq_none_iff.mpr hout))
  | tooDeep hbefore ha =>
      rw [exemption?_eq_search]
      exact EndsIn.search_eq _ id (.tooDeep (passes_iff_unclosed _ |>.mpr hbefore) ha)

/-- Every innermost lambda falls under one of the rules. -/
theorem InnermostLambda.exists_exemptionIs (hlambda : t.InnermostLambda id lambda lnode) (p : Policy) :
    ∃ result, t.ExemptionIs p id result := by
  by_cases hcontract : t.ExemptByContract p lnode
  · exact ⟨_, .contract hlambda hcontract⟩
  by_cases hmarker : t.ExemptByMarker p lnode
  · obtain ⟨receiver, _, hreceiver, -⟩ := hmarker.exists_receiver
    exact ⟨_, .marker hlambda hcontract hreceiver hmarker⟩
  by_cases hin : ∀ receiver, lnode.parent = some receiver → receiver.index.toNat < t.nodes.size
  · exact ⟨_, .plain hlambda hcontract hmarker hin⟩
  · obtain ⟨receiver, hout⟩ := not_forall.mp hin
    obtain ⟨hreceiver, hout⟩ := Classical.not_imp.mp hout
    exact ⟨_, .noReceiver hlambda hcontract hreceiver (Nat.le_of_not_lt hout)⟩

/-- Every way for the search to end has its rule. -/
theorem EndsIn.exists_exemptionIs {e : SearchEnd} (hends : t.EndsIn closes id e) (p : Policy) :
    ∃ result, t.ExemptionIs p id result := by
  cases hends with
  | @stopped k a node hk hpasses ha hnode hstops =>
      have hbefore := passes_iff_unclosed k |>.mp hpasses
      have hcloses := (closes_iff (a, node)).mp hstops
      cases hkind : node.kind with
      | lambda interface =>
          have hlambda : t.InnermostLambda id a node := ⟨k, hk, hbefore, ha, hnode, interface, hkind⟩
          exact hlambda.exists_exemptionIs p
      | function f => exact ⟨_, .function hk hbefore ha hnode hkind⟩
      | call _ | tryScope _ | other =>
          rw [hkind] at hcloses
          exact hcloses.elim
  | @root k _ _ hk hpasses ha hnode hroot =>
      exact ⟨_, .root hk (passes_iff_unclosed k |>.mp hpasses) ha hnode hroot⟩
  | @dangling k _ hk hpasses ha hnode =>
      exact ⟨_, .dangling hk (passes_iff_unclosed k |>.mp hpasses) ha (node?_eq_none_iff.mp hnode)⟩
  | tooDeep hpasses ha => exact ⟨_, .tooDeep (passes_iff_unclosed _ |>.mp hpasses) ha⟩

theorem exemption?_eq_iff (p : Policy) (hid : id.index.toNat < t.nodes.size)
    (result : Except TreeError (Option Exemption)) :
    t.exemption? p id = result ↔ t.ExemptionIs p id result := by
  refine ⟨fun hresult => ?_, ExemptionIs.exemption?_eq⟩
  obtain ⟨e, hends⟩ := exists_endsIn closes hid
  obtain ⟨answer, hanswer⟩ := hends.exists_exemptionIs p
  rwa [← hresult, hanswer.exemption?_eq]

/-- The other tree is the same, but for lambdas that are neither the node nor its innermost lambda: in
the place of each may stand any node that is not a call, with any parent. -/
structure OuterLambdasDiffer (t t' : SyntaxTree) (id lambda : NodeId) : Prop where
  size : t'.nodes.size = t.nodes.size
  declarations : t'.declarations = t.declarations
  types : t'.types = t.types
  node : ∀ a, t'.node? a = t.node? a ∨
    a ≠ id ∧ a ≠ lambda ∧ ∃ node node' interface, t.node? a = some node ∧
      node.kind = .lambda interface ∧ t'.node? a = some node' ∧ ∀ c, node'.kind ≠ .call c

/-- The handles above a node are the same as long as the nodes that name them are. -/
theorem above_congr
    (hsame : ∀ j < k, ∀ a, t.above id j = some a → t'.node? a = t.node? a) :
    t'.above id k = t.above id k := by
  induction k with
  | zero => rfl
  | succ k ih =>
      rw [above, above, ih fun j hj => hsame j (Nat.lt_succ_of_lt hj)]
      cases ha : t.above id k with
      | none => rfl
      | some a =>
          rw [Option.bind_some, Option.bind_some, parent?, parent?, hsame k (Nat.lt_succ_self k) a ha]

namespace OuterLambdasDiffer

theorem node?_id (hdiffer : t.OuterLambdasDiffer t' id lambda) : t'.node? id = t.node? id := by
  rcases hdiffer.node id with hsame | ⟨hne, -⟩
  · exact hsame
  · exact absurd rfl hne

theorem node?_lambda (hdiffer : t.OuterLambdasDiffer t' id lambda) :
    t'.node? lambda = t.node? lambda := by
  rcases hdiffer.node lambda with hsame | ⟨-, hne, -⟩
  · exact hsame
  · exact absurd rfl hne

theorem node?_of_not_closes (hdiffer : t.OuterLambdasDiffer t' id lambda) {a : NodeId} {node : Node}
    (hnode : t.node? a = some node) (hopen : ¬node.kind.Closes) : t'.node? a = t.node? a := by
  rcases hdiffer.node a with hsame | ⟨-, -, other, _, interface, hother, hkind, -⟩
  · exact hsame
  · obtain rfl : node = other := Option.some.inj (hnode.symm.trans hother)
    rw [hkind] at hopen
    exact absurd trivial hopen

/-- The innermost lambda stays where it is: nothing on the way to it is a lambda. -/
theorem innermostLambda (hdiffer : t.OuterLambdasDiffer t' id lambda)
    (hlambda : t.InnermostLambda id lambda lnode) : t'.InnermostLambda id lambda lnode := by
  obtain ⟨k, hk, hbefore, ha, hnode, hkind⟩ := hlambda
  have hsame : ∀ j < k + 1, ∀ a, t.above id j = some a → t'.node? a = t.node? a := by
    intro j hj a ha
    cases j with
    | zero =>
        cases ha
        exact hdiffer.node?_id
    | succ j =>
        obtain ⟨b, bnode, hb, hbnode, hopen⟩ := hbefore j (Nat.lt_of_succ_lt_succ hj)
        obtain rfl : b = a := Option.some.inj (hb.symm.trans ha)
        exact hdiffer.node?_of_not_closes hbnode hopen
  have habove : ∀ j ≤ k, t'.above id (j + 1) = t.above id (j + 1) := by
    intro j hj
    apply above_congr
    intro i hi
    exact hsame i (Nat.lt_of_lt_of_le hi (Nat.succ_le_succ hj))
  refine ⟨k, hk, fun j hj => ?_, (habove k (Nat.le_refl k)).trans ha,
    hdiffer.node?_lambda.trans hnode, hkind⟩
  obtain ⟨a, node, ha, hnode, hopen⟩ := hbefore j hj
  exact ⟨a, node, (habove j (Nat.le_of_lt hj)).trans ha,
    (hdiffer.node?_of_not_closes hnode hopen).trans hnode, hopen⟩

/-- A lambda that receives a lambda does not carry a marker, and neither does what stands in its
place. -/
theorem receives_eq (hdiffer : t.OuterLambdasDiffer t' id lambda) (p : Policy) (receiver : NodeId) :
    (t'.node? receiver).map (t'.receivesSafely p) = (t.node? receiver).map (t.receivesSafely p) := by
  have htables := TablesAgree.of_eq hdiffer.declarations hdiffer.types
  rcases hdiffer.node receiver with hsame | ⟨-, -, node, node', interface, hnode, hkind, hnode', hcall⟩
  · rw [hsame]
    cases hnode : t.node? receiver with
    | none => rfl
    | some node => exact congrArg some (htables.receivesSafely_eq hnode rfl)
  · have hunsafe : t.receivesSafely p node = false := by simp only [receivesSafely, hkind]
    have hunsafe' : t'.receivesSafely p node' = false := by
      rw [receivesSafely]
      cases hk : node'.kind with
      | call c => exact absurd hk (hcall c)
      | tryScope _ | function _ | lambda _ | other => rfl
    rw [hnode, hnode', Option.map_some, Option.map_some, hunsafe, hunsafe']

theorem exemption?_eq (hdiffer : t.OuterLambdasDiffer t' id lambda)
    (hlambda : t.InnermostLambda id lambda lnode) (p : Policy) :
    t'.exemption? p id = t.exemption? p id := by
  rw [hlambda.exemption?_eq, (hdiffer.innermostLambda hlambda).exemption?_eq]
  obtain ⟨_, _, _, _, hnode, interface, hkind⟩ := hlambda
  have htables := TablesAgree.of_eq hdiffer.declarations hdiffer.types
  have hcontract : t'.throwsByContract p interface = t.throwsByContract p interface := by
    rw [throwsByContract, throwsByContract, htables.contract hnode hkind]
  rw [closing_lambda t p lambda hkind, closing_lambda t' p lambda hkind, lambdaExemption?,
    lambdaExemption?, hcontract]
  cases hreceiver : lnode.parent with
  | none => rfl
  | some receiver =>
      have hreceives := hdiffer.receives_eq p receiver
      cases hrnode : t.node? receiver with
      | none =>
          rw [hrnode, Option.map_none, Option.map_eq_none_iff] at hreceives
          simp only [hreceives, hrnode, hdiffer.size]
      | some rnode =>
          rw [hrnode, Option.map_some] at hreceives
          obtain ⟨rnode', hrnode', hsafely⟩ := Option.map_eq_some_iff.mp hreceives
          simp only [hrnode', hrnode, hsafely]

end OuterLambdasDiffer

/-- **The exemption in any tree.** On a node of the table the search for an exemption answers by the
rules of `ExemptionIs` and by nothing else, whatever the parents above the node are. Of all lambdas it
reads the innermost one: the others may be exchanged for anything that is not a call. -/
theorem exemption?_exact (t : SyntaxTree) (p : Policy) (id : NodeId)
    (hid : id.index.toNat < t.nodes.size) :
    (∀ result, t.exemption? p id = result ↔ t.ExemptionIs p id result) ∧
    ∀ lambda lnode t', t.InnermostLambda id lambda lnode → t.OuterLambdasDiffer t' id lambda →
      t'.exemption? p id = t.exemption? p id :=
  ⟨exemption?_eq_iff p hid, fun _ _ _ hlambda hdiffer => hdiffer.exemption?_eq hlambda p⟩

/-- A call in a lambda without exemption, inside a lambda that is exempt twice over. -/
def nestedLambdas : SyntaxTree where
  file := "Main.kt"
  language := .kotlin
  source := none
  nodes := #[
    ⟨none, ⟨0, 90⟩, .function ⟨"main", []⟩⟩,
    ⟨some ⟨0⟩, ⟨10, 80⟩, .call ⟨"callSafely", some ⟨0⟩, ⟨10, 20⟩, ⟨10, 80⟩⟩⟩,
    ⟨some ⟨1⟩, ⟨21, 79⟩, .lambda (some ⟨0⟩)⟩,
    ⟨some ⟨2⟩, ⟨30, 70⟩, .call ⟨"run", some ⟨1⟩, ⟨30, 33⟩, ⟨30, 70⟩⟩⟩,
    ⟨some ⟨3⟩, ⟨34, 69⟩, .lambda (some ⟨1⟩)⟩,
    ⟨some ⟨4⟩, ⟨40, 50⟩, .call ⟨"open", some ⟨2⟩, ⟨40, 44⟩, ⟨40, 50⟩⟩⟩]
  declarations := #[⟨"callSafely", [], ["Safe"], false⟩, ⟨"run", [], [], false⟩,
    ⟨"File.open", ["Checked"], [], false⟩, ⟨"CheckedBlock.invoke", ["Checked"], [], true⟩,
    ⟨"Function0.invoke", [], [], true⟩]
  types := #[⟨"CheckedBlock", [⟨3⟩]⟩, ⟨"Function0", [⟨4⟩]⟩]

/-- The same tree with an unreadable node in the place of the outer lambda. -/
def outerLambdaBroken : SyntaxTree :=
  { nestedLambdas with nodes := nestedLambdas.nodes.setIfInBounds 2 ⟨some ⟨77⟩, ⟨21, 79⟩, .other⟩ }

theorem nestedLambdas_differ : nestedLambdas.OuterLambdasDiffer outerLambdaBroken ⟨5⟩ ⟨4⟩ := by
  refine ⟨rfl, rfl, rfl, fun a => ?_⟩
  by_cases ha : a = ⟨2⟩
  · subst ha
    have hother : ∀ c, NodeKind.other ≠ .call c := fun c hkind => nomatch hkind
    exact Or.inr ⟨by decide, by decide, _, _, _, rfl, rfl, rfl, hother⟩
  · have hne : 2 ≠ a.index.toNat := fun h => ha (NodeId.toNat_inj.mp h.symm)
    exact Or.inl (Array.getElem?_setIfInBounds_ne hne)

/-- The call between the lambdas is exempt by the outer one. The inner call is not, and what stands
around its lambda does not matter. -/
theorem exemption?_exact_nestedLambdas :
    nestedLambdas.exemption? (.ofNames "Checked" "Safe") ⟨3⟩ = .ok (some (.throwingContract ⟨2⟩)) ∧
    nestedLambdas.exemption? (.ofNames "Checked" "Safe") ⟨5⟩ = .ok none ∧
    outerLambdaBroken.exemption? (.ofNames "Checked" "Safe") ⟨5⟩ = .ok none := by
  have houter : nestedLambdas.InnermostLambda ⟨3⟩ ⟨2⟩ ⟨some ⟨1⟩, ⟨21, 79⟩, .lambda (some ⟨0⟩)⟩ :=
    ⟨0, by decide, fun j hj => absurd hj (Nat.not_lt_zero j), rfl, rfl, _, rfl⟩
  have hinner : nestedLambdas.InnermostLambda ⟨5⟩ ⟨4⟩ ⟨some ⟨3⟩, ⟨34, 69⟩, .lambda (some ⟨1⟩)⟩ :=
    ⟨0, by decide, fun j hj => absurd hj (Nat.not_lt_zero j), rfl, rfl, _, rfl⟩
  obtain ⟨hrules, -⟩ := exemption?_exact nestedLambdas (.ofNames "Checked" "Safe") ⟨3⟩ (by decide)
  obtain ⟨hrules', houtside⟩ :=
    exemption?_exact nestedLambdas (.ofNames "Checked" "Safe") ⟨5⟩ (by decide)
  have hcontract : nestedLambdas.exemption? (.ofNames "Checked" "Safe") ⟨3⟩ =
      .ok (some (.throwingContract ⟨2⟩)) := by
    apply (hrules _).mpr
    exact .contract houter ⟨⟨0⟩, _, [], ⟨3⟩, [], _, rfl, rfl, rfl, rfl, rfl, List.mem_singleton_self _,
      fun other hother => absurd hother List.not_mem_nil⟩
  have hplain : nestedLambdas.exemption? (.ofNames "Checked" "Safe") ⟨5⟩ = .ok none := by
    apply (hrules' _).mpr
    refine .plain hinner ?_ ?_ ?_
    · rw [← throwsByContract_iff nestedLambdas _ rfl]
      decide
    · rw [exemptByMarker_iff_of_receiver rfl rfl]
      decide
    · intro receiver hreceiver
      cases hreceiver
      decide
  exact ⟨hcontract, hplain, (houtside _ _ _ hinner nestedLambdas_differ).trans hplain⟩

end SyntaxTree

end Uncaught
