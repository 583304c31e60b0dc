import Uncaught.Proofs.Check.Conditions
import Uncaught.Proofs.Check.Locality
import Uncaught.Proofs.Tree.Graft

/-!
Two repairs of a reported call: to wrap it in a try that catches the exception, and to move it into a
lambda that is exempt. Either moves the call below a new node. The nodes that do not have the call on
their scope keep their verdicts; the nodes below it see the old scope with the new nodes in it, and
these only add a handler or an exempt lambda.
-/

namespace Uncaught

/-- Nodes at which the search for a handler does not end can be left out of it. -/
theorem Policy.handlerIn_skip {p : Policy} {skipped : List (NodeId × Node)}
    (hskip : ∀ entry ∈ skipped, p.decides entry = false) (before after : List (NodeId × Node)) :
    p.handlerIn (before ++ (skipped ++ after)) = p.handlerIn (before ++ after) := by
  have hnone : skipped.find? p.decides = none := by simpa using hskip
  rw [handlerIn, handlerIn, List.find?_append, List.find?_append, List.find?_append, hnone,
    Option.none_or]

theorem Policy.handlerIn_call (p : Policy) (id : NodeId) {node : Node} {c : Call}
    (hkind : node.kind = .call c) (before after : List (NodeId × Node)) :
    p.handlerIn (before ++ (id, node) :: after) = p.handlerIn (before ++ after) := by
  have hskip : p.decides (id, node) = false := by rw [decides, hkind]
  exact handlerIn_skip (List.forall_mem_singleton.mpr hskip) before after

namespace SyntaxTree

/-- The verdict on a node is a violation. -/
def Reported (t : SyntaxTree) (p : Policy) (source : Option String) (id : NodeId) : Prop :=
  ∃ v, t.verdict p source id = .violation v

variable {t t' : SyntaxTree} {p : Policy} {source : Option String} {id x parent : NodeId}
  {node : Node} {c : Call} {before after rest inserted : List (NodeId × Node)}

theorem reported_iff : t.Reported p source id ↔ ∃ c chain, t.CheckedCall p id c ∧ t.Scope id chain ∧
    chain.length ≤ maxAncestors ∧ p.handlerIn chain = none ∧ t.exemptionIn p chain = none := by
  simp only [Reported, verdict_eq_violation_iff]
  constructor
  · rintro ⟨_, c, chain, hcall, hscope, hlength, hhandler, hexemption, -⟩
    exact ⟨c, chain, hcall, hscope, hlength, hhandler, hexemption⟩
  · rintro ⟨c, chain, hcall, hscope, hlength, hhandler, hexemption⟩
    exact ⟨_, c, chain, hcall, hscope, hlength, hhandler, hexemption, rfl⟩

/-- No scope of a tree with roots is too long to be searched. -/
theorem Rooted.length_le (hrooted : t.Rooted) {chain : List (NodeId × Node)}
    (hscope : t.Scope id chain) : chain.length ≤ maxAncestors := by
  obtain ⟨node, hnode⟩ := hscope.exists_node?
  obtain ⟨chain', hscope', hlength⟩ := (hrooted id node hnode).exists_scope hnode
  rwa [hscope.unique hscope']

/-- Valid handles point to the same entries of longer tables. -/
theorem HandlesValid.tablesAgree_graft (hvalid : t.HandlesValid) (id parent : NodeId)
    (nodes : List Node) (declarations : List Declaration) (types : List TypeDecl) :
    t.TablesAgree (t.graft id parent nodes declarations types) := by
  have hdeclaration : ∀ d : DeclId, d.index.toNat < t.declarations.size →
      (t.graft id parent nodes declarations types).declaration? d = t.declaration? d := by
    intro d hlt
    rw [declaration?, declaration?, declarations_graft, Array.getElem?_append_left hlt]
  constructor
  · intro a node c ha hkind
    rw [resolve?, resolve?]
    cases htarget : c.target with
    | none => rfl
    | some d => exact hdeclaration d (hvalid.targets _ node c d ha hkind htarget)
  · intro a node interface ha hkind
    cases interface with
    | none => rfl
    | some i =>
        have htype : (t.graft id parent nodes declarations types).type? i = t.type? i := by
          have hlt := hvalid.interfaces _ node i ha hkind
          rw [type?, type?, types_graft, Array.getElem?_append_left hlt]
        simp only [contract?, Option.bind_eq_bind, Option.bind_some, htype]
        cases hi : t.type? i with
        | none => rfl
        | some type =>
            have hmethods : type.methods.filterMap
                (t.graft id parent nodes declarations types).declaration? =
                type.methods.filterMap t.declaration? := by
              apply List.filterMap_congr
              intro d hd
              exact hdeclaration d (hvalid.methods type (Array.mem_of_getElem? hi) d hd)
            simp only [Option.bind_some, hmethods]

namespace Moves

variable (hmoves : t.Moves t' id parent)

include hmoves

theorem checkedCall_iff (htables : t.TablesAgree t') (hx : t.node? x = some node) :
    t'.CheckedCall p x c ↔ t.CheckedCall p x c := by
  obtain ⟨node', hx', hsame⟩ := hmoves.exists_kind hx
  constructor
  · rintro ⟨_, d, hnode, hkind, hresolve, hcovers⟩
    cases hx'.symm.trans hnode
    rw [hsame] at hkind
    rw [htables.resolve hx hkind] at hresolve
    exact ⟨node, d, hx, hkind, hresolve, hcovers⟩
  · rintro ⟨_, d, hnode, hkind, hresolve, hcovers⟩
    cases hx.symm.trans hnode
    rw [← htables.resolve hx hkind] at hresolve
    exact ⟨node', d, hx', hsame.trans hkind, hresolve, hcovers⟩

/-- A node without the moved node on its scope keeps its verdict. -/
theorem verdict_eq (p : Policy) (source : Option String) (hfile : t'.file = t.file)
    (htables : t.TablesAgree t') (hid : t.node? id = some node) (hx : x ≠ id)
    {chain : List (NodeId × Node)} (hscope : t.Scope x chain) (hlength : chain.length ≤ maxAncestors)
    (hoff : (id, node) ∉ chain) : t'.verdict p source x = t.verdict p source x := by
  obtain ⟨xnode, hxnode⟩ := hscope.exists_node?
  refine verdict_congr p source hfile htables hscope hlength
    ⟨xnode, xnode, hxnode, hmoves.kept hx hxnode, rfl, rfl⟩ ?_
  intro a anode hmem
  exact ⟨anode, hmoves.kept_of_mem hid hoff hmem (hscope.node?_of_mem hmem), rfl, fun _ => rfl⟩

/-- Nothing new is reported after a move if neither the moved node nor an added one is, and none of
the nodes below the moved node is that was not before. -/
theorem reported_of_reported (hfile : t'.file = t.file) (htables : t.TablesAgree t')
    (hrooted : t.Rooted) (hid : t.node? id = some node) (hself : ¬t'.Reported p source id)
    (hadded : ∀ x, t.node? x = none → ¬t'.Reported p source x)
    (hbelow : ∀ x before after, x ≠ id → t.Scope x (before ++ (id, node) :: after) →
      (before ++ (id, node) :: after).length ≤ maxAncestors → (id, node) ∉ before →
      t'.Reported p source x → t.Reported p source x) (hreported : t'.Reported p source x) :
    t.Reported p source x := by
  cases hx : t.node? x with
  | none => exact absurd hreported (hadded x hx)
  | some xnode =>
      have hne : x ≠ id := by
        rintro rfl
        exact hself hreported
      obtain ⟨chain, hscope, hlength⟩ := (hrooted x xnode hx).exists_scope hx
      by_cases hon : (id, node) ∈ chain
      · obtain ⟨before, after, rfl, hfirst⟩ := List.eq_append_cons_of_mem hon
        exact hbelow x before after hne hscope hlength hfirst hreported
      · obtain ⟨v, hv⟩ := hreported
        exact ⟨v, (hmoves.verdict_eq p source hfile htables hid hne hscope hlength hon).symm.trans hv⟩

/-- A node is not reported below inserted nodes that catch the exception. -/
theorem not_reported_of_caught (hid : t.node? id = some node) (hkind : node.kind = .call c)
    (hlinks : t'.Links (some parent) inserted (t.parent? id)) (hcaught : p.Caught inserted) (hx : x ≠ id)
    (hscope : t.Scope x (before ++ (id, node) :: after)) (hfirst : (id, node) ∉ before) :
    ¬t'.Reported p source x := by
  intro hreported
  obtain ⟨-, chain, -, hchain, -, hhandler, -⟩ := reported_iff.mp hreported
  have hinner : node.kind.isFunction = false := by rw [hkind]; rfl
  obtain rfl := (hmoves.scope_below hid hinner hlinks hx hscope hfirst).unique hchain
  refine ((hchain.handlerIn_eq_none_iff p).mp hhandler).1 ?_
  obtain ⟨scope, snode, clauses, hmem, hscaught⟩ := hcaught
  exact ⟨scope, snode, clauses, by simp [hmem], hscaught⟩

/-- The same lambda on a scope is exempt or not as it was. -/
theorem exemptionIn_congr (htables : t.TablesAgree t') {chain chain' : List (NodeId × Node)}
    (hscope : t.Scope x chain) (hsame : lambdaIn chain' = lambdaIn chain) :
    t'.exemptionIn p chain' = t.exemptionIn p chain := by
  rw [exemptionIn, exemptionIn, hsame]
  cases hsite : lambdaIn chain with
  | none => rfl
  | some site =>
      obtain ⟨⟨lambda, lnode⟩, hfind, hentry⟩ := Option.bind_eq_some_iff.mp hsite
      have hlambda := hscope.node?_of_mem (List.mem_of_find?_eq_some hfind)
      refine htables.exemptionOf_eq hlambda (lambdaSite?_eq_some hentry).2.2 fun receiver hparent => ?_
      obtain ⟨rnode, hmem⟩ := hscope.exists_receiver hsite hparent
      have hreceiver := hscope.node?_of_mem hmem
      obtain ⟨rnode', hreceiver', hrkind⟩ := hmoves.exists_kind hreceiver
      exact ⟨rnode, rnode', hreceiver, hreceiver', hrkind⟩

/-- A lambda below the moved node is exempt or not as it was. -/
theorem exemptionIn_eq (htables : t.TablesAgree t') (hscope : t.Scope x (before ++ rest))
    {entry : NodeId × Node} (hfind : before.find? (·.2.kind.isLambda) = some entry)
    (rest' : List (NodeId × Node)) :
    t'.exemptionIn p (before ++ rest') = t.exemptionIn p (before ++ rest) := by
  have hlambdaIn : ∀ tail, lambdaIn (before ++ tail) = lambdaSite? entry := by
    intro tail
    rw [lambdaIn, List.find?_append, hfind]
    rfl
  exact hmoves.exemptionIn_congr htables hscope ((hlambdaIn rest').trans (hlambdaIn rest).symm)

section ExemptLambda

-- the inserted nodes start with an exempt lambda, and none of them handles the exception
variable {l : NodeId} {lambda : Node} (htables : t.TablesAgree t') (hid : t.node? id = some node)
  (hlinks : t'.Links (some parent) ((l, lambda) :: rest) (t.parent? id))
  (hskip : ∀ entry ∈ (l, lambda) :: rest, p.decides entry = false)
  (hlambda : lambda.kind.isLambda = true)
  (hexempt : t'.ExemptByContract p lambda ∨ t'.ExemptByMarker p lambda)

include htables hid hlinks hskip hlambda hexempt

/-- A node that is reported below the moved node has been reported before: its innermost lambda is
still the same. -/
theorem reported_of_exempt (hkind : node.kind = .call c) (hx : x ≠ id)
    (hscope : t.Scope x (before ++ (id, node) :: after))
    (hlength : (before ++ (id, node) :: after).length ≤ maxAncestors) (hfirst : (id, node) ∉ before)
    (hreported : t'.Reported p source x) : t.Reported p source x := by
  obtain ⟨call, chain, hcall, hchain, -, hhandler, hexemption⟩ := reported_iff.mp hreported
  have hinner : node.kind.isFunction = false := by rw [hkind]; rfl
  obtain rfl := (hmoves.scope_below hid hinner hlinks hx hscope hfirst).unique hchain
  obtain ⟨xnode, hxnode⟩ := hscope.exists_node?
  have hmoved : { node with parent := some parent }.kind = .call c := hkind
  have hhandler' : p.handlerIn (before ++ (id, node) :: after) = none :=
    calc p.handlerIn (before ++ (id, node) :: after)
      _ = p.handlerIn (before ++ after) := p.handlerIn_call id hkind before after
      _ = p.handlerIn (before ++ ((l, lambda) :: rest ++ after)) :=
          (Policy.handlerIn_skip hskip before after).symm
      _ = p.handlerIn (before ++ (id, { node with parent := some parent }) ::
            ((l, lambda) :: rest ++ after)) := (p.handlerIn_call id hmoved before _).symm
      _ = none := hhandler
  cases hfind : before.find? (·.2.kind.isLambda) with
  | some entry =>
      rw [hmoves.exemptionIn_eq htables hscope hfind] at hexemption
      exact reported_iff.mpr ⟨call, _, (hmoves.checkedCall_iff htables hxnode).mp hcall, hscope, hlength,
        hhandler', hexemption⟩
  | none =>
      have houter : node.kind.isLambda = false := by rw [hkind]; rfl
      refine absurd ⟨l, lambda, ?_, hexempt⟩ ((exemptionIn_eq_none_iff t' p _).mp hexemption)
      rw [List.find?_append, hfind, Option.none_or, List.find?_cons_of_neg (by simp [houter])]
      exact List.find?_cons_of_pos hlambda

/-- Moved into an exempt lambda, a reported call is exempt. -/
theorem exempt_of_reported (hrooted : t'.Rooted) (hreported : t.Reported p source id) :
    ∃ how, t'.verdict p source id = .exempt how := by
  obtain ⟨call, chain, hcall, hchain, -, hhandler, -⟩ := reported_iff.mp hreported
  have hinner : node.kind.isFunction = false := by
    obtain ⟨_, hnode, hkind⟩ := hcall.exists_node?
    cases hid.symm.trans hnode
    rw [hkind]
    rfl
  have hscope := hmoves.scope_of_links hid hinner hchain (hmoves.moved hid) hlinks
  have hhandler' : p.handlerIn ((l, lambda) :: rest ++ chain) = none := by
    rw [← hhandler]
    exact Policy.handlerIn_skip hskip [] chain
  rw [((hmoves.checkedCall_iff htables hid).mpr hcall).verdict_eq,
    hscope.checkedVerdict_eq (hrooted.length_le hscope), hhandler']
  cases hexemption : t'.exemptionIn p ((l, lambda) :: rest ++ chain) with
  | some how => exact ⟨how, rfl⟩
  | none =>
      exact absurd ⟨l, lambda, List.find?_cons_of_pos hlambda, hexempt⟩
        ((exemptionIn_eq_none_iff t' p _).mp hexemption)

end ExemptLambda

end Moves

/-! ### The two repairs -/

/-- An added node is not reported unless it is a call of something that throws the exception. -/
theorem not_reported_added {nodes : List Node} {declarations : List Declaration} {types : List TypeDecl}
    (ht' : t' = t.graft id parent nodes declarations types)
    (hquiet : ∀ added ∈ nodes, ∀ c d, added.kind = .call c → t'.resolve? c = some d →
      p.checkedException ∉ d.throws) (hnew : t.node? x = none) : ¬t'.Reported p source x := by
  rintro ⟨v, hverdict⟩
  obtain ⟨c, xnode, d, hxnode, hkind, hresolve, hcovers⟩ := exists_checkedCall hverdict
  have hmem : xnode ∈ nodes := by
    rw [ht'] at hxnode
    exact mem_of_graft_node? hnew hxnode
  exact hquiet xnode hmem c d hkind hresolve ((p.covers_iff _).mp hcovers)

theorem handler?_of_parent {n : NodeId} {scope : Node} {clauses : List CatchClause}
    (hparent : t.parent? id = some n) (hn : t.node? n = some scope)
    (hkind : scope.kind = .tryScope clauses) (hcaught : p.caughtBy clauses = true) :
    t.handler? p id = .ok (some (.catchClause n)) := by
  rw [handler?, ancestors_eq, hparent, show maxAncestors = 4095 + 1 from rfl, climb, hn]
  simp only [Policy.handlerAlong, hkind, hcaught, if_true]

/-- Wrapped in a try that catches the exception, a reported call is handled by it, and nothing is
reported that was not before. -/
theorem graft_try (hvalid : t.HandlesValid) (hrooted : t.Rooted) (hreported : t.Reported p source id)
    {n : NodeId} {scope : Node} {clauses : List CatchClause} (hn : n.index.toNat = t.nodes.size)
    (hparent : scope.parent = t.parent? id) (hkind : scope.kind = .tryScope clauses)
    (hcaught : ∃ clause ∈ clauses, p.checkedException ∈ clause.caught)
    (ht' : t' = t.graft id n [scope] [] []) :
    t'.verdict p source id = .handled (.catchClause n) ∧
      ∀ x, t'.Reported p source x → t.Reported p source x := by
  obtain ⟨c, -, hcall, -⟩ := reported_iff.mp hreported
  obtain ⟨node, hid, hc⟩ := hcall.exists_node?
  have hmoves : t.Moves t' id n := ht' ▸ graft_moves t id n [scope] [] []
  have htables : t.TablesAgree t' := ht' ▸ hvalid.tablesAgree_graft id n [scope] [] []
  have hscope : t'.node? n = some scope := by simp [ht', hn]
  have hverdict : t'.verdict p source id = .handled (.catchClause n) := by
    have hhandler : t'.handler? p id = .ok (some (.catchClause n)) :=
      handler?_of_parent (hmoves.parent?_self hid) hscope hkind ((p.caughtBy_iff clauses).mpr hcaught)
    rw [((hmoves.checkedCall_iff htables hid).mpr hcall).verdict_eq, checkedVerdict, hhandler]
  have hlinks : t'.Links (some n) [(n, scope)] (t.parent? id) :=
    ⟨rfl, hscope, by rw [hkind]; rfl, hparent⟩
  refine ⟨hverdict, fun x => hmoves.reported_of_reported ?_ htables hrooted hid ?_ ?_ ?_⟩
  · simp [ht']
  · rintro ⟨v, hv⟩
    rw [hverdict] at hv
    cases hv
  · refine fun x => not_reported_added ht' ?_
    intro added hadded c d hcallKind
    rw [List.mem_singleton.mp hadded, hkind] at hcallKind
    cases hcallKind
  · intro x before after hx hbelow _ hfirst hnew
    refine absurd hnew (hmoves.not_reported_of_caught hid hc hlinks ?_ hx hbelow hfirst)
    exact ⟨n, scope, clauses, List.mem_singleton_self _, hkind, hcaught⟩

/-- Moved into an exempt lambda that is passed to a call in its place, a reported call is exempt, and
nothing is reported that was not before. -/
theorem graft_lambda (hvalid : t.HandlesValid) (hrooted : t.Rooted) (hreported : t.Reported p source id)
    {h l : NodeId} {receiver lambda : Node} {call : Call} {interface : Option TypeId}
    {declarations : List Declaration} {types : List TypeDecl} {d : Declaration}
    (hh : h.index.toNat = t.nodes.size) (hl : l.index.toNat = t.nodes.size + 1)
    (hhparent : receiver.parent = t.parent? id) (hhkind : receiver.kind = .call call)
    (hlparent : lambda.parent = some h) (hlkind : lambda.kind = .lambda interface)
    (ht' : t' = t.graft id l [receiver, lambda] declarations types) (hrooted' : t'.Rooted)
    (hresolve : t'.resolve? call = some d) (hquiet : p.checkedException ∉ d.throws)
    (hexempt : t'.ExemptByContract p lambda ∨ p.safeMarker ∈ d.annotations) :
    (∃ how, t'.verdict p source id = .exempt how) ∧
      (∀ x, t'.Reported p source x → t.Reported p source x) ∧ ¬t'.Reported p source h := by
  obtain ⟨c, -, hcall, -⟩ := reported_iff.mp hreported
  obtain ⟨node, hid, hc⟩ := hcall.exists_node?
  have hmoves : t.Moves t' id l := ht' ▸ graft_moves t id l [receiver, lambda] declarations types
  have htables : t.TablesAgree t' :=
    ht' ▸ hvalid.tablesAgree_graft id l [receiver, lambda] declarations types
  have hreceiver : t'.node? h = some receiver := by simp [ht', hh]
  have hlambda : t'.node? l = some lambda := by simp [ht', hl]
  have hlinks : t'.Links (some l) [(l, lambda), (h, receiver)] (t.parent? id) :=
    ⟨rfl, hlambda, by rw [hlkind]; rfl, hlparent, hreceiver, by rw [hhkind]; rfl, hhparent⟩
  have hskip : ∀ entry ∈ [(l, lambda), (h, receiver)], p.decides entry = false := by
    simp [Policy.decides, hlkind, hhkind]
  have hisLambda : lambda.kind.isLambda = true := by rw [hlkind]; rfl
  have hexempt' : t'.ExemptByContract p lambda ∨ t'.ExemptByMarker p lambda := by
    refine hexempt.imp_right fun hmarker => ?_
    obtain ⟨target, htarget, hd⟩ := (resolve?_eq_some_iff t' call d).mp hresolve
    exact ⟨h, receiver, call, target, d, hlparent, hreceiver, hhkind, htarget, hd, hmarker⟩
  have hverdict :=
    hmoves.exempt_of_reported htables hid hlinks hskip hisLambda hexempt' hrooted' hreported
  have hadded : ∀ x, t.node? x = none → ¬t'.Reported p source x := by
    refine fun x => not_reported_added ht' ?_
    intro added hadded c' d' hkind hd'
    rcases List.mem_pair.mp hadded with rfl | rfl
    · cases hhkind.symm.trans hkind
      cases hresolve.symm.trans hd'
      exact hquiet
    · cases hlkind.symm.trans hkind
  refine ⟨hverdict, fun x => hmoves.reported_of_reported ?_ htables hrooted hid ?_ hadded ?_, hadded h ?_⟩
  · simp [ht']
  · rintro ⟨v, hv⟩
    obtain ⟨how, hhow⟩ := hverdict
    cases hv.symm.trans hhow
  · intro x before after hx hbelow hlength hfirst
    exact hmoves.reported_of_exempt htables hid hlinks hskip hisLambda hexempt' hc hx hbelow hlength
      hfirst
  · exact Array.getElem?_eq_none_iff.mpr (Nat.le_of_eq hh.symm)

/-- **A repair resolves the violation and creates none.** Wrapped in a try that catches the exception,
a reported call is handled by that try. Moved into a lambda that is passed to a call in its place, it
is exempt, if the lambda implements an interface that throws the exception or the function that
receives it carries the marker. Whatever is reported in the new tree was reported before. -/
theorem repair_resolves (p : Policy) (source : Option String) (hvalid : t.validate = .ok ())
    (hreported : t.Reported p source id) :
    (∀ (n : NodeId) (scope : Node) (clauses : List CatchClause) (t₁ : SyntaxTree),
      n.index.toNat = t.nodes.size → scope.parent = t.parent? id → scope.kind = .tryScope clauses →
      (∃ clause ∈ clauses, p.checkedException ∈ clause.caught) → t₁ = t.graft id n [scope] [] [] →
        t₁.verdict p source id = .handled (.catchClause n) ∧
        ∀ x, t₁.Reported p source x → t.Reported p source x) ∧
    (∀ (h l : NodeId) (receiver lambda : Node) (call : Call) (interface : Option TypeId)
      (declarations : List Declaration) (types : List TypeDecl) (t₂ : SyntaxTree) (d : Declaration),
      h.index.toNat = t.nodes.size → l.index.toNat = t.nodes.size + 1 →
      receiver.parent = t.parent? id → receiver.kind = .call call →
      lambda.parent = some h → lambda.kind = .lambda interface →
      t₂ = t.graft id l [receiver, lambda] declarations types → t₂.validate = .ok () →
      t₂.resolve? call = some d → p.checkedException ∉ d.throws →
      (t₂.ExemptByContract p lambda ∨ p.safeMarker ∈ d.annotations) →
        (∃ how, t₂.verdict p source id = .exempt how) ∧
        (∀ x, t₂.Reported p source x → t.Reported p source x) ∧ ¬t₂.Reported p source h) := by
  obtain ⟨hhandles, hrooted⟩ := (validate_eq_ok_iff t).mp hvalid
  constructor
  · intro n scope clauses t₁ hn hparent hkind hcaught ht₁
    exact graft_try hhandles hrooted hreported hn hparent hkind hcaught ht₁
  · intro h l receiver lambda call interface declarations types t₂ d hh hl hhparent hhkind hlparent hlkind
      ht₂ hvalid₂ hresolve hquiet hexempt
    exact graft_lambda hhandles hrooted hreported hh hl hhparent hhkind hlparent hlkind ht₂
      ((validate_eq_ok_iff t₂).mp hvalid₂).2 hresolve hquiet hexempt

/-- The nested call in a try of its own. -/
def nestedCallCaught : SyntaxTree :=
  nestedCall.graft ⟨4⟩ ⟨5⟩ [⟨some ⟨3⟩, ⟨40, 50⟩, .tryScope [⟨["Checked"]⟩]⟩] [] []

/-- The nested call in a lambda that is passed to a function with the marker. -/
def nestedCallPassed : SyntaxTree :=
  nestedCall.graft ⟨4⟩ ⟨6⟩
    [⟨some ⟨3⟩, ⟨40, 50⟩, .call ⟨"callSafely", some ⟨3⟩, ⟨40, 50⟩, ⟨40, 50⟩⟩⟩,
      ⟨some ⟨5⟩, ⟨40, 50⟩, .lambda none⟩]
    [⟨"callSafely", [], ["Safe"], false⟩] []

theorem repair_resolves_nestedCall : nestedCall.validate = .ok () ∧
    nestedCall.Reported (.ofNames "Checked" "Safe") none ⟨4⟩ ∧
    nestedCallCaught.verdict (.ofNames "Checked" "Safe") none ⟨4⟩ = .handled (.catchClause ⟨5⟩) ∧
    nestedCallPassed.validate = .ok () ∧
    (∃ how, nestedCallPassed.verdict (.ofNames "Checked" "Safe") none ⟨4⟩ = .exempt how) ∧
    ¬nestedCallPassed.Reported (.ofNames "Checked" "Safe") none ⟨5⟩ := by
  have hreported : nestedCall.Reported (.ofNames "Checked" "Safe") none ⟨4⟩ := ⟨_, rfl⟩
  obtain ⟨hcaught, hpassed⟩ := repair_resolves (.ofNames "Checked" "Safe") none rfl hreported
  obtain ⟨hhandled, -⟩ := hcaught ⟨5⟩ ⟨some ⟨3⟩, ⟨40, 50⟩, .tryScope [⟨["Checked"]⟩]⟩ [⟨["Checked"]⟩]
    nestedCallCaught rfl rfl rfl ⟨⟨["Checked"]⟩, List.mem_singleton_self _, by decide⟩ rfl
  obtain ⟨hexempt, -, hreceiver⟩ :=
    hpassed ⟨5⟩ ⟨6⟩ ⟨some ⟨3⟩, ⟨40, 50⟩, .call ⟨"callSafely", some ⟨3⟩, ⟨40, 50⟩, ⟨40, 50⟩⟩⟩
      ⟨some ⟨5⟩, ⟨40, 50⟩, .lambda none⟩ ⟨"callSafely", some ⟨3⟩, ⟨40, 50⟩, ⟨40, 50⟩⟩ none
      [⟨"callSafely", [], ["Safe"], false⟩] [] nestedCallPassed ⟨"callSafely", [], ["Safe"], false⟩
      rfl rfl rfl rfl rfl rfl rfl rfl rfl (by decide) (Or.inr (by decide))
  exact ⟨rfl, hreported, hhandled, rfl, hexempt, hreceiver⟩

end SyntaxTree

end Uncaught
