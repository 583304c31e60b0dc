import Uncaught.Proofs.Check.Walks
import Uncaught.Proofs.Tree.Validity

/-!
The verdict on a call of a valid tree, by conditions on its scope. The conditions do not mention the
order in which anything is looked for: what the call resolves to, what the scopes around it catch, what
the enclosing function declares, and whether the innermost lambda is exempt.
-/

namespace Uncaught

/-- A try on the chain has a clause that catches the checked exception. -/
def Policy.Caught (p : Policy) (chain : List (NodeId × Node)) : Prop :=
  ∃ scope node clauses, (scope, node) ∈ chain ∧ node.kind = .tryScope clauses ∧
    ∃ clause ∈ clauses, p.checkedException ∈ clause.caught

/-- The chain ends in a function that declares the checked exception. -/
def Policy.Declared (p : Policy) (chain : List (NodeId × Node)) : Prop :=
  ∃ function node f, chain.getLast? = some (function, node) ∧ node.kind = .function f ∧
    p.checkedException ∈ f.throws

namespace SyntaxTree

/-- A call resolves to a declaration that throws the checked exception. -/
def Throws (t : SyntaxTree) (p : Policy) (c : Call) : Prop :=
  ∃ d declaration, c.target = some d ∧ t.declaration? d = some declaration ∧
    p.checkedException ∈ declaration.throws

/-- The interface of a lambda lists exactly one abstract method, and that one throws the checked
exception. -/
def ExemptByContract (t : SyntaxTree) (p : Policy) (lambda : Node) : Prop :=
  ∃ i type before d after member, lambda.kind = .lambda (some i) ∧ t.type? i = some type ∧
    type.methods = before ++ d :: after ∧ t.declaration? d = some member ∧
    member.isAbstract = true ∧ p.checkedException ∈ member.throws ∧
    ∀ other ∈ before ++ after, ∀ m, t.declaration? other = some m → m.isAbstract = false

/-- The parent of a lambda is a call of a function that carries the marker. -/
def ExemptByMarker (t : SyntaxTree) (p : Policy) (lambda : Node) : Prop :=
  ∃ receiver node c d declaration, lambda.parent = some receiver ∧ t.node? receiver = some node ∧
    node.kind = .call c ∧ c.target = some d ∧ t.declaration? d = some declaration ∧
    p.safeMarker ∈ declaration.annotations

/-- The innermost lambda on the chain is exempt. -/
def Exempted (t : SyntaxTree) (p : Policy) (chain : List (NodeId × Node)) : Prop :=
  ∃ lambda node, chain.find? (·.2.kind.isLambda) = some (lambda, node) ∧
    (t.ExemptByContract p node ∨ t.ExemptByMarker p node)

variable {t : SyntaxTree} {p : Policy} {id : NodeId} {node : Node} {c : Call}
  {chain : List (NodeId × Node)}

theorem caught_cons_iff (p : Policy) (entry : NodeId × Node) :
    p.Caught (entry :: chain) ↔
      (∃ clauses, entry.2.kind = .tryScope clauses ∧ p.caughtBy clauses = true) ∨ p.Caught chain := by
  simp only [Policy.Caught, List.mem_cons, Policy.caughtBy_iff]
  constructor
  · rintro ⟨scope, node, clauses, rfl | hmem, hkind, hclause⟩
    · exact Or.inl ⟨clauses, hkind, hclause⟩
    · exact Or.inr ⟨scope, node, clauses, hmem, hkind, hclause⟩
  · rintro (⟨clauses, hkind, hclause⟩ | ⟨scope, node, clauses, hmem, hkind, hclause⟩)
    · exact ⟨entry.1, entry.2, clauses, Or.inl rfl, hkind, hclause⟩
    · exact ⟨scope, node, clauses, Or.inr hmem, hkind, hclause⟩

theorem declared_cons_iff (p : Policy) {entry : NodeId × Node}
    (hinner : entry.2.kind.isFunction = false) : p.Declared (entry :: chain) ↔ p.Declared chain := by
  cases chain with
  | cons next rest => simp only [Policy.Declared, List.getLast?_cons_cons]
  | nil =>
      refine iff_of_false ?_ (by simp [Policy.Declared])
      rintro ⟨function, node, f, hlast, hkind, -⟩
      cases hlast
      simp [hkind, NodeKind.isFunction] at hinner

theorem decides_iff (p : Policy) {entry : NodeId × Node} (hinner : entry.2.kind.isFunction = false) :
    p.decides entry = true ↔
      ∃ clauses, entry.2.kind = .tryScope clauses ∧ p.caughtBy clauses = true := by
  cases hkind : entry.2.kind <;> simp_all [Policy.decides, NodeKind.isFunction]

theorem Scope.handlerIn_eq_none_iff (hscope : t.Scope id chain) (p : Policy) :
    p.handlerIn chain = none ↔ ¬p.Caught chain ∧ ¬p.Declared chain := by
  induction hscope with
  | root => simp [Policy.handlerIn, Policy.Caught, Policy.Declared]
  | @function _ f fnode _ _ hfunction =>
      cases hkind : fnode.kind with
      | function g =>
          simp [Policy.handlerIn, Policy.decides, Policy.handling, Policy.Caught, Policy.Declared, hkind]
      | call _ | tryScope _ | lambda _ | other => simp [hkind, NodeKind.isFunction] at hfunction
  | @step _ a anode chain _ _ hinner _ ih =>
      rw [caught_cons_iff, declared_cons_iff p hinner, ← decides_iff p hinner, not_or, and_assoc,
        ← ih, Policy.handlerIn, List.find?_cons]
      cases hdecides : p.decides (a, anode) with
      | false => simp [Policy.handlerIn]
      | true =>
          obtain ⟨clauses, hkind, -⟩ := (decides_iff p hinner).mp hdecides
          have hhandling : p.handling (a, anode) = some (.catchClause a) := by
            rw [Policy.handling, hkind]
          simp [hhandling]

/-! ### Exemptions -/

theorem contract?_eq_some_iff (t : SyntaxTree) (interface : Option TypeId) (member : Declaration) :
    t.contract? interface = some member ↔
      ∃ i type before d after, interface = some i ∧ t.type? i = some type ∧
        type.methods = before ++ d :: after ∧ t.declaration? d = some member ∧
        member.isAbstract = true ∧
        ∀ other ∈ before ++ after, ∀ m, t.declaration? other = some m → m.isAbstract = false := by
  have hmethods : ∀ methods : List DeclId,
      (methods.filterMap t.declaration?).filter (·.isAbstract) = [member] ↔
        ∃ before d after, methods = before ++ d :: after ∧ t.declaration? d = some member ∧
          member.isAbstract = true ∧
          ∀ other ∈ before ++ after, ∀ m, t.declaration? other = some m → m.isAbstract = false := by
    intro methods
    simp only [List.filter_filterMap, List.filterMap_eq_cons_iff, List.filterMap_eq_nil_iff,
      Option.filter_eq_none_iff, Option.filter_eq_some_iff, List.mem_append, Bool.not_eq_true]
    constructor
    · rintro ⟨before, d, after, hsplit, hbefore, ⟨hd, habstract⟩, hafter⟩
      exact ⟨before, d, after, hsplit, hd, habstract, fun other => Or.rec (hbefore other) (hafter other)⟩
    · rintro ⟨before, d, after, hsplit, hd, habstract, hothers⟩
      exact ⟨before, d, after, hsplit, fun other h => hothers other (Or.inl h), ⟨hd, habstract⟩,
        fun other h => hothers other (Or.inr h)⟩
  simp only [contract?, Option.bind_eq_bind, Option.bind_eq_some_iff]
  constructor
  · rintro ⟨i, hi, type, htype, hmember⟩
    split at hmember
    · rename_i only honly
      cases hmember
      obtain ⟨before, d, after, hsplit⟩ := (hmethods type.methods).mp honly
      exact ⟨i, type, before, d, after, hi, htype, hsplit⟩
    · cases hmember
  · rintro ⟨i, type, before, d, after, hi, htype, hsplit⟩
    refine ⟨i, hi, type, htype, ?_⟩
    rw [(hmethods type.methods).mpr ⟨before, d, after, hsplit⟩]

theorem throwsByContract_iff (t : SyntaxTree) (p : Policy) {interface : Option TypeId}
    (hkind : node.kind = .lambda interface) :
    t.throwsByContract p interface = true ↔ t.ExemptByContract p node := by
  have hcontract : t.throwsByContract p interface = true ↔
      ∃ member, t.contract? interface = some member ∧ p.checkedException ∈ member.throws := by
    rw [throwsByContract]
    cases t.contract? interface <;> simp
  simp only [hcontract, contract?_eq_some_iff, ExemptByContract, hkind, NodeKind.lambda.injEq]
  constructor
  · rintro ⟨member, ⟨i, type, before, d, after, hi, htype, hsplit, hd, habstract, hothers⟩, hthrows⟩
    exact ⟨i, type, before, d, after, member, hi, htype, hsplit, hd, habstract, hthrows, hothers⟩
  · rintro ⟨i, type, before, d, after, member, hi, htype, hsplit, hd, habstract, hthrows, hothers⟩
    exact ⟨member, ⟨i, type, before, d, after, hi, htype, hsplit, hd, habstract, hothers⟩, hthrows⟩

theorem resolve?_eq_some_iff (t : SyntaxTree) (c : Call) (declaration : Declaration) :
    t.resolve? c = some declaration ↔ ∃ d, c.target = some d ∧ t.declaration? d = some declaration :=
  Option.bind_eq_some_iff

theorem receivesSafely_iff (t : SyntaxTree) (p : Policy) (node : Node) :
    t.receivesSafely p node = true ↔ ∃ c d declaration, node.kind = .call c ∧ c.target = some d ∧
      t.declaration? d = some declaration ∧ p.safeMarker ∈ declaration.annotations := by
  have hresolve : t.receivesSafely p node = true ↔ ∃ c declaration, node.kind = .call c ∧
      t.resolve? c = some declaration ∧ p.safeMarker ∈ declaration.annotations := by
    rw [receivesSafely]
    cases node.kind with
    | call c => cases hdeclaration : t.resolve? c <;> simp [hdeclaration]
    | tryScope _ | function _ | lambda _ | other => simp
  rw [hresolve]
  constructor
  · rintro ⟨c, declaration, hkind, htarget, hmarker⟩
    obtain ⟨d, hd, hdeclaration⟩ := (resolve?_eq_some_iff t c declaration).mp htarget
    exact ⟨c, d, declaration, hkind, hd, hdeclaration, hmarker⟩
  · rintro ⟨c, d, declaration, hkind, hd, hdeclaration, hmarker⟩
    exact ⟨c, declaration, hkind, (resolve?_eq_some_iff t c declaration).mpr ⟨d, hd, hdeclaration⟩,
      hmarker⟩

theorem exemptByMarker_iff (t : SyntaxTree) (p : Policy) (lambda : Node) :
    t.ExemptByMarker p lambda ↔ ∃ receiver node, lambda.parent = some receiver ∧
      t.node? receiver = some node ∧ t.receivesSafely p node = true := by
  constructor
  · rintro ⟨receiver, node, c, d, declaration, hparent, hnode, hmarked⟩
    exact ⟨receiver, node, hparent, hnode, (receivesSafely_iff t p node).mpr ⟨c, d, declaration, hmarked⟩⟩
  · rintro ⟨receiver, node, hparent, hnode, hsafely⟩
    obtain ⟨c, d, declaration, hmarked⟩ := (receivesSafely_iff t p node).mp hsafely
    exact ⟨receiver, node, c, d, declaration, hparent, hnode, hmarked⟩

theorem exemptionOf_eq_none_iff (t : SyntaxTree) (p : Policy) (lambda : NodeId)
    {interface : Option TypeId} (hkind : node.kind = .lambda interface) :
    t.exemptionOf p ⟨lambda, node.parent, interface⟩ = none ↔
      ¬(t.ExemptByContract p node ∨ t.ExemptByMarker p node) := by
  rw [exemptionOf, ← throwsByContract_iff t p hkind, exemptByMarker_iff]
  cases t.throwsByContract p interface with
  | true => simp
  | false =>
      cases hparent : node.parent with
      | none => simp
      | some receiver =>
          cases hreceiver : t.node? receiver with
          | none => simp [hreceiver]
          | some rnode => simp [hreceiver]

theorem exemptionIn_eq_none_iff (t : SyntaxTree) (p : Policy) (chain : List (NodeId × Node)) :
    t.exemptionIn p chain = none ↔ ¬t.Exempted p chain := by
  rw [exemptionIn, lambdaIn, Exempted]
  cases hfind : chain.find? (·.2.kind.isLambda) with
  | none => simp
  | some entry =>
      obtain ⟨lambda, node⟩ := entry
      have hlambda := List.find?_some hfind
      cases hkind : node.kind with
      | lambda interface =>
          simp [lambdaSite?, hkind, exemptionOf_eq_none_iff t p lambda hkind]
      | call _ | tryScope _ | function _ | other => simp [hkind, NodeKind.isLambda] at hlambda

/-- The conditions that come with each verdict on a call, given its scope. -/
structure Judged (t : SyntaxTree) (p : Policy) (c : Call) (chain : List (NodeId × Node))
    (verdict : Verdict) : Prop where
  violation : (∃ v, verdict = .violation v) ↔
    t.Throws p c ∧ ¬p.Caught chain ∧ ¬p.Declared chain ∧ ¬t.Exempted p chain
  unresolved : verdict = .unresolved ↔ c.target = none
  unchecked : verdict = .unchecked ↔ c.target ≠ none ∧ ¬t.Throws p c
  handled : (∃ how, verdict = .handled how) ↔ t.Throws p c ∧ (p.Caught chain ∨ p.Declared chain)
  exempt : (∃ how, verdict = .exempt how) ↔
    t.Throws p c ∧ ¬p.Caught chain ∧ ¬p.Declared chain ∧ t.Exempted p chain
  not_skipped : verdict ≠ .skipped

theorem throws_iff (t : SyntaxTree) (p : Policy) (c : Call) :
    (∃ d, t.resolve? c = some d ∧ p.covers d.throws = true) ↔ t.Throws p c := by
  constructor
  · rintro ⟨declaration, hresolve, hcovers⟩
    obtain ⟨d, htarget, hd⟩ := (resolve?_eq_some_iff t c declaration).mp hresolve
    exact ⟨d, declaration, htarget, hd, (p.covers_iff _).mp hcovers⟩
  · rintro ⟨d, declaration, htarget, hd, hmem⟩
    exact ⟨declaration, (resolve?_eq_some_iff t c declaration).mpr ⟨d, htarget, hd⟩,
      (p.covers_iff _).mpr hmem⟩

theorem Throws.exists_target (hthrows : t.Throws p c) : c.target ≠ none := by
  obtain ⟨d, -, htarget, -⟩ := hthrows
  rw [htarget]
  exact Option.some_ne_none d

theorem Throws.checkedCall (hthrows : t.Throws p c) (hnode : t.node? id = some node)
    (hkind : node.kind = .call c) : t.CheckedCall p id c := by
  obtain ⟨declaration, hresolve, hcovers⟩ := (t.throws_iff p c).mpr hthrows
  exact ⟨node, declaration, hnode, hkind, hresolve, hcovers⟩

theorem judged_unresolved (htarget : c.target = none) : t.Judged p c chain .unresolved := by
  have hthrows : ¬t.Throws p c := fun h => h.exists_target htarget
  constructor <;> simp [htarget, hthrows]

theorem judged_unchecked (htarget : c.target ≠ none) (hthrows : ¬t.Throws p c) :
    t.Judged p c chain .unchecked := by
  constructor <;> simp [htarget, hthrows]

theorem Scope.judged_checked (hscope : t.Scope id chain) (hlength : chain.length ≤ maxAncestors)
    (source : Option String) (hthrows : t.Throws p c) :
    t.Judged p c chain (t.checkedVerdict p source id c) := by
  have htarget := hthrows.exists_target
  have hhandler := hscope.handlerIn_eq_none_iff p
  have hexemption := exemptionIn_eq_none_iff t p chain
  rw [hscope.checkedVerdict_eq hlength]
  cases hfound : p.handlerIn chain with
  | some h =>
      have hhandled : p.Caught chain ∨ p.Declared chain := by
        by_contra hnone
        rw [hhandler.mpr (not_or.mp hnone)] at hfound
        cases hfound
      have hclosed : ∀ q, ¬(¬p.Caught chain ∧ ¬p.Declared chain ∧ q) :=
        fun q hopen => hhandled.elim hopen.1 hopen.2.1
      constructor <;> simp [hthrows, htarget, hhandled, hclosed]
  | none =>
      obtain ⟨huncaught, hundeclared⟩ := hhandler.mp hfound
      cases hexempt : t.exemptionIn p chain with
      | some e =>
          have hexempted : t.Exempted p chain := by
            rw [hexempt] at hexemption
            simpa using hexemption
          constructor <;> simp [hthrows, htarget, huncaught, hundeclared, hexempted]
      | none =>
          have hopen := hexemption.mp hexempt
          constructor <;> simp [hthrows, htarget, huncaught, hundeclared, hopen]

/-- **The verdict on a call of a valid tree.** It has a scope, and what the scope holds decides. -/
theorem verdict_conditions (p : Policy) (source : Option String) (hvalid : t.validate = .ok ())
    (hnode : t.node? id = some node) (hkind : node.kind = .call c) :
    ∃ chain, t.Scope id chain ∧ t.Judged p c chain (t.verdict p source id) := by
  obtain ⟨hhandles, hrooted⟩ := (validate_eq_ok_iff t).mp hvalid
  obtain ⟨chain, hscope, hlength⟩ := (hrooted id node hnode).exists_scope hnode
  refine ⟨chain, hscope, ?_⟩
  by_cases hthrows : t.Throws p c
  · rw [(hthrows.checkedCall hnode hkind).verdict_eq source]
    exact hscope.judged_checked hlength source hthrows
  · cases htarget : c.target with
    | none =>
        have hverdict : t.verdict p source id = .unresolved := by
          simp [verdict, hnode, hkind, resolve?, htarget]
        rw [hverdict]
        exact judged_unresolved htarget
    | some d =>
        obtain ⟨declaration, hd⟩ : ∃ declaration, t.declaration? d = some declaration :=
          ⟨_, Array.getElem?_eq_getElem (hhandles.targets _ node c d hnode hkind htarget)⟩
        have hcovers : p.covers declaration.throws = false := by
          rw [← Bool.not_eq_true, Policy.covers_iff]
          exact fun hmem => hthrows ⟨d, declaration, htarget, hd, hmem⟩
        have hverdict : t.verdict p source id = .unchecked := by
          simp [verdict, hnode, hkind, resolve?, htarget, hd, hcovers]
        rw [hverdict]
        exact judged_unchecked (by simp [htarget]) hthrows

theorem verdict_conditions_nestedCall : nestedCall.validate = .ok () ∧
    ∃ chain, nestedCall.Scope ⟨4⟩ chain ∧
      nestedCall.Throws (.ofNames "Checked" "Safe") ⟨"open", some ⟨0⟩, ⟨40, 44⟩, ⟨40, 50⟩⟩ ∧
      ¬(Policy.ofNames "Checked" "Safe").Caught chain ∧
      ¬(Policy.ofNames "Checked" "Safe").Declared chain ∧
      ¬nestedCall.Exempted (.ofNames "Checked" "Safe") chain := by
  have hcall : nestedCall.node? ⟨4⟩ =
      some ⟨some ⟨3⟩, ⟨40, 50⟩, .call ⟨"open", some ⟨0⟩, ⟨40, 44⟩, ⟨40, 50⟩⟩⟩ := rfl
  obtain ⟨chain, hscope, hjudged⟩ :=
    verdict_conditions (.ofNames "Checked" "Safe") none rfl hcall rfl
  exact ⟨rfl, chain, hscope, hjudged.violation.mp ⟨_, rfl⟩⟩

end SyntaxTree

end Uncaught
