import Mathlib.Data.List.Forall2
import Uncaught.Proofs.Report.PerCall

/-!
Trees that handle more. If tries catch more, functions declare more and declarations carry more
annotations, both walks see the same nodes as before. The walk for a handler may stop earlier, and a
lambda may become exempt by its receiver; where neither happens, the verdict stays what it was. So no
call is reported or left undecided that was not before.
-/

namespace Uncaught

/-- The second kind handles at least what the first one does. -/
inductive NodeKind.HandlesMore : NodeKind → NodeKind → Prop
  | tryScope {clauses clauses' : List CatchClause}
      (hcaught : ∀ clause ∈ clauses, ∃ clause' ∈ clauses', clause.caught ⊆ clause'.caught) :
      HandlesMore (.tryScope clauses) (.tryScope clauses')
  | function {f f' : FunctionDecl} (hthrows : f.throws ⊆ f'.throws) :
      HandlesMore (.function f) (.function f')
  | call (c : Call) : HandlesMore (.call c) (.call c)
  | lambda (interface : Option TypeId) : HandlesMore (.lambda interface) (.lambda interface)
  | other : HandlesMore .other .other

theorem NodeKind.HandlesMore.isCall_eq {kind kind' : NodeKind} (hkind : kind.HandlesMore kind') :
    kind'.isCall = kind.isCall := by
  cases hkind <;> rfl

/-- The second node stands where the first one does and handles at least as much. -/
structure Node.HandlesMore (node node' : Node) : Prop where
  parent : node'.parent = node.parent
  kind : node.kind.HandlesMore node'.kind

/-- The second declaration is the first one with further annotations. -/
structure Declaration.AnnotatedMore (d d' : Declaration) : Prop where
  throws : d'.throws = d.throws
  isAbstract : d'.isAbstract = d.isAbstract
  annotations : d.annotations ⊆ d'.annotations

/-- The second tree has the tables of the first one with more handling: entry by entry, its tries and
functions handle at least as much, and its declarations carry at least the same annotations. -/
structure SyntaxTree.HandlesMore (t t' : SyntaxTree) : Prop where
  nodes : List.Forall₂ Node.HandlesMore t.nodes.toList t'.nodes.toList
  declarations : List.Forall₂ Declaration.AnnotatedMore t.declarations.toList t'.declarations.toList
  types : t'.types = t.types

/-- Tables that are related entry by entry have related entries, and end at the same place. -/
theorem rel_getElem? {α : Type} {R : α → α → Prop} {xs ys : Array α}
    (h : List.Forall₂ R xs.toList ys.toList) (i : Nat) : Option.Rel R xs[i]? ys[i]? := by
  rw [← Array.getElem?_toList, ← Array.getElem?_toList]
  generalize xs.toList = xs at h
  generalize ys.toList = ys at h
  induction h generalizing i with
  | nil => exact .none
  | cons hhead _ ih =>
      cases i with
      | zero => exact .some hhead
      | succ i => exact ih i

theorem rel_cases {α : Type} {R : α → α → Prop} {x y : Option α} (h : Option.Rel R x y) :
    (x = none ∧ y = none) ∨ ∃ a b, x = some a ∧ y = some b ∧ R a b := by
  cases h with
  | none => exact Or.inl ⟨rfl, rfl⟩
  | some hab => exact Or.inr ⟨_, _, rfl, rfl, hab⟩

theorem filterMap_sublist {α β : Type} {xs : List α} {f g : α → Option β}
    (h : ∀ x y, f x = some y → g x = some y) : (xs.filterMap f).Sublist (xs.filterMap g) := by
  induction xs with
  | nil => exact .slnil
  | cons x xs ih =>
      cases hf : f x with
      | some y => simpa [hf, h x y hf] using ih
      | none =>
          rw [List.filterMap_cons_none hf]
          cases hg : g x with
          | none => simpa [hg] using ih
          | some z => simpa [hg] using ih.cons z

/-- Two entries of chains with one handle, the second of which handles more. -/
def EntryMore (entry entry' : NodeId × Node) : Prop :=
  entry'.1 = entry.1 ∧ entry.2.HandlesMore entry'.2

namespace Policy

variable {p : Policy}

theorem covers_mono {names names' : List String} (hsub : names ⊆ names')
    (hcovers : p.covers names = true) : p.covers names' = true := by
  rw [covers_iff] at hcovers ⊢
  exact hsub hcovers

theorem caughtBy_mono {clauses clauses' : List CatchClause}
    (hclauses : ∀ clause ∈ clauses, ∃ clause' ∈ clauses', clause.caught ⊆ clause'.caught)
    (hcaught : p.caughtBy clauses = true) : p.caughtBy clauses' = true := by
  rw [caughtBy_iff] at hcaught ⊢
  obtain ⟨clause, hmem, hname⟩ := hcaught
  obtain ⟨clause', hmem', hsub⟩ := hclauses clause hmem
  exact ⟨clause', hmem', hsub hname⟩

/-- The walk over the chain that handles more finds a handler, or both walks end in the same way. -/
theorem handlerAlong_lockstep (p : Policy) {nodes nodes' : List (NodeId × Node)}
    (hchain : List.Forall₂ EntryMore nodes nodes') (error : Option TreeError) :
    (∃ how, p.handlerAlong nodes' error = .ok (some how)) ∨
      p.handlerAlong nodes' error = p.handlerAlong nodes error := by
  induction hchain with
  | nil => exact Or.inr rfl
  | @cons entry entry' _ _ hmore _ ih =>
      -- a node that handles more may end the walk, and one that does not was passed before as well
      obtain ⟨id, parent, range, kind⟩ := entry
      obtain ⟨id', parent', range', kind'⟩ := entry'
      obtain ⟨-, -, hkind⟩ := hmore
      cases hkind with
      | @tryScope clauses clauses' hclauses =>
          simp only [handlerAlong]
          by_cases hcaught' : p.caughtBy clauses' = true
          · exact Or.inl ⟨.catchClause id', if_pos hcaught'⟩
          · have hcaught : ¬p.caughtBy clauses = true := mt (caughtBy_mono hclauses) hcaught'
            rw [if_neg hcaught', if_neg hcaught]
            exact ih
      | @function f f' hthrows =>
          simp only [handlerAlong]
          by_cases hcovers' : p.covers f'.throws = true
          · exact Or.inl ⟨.declaration id', by rw [if_pos hcovers']⟩
          · have hcovers : ¬p.covers f.throws = true := mt (covers_mono hthrows) hcovers'
            rw [if_neg hcovers', if_neg hcovers]
            exact Or.inr rfl
      | call | lambda | other => exact ih

end Policy

/-- The innermost lambda is the same on both chains. -/
theorem lambdaAlong_lockstep {nodes nodes' : List (NodeId × Node)}
    (hchain : List.Forall₂ EntryMore nodes nodes') (error : Option TreeError) :
    lambdaAlong nodes' error = lambdaAlong nodes error := by
  induction hchain with
  | nil => rfl
  | @cons entry entry' _ _ hmore _ ih =>
      obtain ⟨id, parent, range, kind⟩ := entry
      obtain ⟨id', parent', range', kind'⟩ := entry'
      obtain ⟨hid, hparent, hkind⟩ := hmore
      cases hkind with
      | lambda interface =>
          simp only at hid hparent
          subst hid hparent
          rfl
      | function => rfl
      | tryScope | call | other => exact ih

namespace SyntaxTree.HandlesMore

variable {t t' : SyntaxTree} (hmore : t.HandlesMore t') (p : Policy)

include hmore

theorem node? (id : NodeId) : Option.Rel Node.HandlesMore (t.node? id) (t'.node? id) :=
  rel_getElem? hmore.nodes id.index.toNat

theorem size_eq : t'.nodes.size = t.nodes.size := by
  rw [← Array.length_toList, ← Array.length_toList, hmore.nodes.length_eq]

theorem declaration? (d : DeclId) :
    Option.Rel Declaration.AnnotatedMore (t.declaration? d) (t'.declaration? d) :=
  rel_getElem? hmore.declarations d.index.toNat

theorem resolve? (c : Call) :
    Option.Rel Declaration.AnnotatedMore (t.resolve? c) (t'.resolve? c) := by
  rw [SyntaxTree.resolve?, SyntaxTree.resolve?]
  cases c.target with
  | none => exact .none
  | some d => exact hmore.declaration? d

/-- The contract of an interface does not depend on annotations. -/
theorem throwsByContract_eq (interface : Option TypeId) :
    t'.throwsByContract p interface = t.throwsByContract p interface := by
  have htype : t'.type? = t.type? := by
    funext i
    rw [type?, type?, hmore.types]
  cases interface with
  | none => rfl
  | some i =>
      simp only [throwsByContract, contract?, Option.bind_eq_bind, Option.bind_some, htype]
      cases t.type? i with
      | none => rfl
      | some type =>
          have hmembers : List.Forall₂ Declaration.AnnotatedMore
              (type.methods.filterMap t.declaration?) (type.methods.filterMap t'.declaration?) := by
            refine List.rel_filterMap (R := Eq) ?_ (List.forall₂_refl type.methods)
            rintro d _ rfl
            exact hmore.declaration? d
          have habstract : List.Forall₂ Declaration.AnnotatedMore
              ((type.methods.filterMap t.declaration?).filter (·.isAbstract))
              ((type.methods.filterMap t'.declaration?).filter (·.isAbstract)) := by
            refine List.rel_filter ?_ hmembers
            intro d d' hd
            simp only [hd.isAbstract]
          -- only the number of abstract members and what a single one throws matter
          simp only [Option.bind_some]
          generalize (type.methods.filterMap t.declaration?).filter (·.isAbstract) = members
            at habstract
          generalize (type.methods.filterMap t'.declaration?).filter (·.isAbstract) = members'
            at habstract
          cases habstract with
          | nil => rfl
          | cons hd hrest =>
              cases hrest with
              | nil => simp only [hd.throws]
              | cons => rfl

theorem receivesSafely_of {node node' : Node} (hnode : node.HandlesMore node')
    (hsafely : t.receivesSafely p node = true) : t'.receivesSafely p node' = true := by
  obtain ⟨parent, range, kind⟩ := node
  obtain ⟨parent', range', kind'⟩ := node'
  obtain ⟨-, hkind⟩ := hnode
  cases hkind with
  | call c =>
      simp only [receivesSafely] at hsafely ⊢
      rcases rel_cases (hmore.resolve? c) with ⟨hnone, -⟩ | ⟨d, d', hresolve, hresolve', hd⟩
      · simp [hnone] at hsafely
      · simp only [hresolve, hresolve', List.contains_iff_mem] at hsafely ⊢
        exact hd.annotations hsafely
  | tryScope | function | lambda | other => cases hsafely

/-! ### Verdicts -/

theorem climb_lockstep (origin : NodeId) (n : Nat) (next : Option NodeId) :
    List.Forall₂ EntryMore (t.climb origin n next).nodes (t'.climb origin n next).nodes ∧
      (t'.climb origin n next).error = (t.climb origin n next).error := by
  induction n generalizing next with
  | zero => cases next <;> exact ⟨.nil, rfl⟩
  | succ n ih =>
      cases next with
      | none => exact ⟨.nil, rfl⟩
      | some a =>
          rw [climb, climb]
          rcases rel_cases (hmore.node? a) with ⟨hnone, hnone'⟩ | ⟨node, node', hnode, hnode', ha⟩
          · simp only [hnone, hnone', hmore.size_eq]
            exact ⟨.nil, trivial⟩
          · obtain ⟨hnodes, herror⟩ := ih node.parent
            simp only [hnode, hnode', ha.parent]
            exact ⟨.cons ⟨rfl, ha⟩ hnodes, herror⟩

theorem ancestors_lockstep (id : NodeId) :
    List.Forall₂ EntryMore (t.ancestors id).nodes (t'.ancestors id).nodes ∧
      (t'.ancestors id).error = (t.ancestors id).error := by
  have hparent : t'.parent? id = t.parent? id := by
    rcases rel_cases (hmore.node? id) with ⟨hnone, hnone'⟩ | ⟨node, node', hnode, hnode', hid⟩
    · rw [parent?_of_dangling hnone, parent?_of_dangling hnone']
    · rw [parent?_of_node? hnode, parent?_of_node? hnode', hid.parent]
  rw [ancestors_eq, ancestors_eq, hparent]
  exact hmore.climb_lockstep id maxAncestors (t.parent? id)

theorem handler?_lockstep (id : NodeId) :
    (∃ how, t'.handler? p id = .ok (some how)) ∨ t'.handler? p id = t.handler? p id := by
  obtain ⟨hnodes, herror⟩ := hmore.ancestors_lockstep id
  rw [handler?, handler?, herror]
  exact p.handlerAlong_lockstep hnodes _

theorem enclosingLambda?_eq (id : NodeId) : t'.enclosingLambda? id = t.enclosingLambda? id := by
  obtain ⟨hnodes, herror⟩ := hmore.ancestors_lockstep id
  rw [enclosingLambda?, enclosingLambda?, herror]
  exact lambdaAlong_lockstep hnodes _

theorem lambdaExemption?_lockstep (site : LambdaSite) :
    (∃ how, t'.lambdaExemption? p site = .ok (some how)) ∨
      t'.lambdaExemption? p site = t.lambdaExemption? p site := by
  rw [lambdaExemption?, lambdaExemption?, hmore.throwsByContract_eq, hmore.size_eq]
  split
  · exact Or.inr rfl
  · cases site.parent with
    | none => exact Or.inr rfl
    | some receiver =>
        rcases rel_cases (hmore.node? receiver) with
          ⟨hnone, hnone'⟩ | ⟨node, node', hnode, hnode', hreceiver⟩
        · simp only [hnone, hnone', or_true]
        · simp only [hnode, hnode']
          by_cases hsafely' : t'.receivesSafely p node' = true
          · exact Or.inl ⟨.safeMarker site.id receiver, by rw [if_pos hsafely']⟩
          · have hsafely : ¬t.receivesSafely p node = true :=
              mt (hmore.receivesSafely_of p hreceiver) hsafely'
            rw [if_neg hsafely', if_neg hsafely]
            exact Or.inr rfl

theorem exemption?_lockstep (id : NodeId) :
    (∃ how, t'.exemption? p id = .ok (some how)) ∨ t'.exemption? p id = t.exemption? p id := by
  rw [exemption?, exemption?, hmore.enclosingLambda?_eq]
  cases t.enclosingLambda? id with
  | error error => exact Or.inr rfl
  | ok site =>
      cases site with
      | none => exact Or.inr rfl
      | some site => exact hmore.lambdaExemption?_lockstep p site

end SyntaxTree.HandlesMore

/-- Someone answers for the exception. -/
def Verdict.Covered (v : Verdict) : Prop := (∃ how, v = .handled how) ∨ ∃ how, v = .exempt how

theorem Verdict.not_covered_violation (v : Violation) : ¬(violation v).Covered := by
  rintro (⟨how, hhow⟩ | ⟨how, hhow⟩) <;> cases hhow

theorem Verdict.not_covered_skipped : ¬skipped.Covered := by
  rintro (⟨how, hhow⟩ | ⟨how, hhow⟩) <;> cases hhow

namespace SyntaxTree.HandlesMore

variable {t t' : SyntaxTree} (hmore : t.HandlesMore t') (p : Policy) (source : Option String)

include hmore

theorem checkedVerdict_lockstep (id : NodeId) (c : Call) :
    (t'.checkedVerdict p source id c).Covered ∨
      t'.checkedVerdict p source id c = t.checkedVerdict p source id c ∨
      t'.checkedVerdict p source id c = .violation (.ofCall p t'.file source c) ∧
        t.checkedVerdict p source id c = .violation (.ofCall p t.file source c) := by
  rcases hmore.handler?_lockstep p id with ⟨how, hhandler⟩ | hhandler
  · exact Or.inl (Or.inl ⟨how, by rw [checkedVerdict, hhandler]⟩)
  rw [checkedVerdict, checkedVerdict, hhandler]
  cases t.handler? p id with
  | error error => exact Or.inr (Or.inl rfl)
  | ok handler =>
      cases handler with
      | some h => exact Or.inr (Or.inl rfl)
      | none =>
          rcases hmore.exemption?_lockstep p id with ⟨how, hexemption⟩ | hexemption
          · exact Or.inl (Or.inr ⟨how, by rw [hexemption]⟩)
          simp only [hexemption]
          cases t.exemption? p id with
          | error error => exact Or.inr (Or.inl rfl)
          | ok exemption =>
              cases exemption with
              | some e => exact Or.inr (Or.inl rfl)
              | none => exact Or.inr (Or.inr ⟨rfl, rfl⟩)

/-- With more handling, someone answers for the exception, or the verdict stays as it was, up to the
file that a violation names. -/
theorem verdict_lockstep (id : NodeId) :
    (t'.verdict p source id).Covered ∨ t'.verdict p source id = t.verdict p source id ∨
      ∃ c, t'.verdict p source id = .violation (.ofCall p t'.file source c) ∧
        t.verdict p source id = .violation (.ofCall p t.file source c) := by
  rcases rel_cases (hmore.node? id) with ⟨hnone, hnone'⟩ | ⟨node, node', hnode, hnode', hid⟩
  · rw [verdict, verdict, hnone, hnone']
    exact Or.inr (Or.inl rfl)
  · rw [verdict, verdict, hnode, hnode']
    obtain ⟨parent, range, kind⟩ := node
    obtain ⟨parent', range', kind'⟩ := node'
    obtain ⟨-, hkind⟩ := hid
    cases hkind with
    | call c =>
        rcases rel_cases (hmore.resolve? c) with ⟨hnone, hnone'⟩ | ⟨d, d', hresolve, hresolve', hd⟩
        · simp only [hnone, hnone']
          exact Or.inr (Or.inl trivial)
        · simp only [hresolve, hresolve', hd.throws]
          split
          · rcases hmore.checkedVerdict_lockstep p source id c with hcovered | hsame | hviolation
            · exact Or.inl hcovered
            · exact Or.inr (Or.inl hsame)
            · exact Or.inr (Or.inr ⟨c, hviolation⟩)
          · exact Or.inr (Or.inl rfl)
    | tryScope | function | lambda | other => exact Or.inr (Or.inl rfl)

theorem violation_of_violation {id : NodeId} {v : Violation}
    (hverdict : t'.verdict p source id = .violation v) :
    ∃ w, t.verdict p source id = .violation w ∧ (t'.file = t.file → w = v) := by
  rcases hmore.verdict_lockstep p source id with hcovered | hsame | ⟨c, hviolation', hviolation⟩
  · rw [hverdict] at hcovered
    exact absurd hcovered (Verdict.not_covered_violation v)
  · exact ⟨v, hsame ▸ hverdict, fun _ => rfl⟩
  · rw [hverdict, Verdict.violation.injEq] at hviolation'
    exact ⟨_, hviolation, fun hfile => by rw [hviolation', hfile]⟩

theorem skipped_of_skipped {id : NodeId} (hverdict : t'.verdict p source id = .skipped) :
    t.verdict p source id = .skipped := by
  rcases hmore.verdict_lockstep p source id with hcovered | hsame | ⟨c, hviolation', -⟩
  · rw [hverdict] at hcovered
    exact absurd hcovered Verdict.not_covered_skipped
  · rw [← hsame, hverdict]
  · rw [hverdict] at hviolation'
    cases hviolation'

theorem callPositions_eq : t'.callPositions = t.callPositions := by
  rw [callPositions, callPositions, hmore.size_eq]
  apply List.filter_congr
  intro position _
  rcases rel_cases (rel_getElem? hmore.nodes position) with
    ⟨hnone, hnone'⟩ | ⟨node, node', hnode, hnode', hsame⟩
  · rw [hnone, hnone']
  · rw [hnode, hnode', Option.any_some, Option.any_some]
    exact hsame.kind.isCall_eq

/-- The report on the tree with more handling leaves out violations and adds none. -/
theorem violations_sublist (hfile : t'.file = t.file) (hlanguage : t'.language = t.language)
    (hsource : t'.source = t.source) (a : Analyzer) :
    (a.analyzeTree t').violations.Sublist (a.analyzeTree t).violations := by
  rw [Analyzer.analyzeTree_violations_eq, Analyzer.analyzeTree_violations_eq, hmore.callPositions_eq,
    hsource]
  apply filterMap_sublist
  intro position v hcall
  obtain ⟨hkotlin, w, hverdict, hw⟩ := Analyzer.analyzeCall_eq_some_iff.mp hcall
  obtain ⟨_, hviolation, hsame⟩ := hmore.violation_of_violation a.policy t.source hverdict
  rw [hsame hfile] at hviolation
  exact Analyzer.analyzeCall_eq_some_iff.mpr ⟨hlanguage ▸ hkotlin, w, hviolation, hw⟩

end SyntaxTree.HandlesMore

namespace SyntaxTree

/-- **More handling never creates a violation.** If a tree handles more than another, each call that is
reported in it is reported in the other tree, and each node that it leaves undecided is left undecided
there. So a report on the same file with more handling only leaves violations out. -/
theorem handlesMore_reports_less {t t' : SyntaxTree} (hmore : t.HandlesMore t') (p : Policy) :
    (∀ source id v, t'.verdict p source id = .violation v →
      ∃ w, t.verdict p source id = .violation w ∧ (t'.file = t.file → w = v)) ∧
    (∀ source id, t'.verdict p source id = .skipped → t.verdict p source id = .skipped) ∧
    (t'.file = t.file → t'.language = t.language → t'.source = t.source → ∀ suppressions,
      ((Analyzer.mk p suppressions).analyzeTree t').violations.Sublist
        ((Analyzer.mk p suppressions).analyzeTree t).violations) :=
  ⟨fun source _ _ => hmore.violation_of_violation p source,
    fun source _ => hmore.skipped_of_skipped p source,
    fun hfile hlanguage hsource _ => hmore.violations_sublist hfile hlanguage hsource _⟩

/-- `nestedCall` with a further name caught and a further clause, which catches nothing that matters,
with a declared exception, and with a marker on the function that receives the lambda. -/
def nestedCallMore : SyntaxTree :=
  { nestedCall with
    nodes := (nestedCall.nodes.setIfInBounds 0
        ⟨none, ⟨0, 90⟩, .function ⟨"main", ["Unrelated"]⟩⟩).setIfInBounds 1
      ⟨some ⟨0⟩, ⟨10, 80⟩, .tryScope [⟨["Error"]⟩, ⟨["Timeout", "IOException"]⟩]⟩
    declarations := nestedCall.declarations.setIfInBounds 1 ⟨"run", [], ["Safe"], false⟩ }

theorem nestedCall_handlesMore : nestedCall.HandlesMore nestedCallMore where
  types := rfl
  nodes := by
    refine .cons ⟨rfl, .function (by simp)⟩ (.cons ⟨rfl, .tryScope ?_⟩
      (.cons ⟨rfl, .call _⟩ (.cons ⟨rfl, .lambda _⟩ (.cons ⟨rfl, .call _⟩ .nil))))
    simp
  declarations :=
    .cons ⟨rfl, rfl, by simp⟩ (.cons ⟨rfl, rfl, by simp⟩ (.cons ⟨rfl, rfl, by simp⟩ .nil))

/-- The inner call of `nestedCallMore` is reported, unless the marker is the one that counts. -/
theorem handlesMore_reports_less_nestedCall :
    let p := Policy.ofNames "Checked" "Other"
    let v := Violation.ofCall p "Main.kt" none ⟨"open", some ⟨0⟩, ⟨40, 44⟩, ⟨40, 50⟩⟩
    nestedCall.HandlesMore nestedCallMore ∧
    nestedCallMore.verdict p none ⟨4⟩ = .violation v ∧ nestedCall.verdict p none ⟨4⟩ = .violation v ∧
    nestedCallMore.verdict p none ⟨5⟩ = .skipped ∧ nestedCall.verdict p none ⟨5⟩ = .skipped ∧
    ((Analyzer.new p).analyzeTree nestedCallMore).violations.Sublist
      ((Analyzer.new p).analyzeTree nestedCall).violations ∧
    ((Analyzer.new (.ofNames "Checked" "Safe")).analyzeTree nestedCallMore).violations = [] := by
  intro p v
  obtain ⟨hviolation, hskipped, hsublist⟩ := handlesMore_reports_less nestedCall_handlesMore p
  have hreported : nestedCallMore.verdict p none ⟨4⟩ = .violation v := rfl
  have hundecided : nestedCallMore.verdict p none ⟨5⟩ = .skipped := rfl
  obtain ⟨w, hw, hsame⟩ := hviolation _ _ _ hreported
  rw [hsame rfl] at hw
  exact ⟨nestedCall_handlesMore, hreported, hw, hundecided, hskipped _ _ hundecided,
    hsublist rfl rfl rfl _, rfl⟩

end SyntaxTree

end Uncaught
