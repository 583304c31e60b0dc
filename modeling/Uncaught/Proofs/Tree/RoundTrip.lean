import Uncaught.Proofs.Json.Records
import Uncaught.Report.Analysis
import Uncaught.Tree.Codec

/-!
Trees survive being written and read, whatever they hold: any text, any handles, valid or not. So a
tree that is read back is validated and analysed like the tree that was written.
-/

namespace Uncaught

open Json (Decoder)
open Json.Decoder (recovers_uint32 recovers_string recovers_bool recovers_option recovers_list
  recovers_bareName)

variable (levels : Nat)

theorem Json.Decoder.recovers_strings (ss : List String) :
    (Decoder.list .string).Recovers (levels + 1) (.strings ss) ss :=
  recovers_list fun s _ => recovers_string levels s

theorem TextRange.recovers (r : TextRange) : decoder.Recovers (levels + 1) r.toJson r :=
  (Json.Fields.Written.recovers
    (.member (recovers_uint32 levels r.start) (.member (recovers_uint32 levels r.stop) .nil))
    (by decide) _).map _

theorem NodeId.recovers (id : NodeId) : decoder.Recovers levels id.toJson id :=
  (recovers_uint32 levels id.index).map _

theorem DeclId.recovers (id : DeclId) : decoder.Recovers levels id.toJson id :=
  (recovers_uint32 levels id.index).map _

theorem TypeId.recovers (id : TypeId) : decoder.Recovers levels id.toJson id :=
  (recovers_uint32 levels id.index).map _

theorem SourceLanguage.recovers (l : SourceLanguage) : decoder.Recovers levels l.toJson l := by
  apply recovers_bareName
  cases l <;> rfl

theorem Call.recovers (c : Call) : decoder.Recovers (levels + 2) (.obj c.toMembers) c :=
  (Json.Fields.Written.recovers
    (.member (recovers_string _ c.name)
      (.member (recovers_option (DeclId.recovers _) nofun c.target)
        (.member (TextRange.recovers levels c.calleeRange)
          (.member (TextRange.recovers levels c.statementRange) .nil))))
    (by decide) _).map _

theorem CatchClause.recovers (c : CatchClause) : decoder.Recovers (levels + 2) c.toJson c :=
  (Json.Fields.Written.recovers (.member (Json.Decoder.recovers_strings levels c.caught) .nil)
    (by decide) _).map _

namespace NodeKind

theorem recovers (kind : NodeKind) : decoder.Recovers (levels + 4) kind.toJson kind := by
  cases kind with
  | call c =>
      exact Json.recovers_tagged _ rfl (by simp [Call.toMembers]) ((Call.recovers (levels + 2) c).map _)
  | tryScope clauses =>
      have hclauses := recovers_list fun c (_ : c ∈ clauses) => CatchClause.recovers levels c
      exact Json.recovers_tagged _ rfl (by simp)
        ((Json.Fields.Written.recovers (.member hclauses .nil) (by decide) _).map _)
  | function f =>
      exact Json.recovers_tagged _ rfl (by simp)
        ((Json.Fields.Written.recovers
          (.member (recovers_string _ f.name)
            (.member (Json.Decoder.recovers_strings (levels + 2) f.throws) .nil))
          (by decide) _).map _)
  | lambda interface =>
      exact Json.recovers_tagged _ rfl (by simp)
        ((Json.Fields.Written.recovers
          (.member (recovers_option (TypeId.recovers _) nofun interface) .nil) (by decide) _).map _)
  | other => exact Json.recovers_tagged _ rfl (by simp) (Json.recovers_noFields _ _)

end NodeKind

theorem Node.recovers (n : Node) : decoder.Recovers (levels + 5) n.toJson n :=
  (Json.Fields.Written.recovers
    (.member (recovers_option (NodeId.recovers _) nofun n.parent)
      (.member (TextRange.recovers (levels + 3) n.range)
        (.member (NodeKind.recovers levels n.kind) .nil)))
    (by decide) _).map _

theorem Declaration.recovers (d : Declaration) : decoder.Recovers (levels + 2) d.toJson d :=
  (Json.Fields.Written.recovers
    (.member (recovers_string _ d.qualifiedName)
      (.member (Json.Decoder.recovers_strings levels d.throws)
        (.member (Json.Decoder.recovers_strings levels d.annotations)
          (.member (recovers_bool _ d.isAbstract) .nil))))
    (by decide) _).map _

theorem TypeDecl.recovers (t : TypeDecl) : decoder.Recovers (levels + 2) t.toJson t :=
  (Json.Fields.Written.recovers
    (.member (recovers_string _ t.qualifiedName)
      (.member (recovers_list fun d _ => DeclId.recovers levels d) .nil))
    (by decide) _).map _

namespace SyntaxTree

theorem sourceMember_eq (source : Option String) :
    sourceMember source = source.toList.map fun text => ("source", .str text) := by
  cases source <;> rfl

theorem recovers (t : SyntaxTree) : decoder.Recovers (levels + 7) t.toJson t := by
  have hwritten : fields.Written (levels + 6)
      (t.file, t.language, t.source, t.nodes.toList, t.declarations.toList, t.types.toList, ()) _ :=
    .member (recovers_string _ t.file)
      (.member (SourceLanguage.recovers _ t.language)
        (.optional "source" (recovers_string _) nofun t.source
          (.member (recovers_list fun n _ => Node.recovers levels n)
            (.member (recovers_list fun d _ => Declaration.recovers (levels + 3) d)
              (.member (recovers_list fun d _ => TypeDecl.recovers (levels + 3) d) .nil)))))
  rw [toJson, sourceMember_eq]
  exact (hwritten.recovers (by decide) _).map _

/-- **A tree survives being written and read**, in either layout. It is validated like the tree that was
written, with the same error if it is refused, and every analyzer reports the same about it. -/
theorem reload_eq (t : SyntaxTree) {text : String}
    (htext : text = t.toJson.compact ∨ text = t.toJson.pretty) :
    decodeText text = .ok t ∧
    (t.validate = .ok () → ofJsonText text = .ok t) ∧
    (∀ error, t.validate = .error error → ofJsonText text = .error error) ∧
    ∀ (a : Analyzer) reloaded, decodeText text = .ok reloaded ∨ ofJsonText text = .ok reloaded →
      a.analyzeTree reloaded = a.analyzeTree t := by
  have hdecode : decodeText text = .ok t := by
    rw [decodeText, (recovers 0 t).decodeText_eq (by decide) htext]
    rfl
  have hload : ofJsonText text = t.validate.map fun _ => t := by
    rw [ofJsonText, hdecode]
    change (t.validate >>= fun _ => .ok t) = _
    cases t.validate <;> rfl
  refine ⟨hdecode, fun hvalid => ?_, fun error herror => ?_, fun a reloaded hreloaded => ?_⟩
  · rw [hload, hvalid]
    rfl
  · rw [hload, herror]
    rfl
  · rcases hreloaded with hreloaded | hreloaded
    · rw [hdecode] at hreloaded
      cases hreloaded
      rfl
    · rw [hload] at hreloaded
      cases hvalid : t.validate with
      | error error =>
          rw [hvalid] at hreloaded
          cases hreloaded
      | ok _ =>
          rw [hvalid] at hreloaded
          cases hreloaded
          rfl

/-- A node of every kind, and texts that have to be escaped. -/
def mixedNodes : SyntaxTree where
  file := "src/\"Main\".kt"
  language := .other
  source := some "tab\t line\n bell\x07 \\ 😀"
  nodes := #[
    ⟨none, ⟨0, 90⟩, .function ⟨"main", ["IOException"]⟩⟩,
    ⟨some ⟨0⟩, ⟨10, 80⟩, .tryScope [⟨["A", "B"]⟩, ⟨[]⟩]⟩,
    ⟨some ⟨1⟩, ⟨20, 4294967295⟩, .lambda (some ⟨0⟩)⟩,
    ⟨some ⟨2⟩, ⟨30, 30⟩, .other⟩,
    ⟨some ⟨3⟩, ⟨40, 50⟩, .call ⟨"größe", none, ⟨40, 44⟩, ⟨50, 40⟩⟩⟩]
  declarations := #[⟨"Function0.invoke", [], ["Safe"], true⟩]
  types := #[⟨"Function0", [⟨0⟩]⟩]

/-- `mixedNodes` with a lambda that implements a type outside the table. -/
def untypedNodes : SyntaxTree := { mixedNodes with types := #[] }

/-- `mixedNodes` is read back, `untypedNodes` is refused with its own error. -/
theorem reload_eq_mixedNodes :
    mixedNodes.validate = .ok () ∧ ofJsonText mixedNodes.toJson.pretty = .ok mixedNodes ∧
    untypedNodes.validate = .error (.invalidHandle .type 0 0) ∧
    ofJsonText untypedNodes.toJson.compact = .error (.invalidHandle .type 0 0) := by
  have hvalid : mixedNodes.validate = .ok () := rfl
  have hinvalid : untypedNodes.validate = .error (.invalidHandle .type 0 0) := rfl
  obtain ⟨-, haccepted, -, -⟩ := reload_eq mixedNodes (Or.inr rfl)
  obtain ⟨-, -, hrefused, -⟩ := reload_eq untypedNodes (Or.inl rfl)
  exact ⟨hvalid, haccepted hvalid, hinvalid, hrefused _ hinvalid⟩

end SyntaxTree

end Uncaught
