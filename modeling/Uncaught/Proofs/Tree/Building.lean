import Mathlib.Data.List.Basic
import Uncaught.Proofs.Tree.Validity
import Uncaught.Tree.Builder

/-!
Trees that are built step by step. An operation of the builder adds at most one entry to one table and
returns the handle of its place, so that the handles of a table are returned in order and the entries stay
as they are. If operations are only given handles that were returned before, every handle in the tree
points into its table and every parent stands before its children. Such a tree is valid unless a chain of
parents is too long.
-/

namespace Uncaught

/-- A place in one of the tables. -/
structure Handle where
  table : Table
  index : UInt32
  deriving DecidableEq

def NodeId.handle (id : NodeId) : Handle := ⟨.node, id.index⟩

def DeclId.handle (id : DeclId) : Handle := ⟨.declaration, id.index⟩

def TypeId.handle (id : TypeId) : Handle := ⟨.type, id.index⟩

/-- An entry of one of the tables. -/
inductive TableEntry where
  | node (n : Node)
  | declaration (d : Declaration)
  | type (t : TypeDecl)

namespace TableEntry

def table : TableEntry → Table
  | .node _ => .node
  | .declaration _ => .declaration
  | .type _ => .type

/-- The handles in an entry. -/
def uses : TableEntry → List Handle
  | .node n => n.parent.toList.map NodeId.handle ++
    match n.kind with
    | .call c => c.target.toList.map DeclId.handle
    | .lambda interface => interface.toList.map TypeId.handle
    | .tryScope _ | .function _ | .other => []
  | .declaration _ => []
  | .type t => t.methods.map DeclId.handle

end TableEntry

namespace SyntaxTree

/-- The entries of a table. -/
def table (t : SyntaxTree) : Table → List TableEntry
  | .node => t.nodes.toList.map .node
  | .declaration => t.declarations.toList.map .declaration
  | .type => t.types.toList.map .type

/-- The entry that a handle names. -/
def named? (t : SyntaxTree) (h : Handle) : Option TableEntry :=
  match h.table with
  | .node => (t.node? ⟨h.index⟩).map .node
  | .declaration => (t.declaration? ⟨h.index⟩).map .declaration
  | .type => (t.type? ⟨h.index⟩).map .type

theorem named?_eq (t : SyntaxTree) (h : Handle) : t.named? h = (t.table h.table)[h.index.toNat]? := by
  obtain ⟨table, index⟩ := h
  cases table <;> simp [named?, SyntaxTree.table, node?, declaration?, type?]

/-- The number of entries of a table. -/
def count (t : SyntaxTree) : Table → Nat
  | .node => t.nodes.size
  | .declaration => t.declarations.size
  | .type => t.types.size

@[simp] theorem length_table (t : SyntaxTree) (table : Table) :
    (t.table table).length = t.count table := by
  cases table <;> simp [SyntaxTree.table, count]

/-- The handle of the place after the last entry of a table. -/
def nextHandle (t : SyntaxTree) (table : Table) : Handle := ⟨table, (t.count table).toUInt32⟩

/-- Adds an entry to its table. -/
def add (t : SyntaxTree) : TableEntry → SyntaxTree
  | .node n => { t with nodes := t.nodes.push n }
  | .declaration d => { t with declarations := t.declarations.push d }
  | .type type => { t with types := t.types.push type }

@[simp] theorem table_add (t : SyntaxTree) (e : TableEntry) (table : Table) :
    (t.add e).table table = t.table table ++ [e].filter (·.table = table) := by
  cases e <;> cases table <;> simp [add, SyntaxTree.table, TableEntry.table]

end SyntaxTree

/-! ### Operations -/

/-- One call of the builder. -/
inductive BuildStep where
  | source (text : String)
  | declaration (name : String) (throws : List String)
  | annotatedDeclaration (name : String) (throws annotations : List String)
  | abstractMember (name : String) (throws : List String)
  | interface (name : String) (methods : List DeclId)
  | function (parent : Option NodeId) (name : String) (throws : List String)
  | tryScope (parent : NodeId) (catches : List (List String))
  | lambda (parent : NodeId) (interface : Option TypeId)
  | block (parent : NodeId)
  | call (parent : NodeId) (name : String) (target : Option DeclId)
  | callAt (parent : NodeId) (name : String) (target : Option DeclId) (callee statement : TextRange)

namespace BuildStep

/-- What the builder does, and the handle that it returns. -/
def apply (b : TreeBuilder) : BuildStep → Option Handle × TreeBuilder
  | .source text => (none, b.setSource text)
  | .declaration name throws => (b.declaration name throws).map (some ·.handle) id
  | .annotatedDeclaration name throws annotations =>
    (b.annotatedDeclaration name throws annotations).map (some ·.handle) id
  | .abstractMember name throws => (b.abstractMember name throws).map (some ·.handle) id
  | .interface name methods => (b.interface name methods).map (some ·.handle) id
  | .function parent name throws => (b.function parent name throws).map (some ·.handle) id
  | .tryScope parent catches => (b.tryScope parent catches).map (some ·.handle) id
  | .lambda parent type => (b.lambda parent type).map (some ·.handle) id
  | .block parent => (b.block parent).map (some ·.handle) id
  | .call parent name target => (b.call parent name target).map (some ·.handle) id
  | .callAt parent name target callee statement =>
    (b.callAt parent name target callee statement).map (some ·.handle) id

/-- The handles that the builder is given. -/
def uses : BuildStep → List Handle
  | .source _ | .declaration _ _ | .annotatedDeclaration _ _ _ | .abstractMember _ _ => []
  | .interface _ methods => methods.map DeclId.handle
  | .function parent _ _ => parent.toList.map NodeId.handle
  | .tryScope parent _ | .block parent => [parent.handle]
  | .lambda parent type => parent.handle :: type.toList.map TypeId.handle
  | .call parent _ target | .callAt parent _ target _ _ =>
    parent.handle :: target.toList.map DeclId.handle

/-- The entry that is to be added. -/
def added? (b : TreeBuilder) : BuildStep → Option TableEntry
  | .source _ => none
  | .declaration name throws => some (.declaration ⟨name, throws, [], false⟩)
  | .annotatedDeclaration name throws annotations =>
    some (.declaration ⟨name, throws, annotations, false⟩)
  | .abstractMember name throws => some (.declaration ⟨name, throws, [], true⟩)
  | .interface name methods => some (.type ⟨name, methods⟩)
  | .function parent name throws => some (.node ⟨parent, b.nextRange, .function ⟨name, throws⟩⟩)
  | .tryScope parent catches =>
    some (.node ⟨some parent, b.nextRange, .tryScope (catches.map CatchClause.mk)⟩)
  | .lambda parent type => some (.node ⟨some parent, b.nextRange, .lambda type⟩)
  | .block parent => some (.node ⟨some parent, b.nextRange, .other⟩)
  | .call parent name target =>
    some (.node ⟨some parent, b.nextRange, .call ⟨name, target,
      ⟨b.cursor, b.cursor + name.utf8ByteSize.toUInt32⟩, b.nextRange⟩⟩)
  | .callAt parent name target callee statement =>
    some (.node ⟨some parent, statement, .call ⟨name, target, callee, statement⟩⟩)

variable {b : TreeBuilder} {e : TableEntry}

theorem uses_of_added? {op : BuildStep} (he : op.added? b = some e) : e.uses = op.uses := by
  cases op <;> cases he <;> simp [TableEntry.uses, uses]

@[simp] theorem handle_apply (op : BuildStep) (b : TreeBuilder) :
    (op.apply b).1 = (op.added? b).map fun e => b.tree.nextHandle e.table := by
  cases op <;> rfl

theorem tree_apply {op : BuildStep} (he : op.added? b = some e) :
    (op.apply b).2.tree = b.tree.add e := by
  cases op <;> cases he <;> rfl

@[simp] theorem table_apply (op : BuildStep) (b : TreeBuilder) (table : Table) :
    (op.apply b).2.tree.table table =
      b.tree.table table ++ (op.added? b).toList.filter (·.table = table) := by
  cases he : op.added? b with
  | some e => rw [tree_apply he, SyntaxTree.table_add, Option.toList_some]
  | none =>
      rw [Option.toList_none, List.filter_nil, List.append_nil]
      cases op <;> cases he
      cases table <;> rfl

end BuildStep

/-- A builder with the handles that it has returned. -/
structure BuildRun where
  builder : TreeBuilder
  handles : List Handle

namespace BuildRun

def start (file : String) (language : SourceLanguage) : BuildRun := ⟨.new file language, []⟩

def step (r : BuildRun) (op : BuildStep) : BuildRun :=
  ⟨(op.apply r.builder).2, r.handles ++ (op.apply r.builder).1.toList⟩

def steps (r : BuildRun) (ops : List BuildStep) : BuildRun := ops.foldl step r

@[simp] theorem steps_nil (r : BuildRun) : r.steps [] = r := rfl

@[simp] theorem steps_cons (r : BuildRun) (op : BuildStep) (ops : List BuildStep) :
    r.steps (op :: ops) = (r.step op).steps ops := rfl

@[simp] theorem steps_append (r : BuildRun) (ops more : List BuildStep) :
    r.steps (ops ++ more) = (r.steps ops).steps more := List.foldl_append

/-- What is built. -/
def tree (r : BuildRun) : SyntaxTree := r.builder.tree

/-- The operations are only given handles that were returned before. -/
def Traced (r : BuildRun) : List BuildStep → Prop
  | [] => True
  | op :: ops => (∀ h ∈ op.uses, h ∈ r.handles) ∧ (r.step op).Traced ops

variable {r : BuildRun} {op : BuildStep} {e : TableEntry}

@[simp] theorem table_step (r : BuildRun) (op : BuildStep) (table : Table) : (r.step op).tree.table table =
    r.tree.table table ++ (op.added? r.builder).toList.filter (·.table = table) :=
  op.table_apply r.builder table

@[simp] theorem handles_step (r : BuildRun) (op : BuildStep) : (r.step op).handles =
    r.handles ++ (op.added? r.builder).toList.map fun e => r.tree.nextHandle e.table := by
  rw [step, op.handle_apply, Option.toList_map]
  rfl

@[simp] theorem count_step (r : BuildRun) (op : BuildStep) (table : Table) : (r.step op).tree.count table =
    r.tree.count table + ((op.added? r.builder).toList.filter (·.table = table)).length := by
  rw [← SyntaxTree.length_table, table_step, List.length_append, SyntaxTree.length_table]

theorem table_steps_isPrefix (r : BuildRun) (ops : List BuildStep) (table : Table) :
    r.tree.table table <+: (r.steps ops).tree.table table := by
  induction ops generalizing r with
  | nil => exact List.prefix_rfl
  | cons op ops ih =>
      have hstep : r.tree.table table <+: (r.step op).tree.table table := by simp
      exact hstep.trans (ih (r.step op))

theorem table_step_of_added? (he : op.added? r.builder = some e) :
    (r.step op).tree.table e.table = r.tree.table e.table ++ [e] := by
  simp [he]

/-- An entry is found where it was added. -/
theorem table_steps_getElem? (r : BuildRun) (he : op.added? r.builder = some e)
    (ops : List BuildStep) :
    ((r.steps (op :: ops)).tree.table e.table)[r.tree.count e.table]? = some e := by
  obtain ⟨more, hmore⟩ := (r.step op).table_steps_isPrefix ops e.table
  rw [steps_cons, ← hmore, table_step_of_added? he, ← SyntaxTree.length_table, List.append_assoc,
    List.getElem?_append_right (Nat.le_refl _), Nat.sub_self]
  rfl

/-- As long as there are handles left, an entry is named by the handle that was returned for it. -/
theorem named?_nextHandle (he : op.added? r.builder = some e) (ops : List BuildStep)
    (hfits : r.tree.count e.table < UInt32.size) :
    (r.steps (op :: ops)).tree.named? (r.tree.nextHandle e.table) = some e := by
  have hindex : (r.tree.count e.table).toUInt32.toNat = r.tree.count e.table :=
    UInt32.toNat_ofNat_of_lt' hfits
  rw [SyntaxTree.named?_eq, SyntaxTree.nextHandle, hindex]
  exact r.table_steps_getElem? he ops

/-- The handles of every table are those of its places, in their order. -/
def InOrder (r : BuildRun) : Prop := ∀ table,
  (r.handles.filter (·.table = table)).map (·.index) =
    (List.range (r.tree.count table)).map Nat.toUInt32

theorem inOrder_start (file : String) (language : SourceLanguage) : (start file language).InOrder := by
  intro table
  cases table <;> rfl

theorem InOrder.step (hr : r.InOrder) (op : BuildStep) : (r.step op).InOrder := by
  intro table
  cases he : op.added? r.builder with
  | none => simp [he, hr table]
  | some e =>
      by_cases htable : e.table = table
      · subst htable
        simp [he, hr e.table, SyntaxTree.nextHandle, List.range_succ]
      · simp [he, hr table, SyntaxTree.nextHandle, htable]

theorem InOrder.steps (hr : r.InOrder) (ops : List BuildStep) : (r.steps ops).InOrder := by
  induction ops generalizing r with
  | nil => exact hr
  | cons op ops ih => exact ih (hr.step op)

/-- All handles, whether returned or stored, point into their tables, and parents come first. -/
structure Sound (r : BuildRun) : Prop where
  handles : ∀ h ∈ r.handles, h.index.toNat < r.tree.count h.table
  uses : ∀ table, ∀ e ∈ r.tree.table table, ∀ h ∈ e.uses, h.index.toNat < r.tree.count h.table
  parents : ∀ (position : Nat) (node : Node) (parent : NodeId), r.tree.nodes[position]? = some node →
    node.parent = some parent → parent.index.toNat < position

theorem sound_start (file : String) (language : SourceLanguage) : (start file language).Sound where
  handles := nofun
  uses table e he := by cases table <;> cases he
  parents position node parent hnode := by cases hnode

theorem count_le_step (r : BuildRun) (op : BuildStep) (table : Table) :
    r.tree.count table ≤ (r.step op).tree.count table := by
  simp

theorem count_step_of_added? (he : op.added? r.builder = some e) :
    (r.step op).tree.count e.table = r.tree.count e.table + 1 := by
  simp [he]

theorem nodes_step_getElem? {position : Nat} {node : Node}
    (hnode : (r.step op).tree.nodes[position]? = some node) :
    r.tree.nodes[position]? = some node ∨
      position = r.tree.nodes.size ∧ op.added? r.builder = some (.node node) := by
  cases he : op.added? r.builder with
  | none =>
      cases op <;> cases he
      exact Or.inl hnode
  | some e =>
      have htree : (r.step op).tree = r.tree.add e := BuildStep.tree_apply he
      rw [htree] at hnode
      cases e with
      | declaration d => exact Or.inl hnode
      | type type => exact Or.inl hnode
      | node added =>
          rw [SyntaxTree.add, Array.getElem?_push] at hnode
          split at hnode
          next hposition =>
            cases hnode
            exact Or.inr ⟨hposition, rfl⟩
          next => exact Or.inl hnode

theorem Sound.step (hr : r.Sound) (huses : ∀ h ∈ op.uses, h ∈ r.handles) : (r.step op).Sound where
  handles h hh := by
    rw [handles_step, List.mem_append] at hh
    rcases hh with hh | hh
    · exact Nat.lt_of_lt_of_le (hr.handles h hh) (r.count_le_step op h.table)
    · obtain ⟨e, he, rfl⟩ := List.mem_map.mp hh
      have hcount := count_step_of_added? (Option.mem_toList.mp he)
      have hindex : (r.tree.count e.table).toUInt32.toNat ≤ r.tree.count e.table := by
        rw [Nat.toUInt32, UInt32.toNat_ofNat']
        exact Nat.mod_le _ _
      show (r.tree.count e.table).toUInt32.toNat < (r.step op).tree.count e.table
      omega
  uses table e he h hh := by
    refine Nat.lt_of_lt_of_le ?_ (r.count_le_step op h.table)
    rw [table_step, List.mem_append] at he
    rcases he with he | he
    · exact hr.uses table e he h hh
    · have he := Option.mem_toList.mp (List.mem_of_mem_filter he)
      exact hr.handles h (huses h (BuildStep.uses_of_added? he ▸ hh))
  parents position node parent hnode hparent := by
    rcases nodes_step_getElem? hnode with hnode | ⟨rfl, he⟩
    · exact hr.parents position node parent hnode hparent
    · have hmem : parent.handle ∈ (TableEntry.node node).uses := by simp [TableEntry.uses, hparent]
      rw [BuildStep.uses_of_added? he] at hmem
      exact hr.handles _ (huses _ hmem)

theorem Sound.steps (hr : r.Sound) {ops : List BuildStep} (htraced : r.Traced ops) :
    (r.steps ops).Sound := by
  induction ops generalizing r with
  | nil => exact hr
  | cons op ops ih => exact ih (hr.step htraced.1) htraced.2

theorem mem_table_node {position : Nat} {node : Node} (hnode : r.tree.nodes[position]? = some node) :
    TableEntry.node node ∈ r.tree.table .node :=
  List.mem_map_of_mem (Array.mem_toList_iff.mpr (Array.mem_of_getElem? hnode))

theorem Sound.handlesValid (hr : r.Sound) : r.tree.HandlesValid where
  parents position node parent hnode hparent := by
    have hlt := hr.parents position node parent hnode hparent
    obtain ⟨hposition, -⟩ := Array.getElem?_eq_some_iff.mp hnode
    omega
  targets position node c d hnode hkind htarget :=
    hr.uses .node _ (mem_table_node hnode) d.handle (by simp [TableEntry.uses, hkind, htarget])
  interfaces position node i hnode hkind :=
    hr.uses .node _ (mem_table_node hnode) i.handle (by simp [TableEntry.uses, hkind])
  methods type htype d hd :=
    hr.uses .type (.type type) (List.mem_map_of_mem htype.val) d.handle (List.mem_map_of_mem hd)

end BuildRun

theorem SyntaxTree.HandlesValid.rooted_iff {t : SyntaxTree} (hvalid : t.HandlesValid) :
    t.Rooted ↔ ∀ id, ¬t.Deep id := by
  constructor
  · intro hrooted id hdeep
    obtain ⟨node, hnode⟩ := hdeep.exists_node?
    exact (hvalid.parentsInRange.not_rootWithin_iff hnode maxAncestors).mpr hdeep (hrooted id node hnode)
  · intro hshallow id node hnode
    by_contra hroot
    exact hshallow id ((hvalid.parentsInRange.not_rootWithin_iff hnode maxAncestors).mp hroot)

namespace BuildRun

/-- **Builder runs give well-formed trees.** If operations are only given handles that were returned
before, then the handles of every table are returned in order, and each names the entry that was added,
as long as there are handles left. Entries stay as they are, and parents come before their children. The
tree is valid exactly if no node has too many ancestors, and this is the only fault that it can have. -/
theorem built_wellFormed (file : String) (language : SourceLanguage) (ops : List BuildStep)
    (htraced : (start file language).Traced ops) :
    let run := (start file language).steps
    (∀ table, ((run ops).handles.filter (·.table = table)).map (·.index) =
      (List.range ((run ops).tree.table table).length).map Nat.toUInt32) ∧
    (∀ before op after e, ops = before ++ op :: after → op.added? (run before).builder = some e →
      ∃ h, h.table = e.table ∧ (run (before ++ [op])).handles = (run before).handles ++ [h] ∧
        (run (before ++ [op])).tree.table e.table = (run before).tree.table e.table ++ [e] ∧
        (((run before).tree.table e.table).length < UInt32.size →
          (run ops).tree.named? h = some e)) ∧
    (∀ before after, ops = before ++ after → ∀ table,
      (run before).tree.table table <+: (run ops).tree.table table) ∧
    (∀ (position : Nat) (node : Node) (parent : NodeId), (run ops).tree.nodes[position]? = some node →
      node.parent = some parent → parent.index.toNat < position) ∧
    ((run ops).tree.validate = .ok () ↔ ∀ id, ¬(run ops).tree.Deep id) ∧
    ((run ops).tree.validate = .ok () ∨
      ∃ id, (run ops).tree.validate = .error (.malformed id .tooDeep) ∧ (run ops).tree.Deep id) := by
  intro run
  have hsound : (run ops).Sound := (sound_start file language).steps htraced
  have hvalid := hsound.handlesValid
  refine ⟨fun table => ?_, fun before op after e hops he => ?_, fun before after hops table => ?_,
    hsound.parents, ?_, ?_⟩
  · rw [SyntaxTree.length_table]
    exact (inOrder_start file language).steps ops table
  · have hstep : run (before ++ [op]) = (run before).step op := by simp [run]
    have hrun : run ops = (run before).steps (op :: after) := by simp [run, hops]
    refine ⟨(run before).tree.nextHandle e.table, rfl, ?_, ?_, fun hfits => ?_⟩
    · simp [hstep, he]
    · rw [hstep, table_step_of_added? he]
    · rw [SyntaxTree.length_table] at hfits
      rw [hrun]
      exact named?_nextHandle he after hfits
  · have hrun : run ops = (run before).steps after := by simp [run, hops]
    rw [hrun]
    exact table_steps_isPrefix _ after table
  · rw [SyntaxTree.validate_eq_ok_iff, and_iff_right hvalid, hvalid.rooted_iff]
  · by_cases hrooted : (run ops).tree.Rooted
    · exact Or.inl ((SyntaxTree.validate_eq_ok_iff _).mpr ⟨hvalid, hrooted⟩)
    · obtain ⟨id, herror, hdeep, -⟩ := hvalid.validate_eq_error hrooted
      exact Or.inr ⟨id, herror, hdeep⟩

instance decidableTraced : (r : BuildRun) → (ops : List BuildStep) → Decidable (r.Traced ops)
  | _, [] => isTrue trivial
  | r, op :: ops => @instDecidableAnd _ _ _ (decidableTraced (r.step op) ops)

/-- All kinds of operations, with handles of all tables. -/
def smallBuild : List BuildStep :=
  [.source "fun main() = use { open() }", .declaration "File.open" ["Checked"],
    .annotatedDeclaration "callSafely" [] ["Safe"], .abstractMember "Block.invoke" ["Checked"],
    .interface "Block" [⟨2⟩], .function none "main" [], .tryScope ⟨0⟩ [["IOException"]],
    .callAt ⟨1⟩ "use" (some ⟨1⟩) ⟨13, 16⟩ ⟨13, 27⟩, .lambda ⟨2⟩ (some ⟨0⟩), .block ⟨3⟩,
    .call ⟨4⟩ "open" (some ⟨0⟩)]

theorem built_wellFormed_smallBuild :
    let r := (start "Main.kt" .kotlin).steps smallBuild
    (start "Main.kt" .kotlin).Traced smallBuild ∧ r.tree.validate = .ok () ∧
    (∀ id, ¬r.tree.Deep id) ∧
    r.tree.named? ⟨.node, 4⟩ = some (.node ⟨some ⟨3⟩, ⟨300, 350⟩, .other⟩) := by
  intro r
  have htraced : (start "Main.kt" .kotlin).Traced smallBuild := by decide
  obtain ⟨-, hnames, -, -, hvalid, -⟩ := built_wellFormed "Main.kt" .kotlin smallBuild htraced
  have hok : r.tree.validate = .ok () := by decide
  obtain ⟨h, -, hhandles, -, hnamed⟩ :=
    hnames (smallBuild.take 9) (.block ⟨3⟩) (smallBuild.drop 10) _ rfl rfl
  have hlast : some (⟨.node, 4⟩ : Handle) = some h :=
    (congrArg List.getLast? hhandles).trans List.getLast?_concat
  refine ⟨htraced, hok, hvalid.mp hok, ?_⟩
  rw [Option.some.inj hlast]
  exact hnamed (by decide)

end BuildRun

end Uncaught
