/-
Module: DagSelect.Proofs.Graph
Purpose: Graphs as values. Changing a node, adding nodes behind the others and forgetting the use
  counts are functions on graphs, with one lemma each for what is found at a position afterwards.
  The number of edges to a node is defined here from the operands and the root alone.
Main exports: Node.shape, Node.morphed, Node.finished, Node.discarded, Dag.shape, Dag.update,
  Dag.extend, Dag.Resolves, Dag.leading, Dag.Depends, Dag.slots, Dag.useCount, Dag.Pointed
-/
import DagSelect.Dag.Edit
import Mathlib.Data.List.Basic
import Mathlib.Data.List.TakeWhile

namespace DagSelect

/-- A node without its use count. -/
def Node.shape (node : Node) : Node := { node with uses := 0 }

namespace Node

variable (node : Node)

@[simp] theorem shape_opcode : node.shape.opcode = node.opcode := rfl

@[simp] theorem shape_results : node.shape.results = node.results := rfl

@[simp] theorem shape_operands : node.shape.operands = node.operands := rfl

@[simp] theorem shape_payload : node.shape.payload = node.payload := rfl

@[simp] theorem shape_state : node.shape.state = node.state := rfl

/-- The node as an instruction with other operands. -/
def morphed (op : MachineOp) (operands : List Value) (node : Node) : Node :=
  { node with opcode := .machine op, operands := operands, payload := .none, state := .selected }

/-- The node in its final form. -/
def finished (node : Node) : Node := { node with state := .selected }

/-- The node without operands, as a place holder. -/
def discarded (node : Node) : Node := { node with operands := [], state := .dead }

end Node

namespace Dag

variable {dag dag' : Dag} {id other : NodeId} {node : Node} {change : Node → Node}

/-! ### Graphs made from graphs -/

/-- The graph without its use counts. -/
def shape (dag : Dag) : Dag := { dag with nodes := dag.nodes.map Node.shape }

/-- The graph with another node at a position. -/
def update (id : NodeId) (change : Node → Node) (dag : Dag) : Dag :=
  { dag with nodes := dag.nodes.modify id change }

/-- The graph with nodes behind the others. -/
def extend (leaves : List Node) (dag : Dag) : Dag :=
  { dag with nodes := dag.nodes ++ leaves }

@[simp] theorem size_shape (dag : Dag) : dag.shape.size = dag.size := by
  simp [shape, size]

@[simp] theorem size_update (dag : Dag) : (dag.update id change).size = dag.size := by
  simp [update, size]

@[simp] theorem size_extend (dag : Dag) (leaves : List Node) :
    (dag.extend leaves).size = dag.size + leaves.length := by
  simp [extend, size]

/-- Use counts apart, a graph that was extended has grown by what was added. -/
theorem size_of_shape_extend {leaves : List Node} (shape : dag'.shape = dag.shape.extend leaves) :
    dag'.size = dag.size + leaves.length := by
  rw [← size_shape, shape, size_extend, size_shape]

@[simp] theorem root_shape (dag : Dag) : dag.shape.root = dag.root := rfl

@[simp] theorem root_update (dag : Dag) : (dag.update id change).root = dag.root := rfl

@[simp] theorem root_extend (dag : Dag) (leaves : List Node) :
    (dag.extend leaves).root = dag.root := rfl

@[simp] theorem isRoot_shape (dag : Dag) : dag.shape.isRoot id = dag.isRoot id := rfl

@[simp] theorem isRoot_update (dag : Dag) :
    (dag.update other change).isRoot id = dag.isRoot id := rfl

@[simp] theorem isRoot_extend (dag : Dag) (leaves : List Node) :
    (dag.extend leaves).isRoot id = dag.isRoot id := rfl

theorem isRoot_eq_true_iff :
    dag.isRoot id = true ↔ ∃ value, dag.root = some value ∧ value.node = id := by
  simp [isRoot, Option.any_eq_true]

@[simp] theorem extend_nil (dag : Dag) : dag.extend [] = dag := by
  simp [extend]

theorem extend_append (dag : Dag) (first second : List Node) :
    (dag.extend first).extend second = dag.extend (first ++ second) := by
  simp [extend]

/-! ### What is found at a position -/

@[simp] theorem node?_shape (dag : Dag) : dag.shape.node? id = (dag.node? id).map Node.shape := by
  simp [shape, node?]

@[simp] theorem node?_update_self (dag : Dag) :
    (dag.update id change).node? id = (dag.node? id).map change := by
  simp [update, node?]

theorem node?_update_of_ne (dag : Dag) (different : other ≠ id) :
    (dag.update id change).node? other = dag.node? other := by
  simp [update, node?, different.symm]

theorem node?_update (dag : Dag) :
    (dag.update id change).node? other =
      if other = id then (dag.node? other).map change else dag.node? other := by
  by_cases same : other = id
  · subst same
    simp
  · simp [node?_update_of_ne dag same, same]

theorem node?_extend_of_lt (dag : Dag) (leaves : List Node) (inside : id < dag.size) :
    (dag.extend leaves).node? id = dag.node? id := by
  simp only [extend, node?]
  exact List.getElem?_append_left inside

theorem node?_extend_of_le (dag : Dag) (leaves : List Node) (behind : dag.size ≤ id) :
    (dag.extend leaves).node? id = leaves[id - dag.size]? := by
  simp only [extend, node?, size] at behind ⊢
  exact List.getElem?_append_right behind

theorem lt_size_of_node? (found : dag.node? id = some node) : id < dag.size := by
  exact (List.getElem?_eq_some_iff.mp found).1

theorem exists_node?_of_lt (inside : id < dag.size) : ∃ node, dag.node? id = some node := by
  exact ⟨dag.nodes.get ⟨id, inside⟩, List.getElem?_eq_getElem inside⟩

theorem mem_nodes_iff : node ∈ dag.nodes ↔ ∃ id, dag.node? id = some node := by
  simp [node?, List.mem_iff_getElem?]

/-- A node that is still there after nodes were added. -/
theorem node?_extend (leaves : List Node) (found : dag.node? id = some node) :
    (dag.extend leaves).node? id = some node := by
  rw [node?_extend_of_lt dag leaves (lt_size_of_node? found), found]

/-- A node of an extended graph was there, or is one of the new ones. -/
theorem node?_extend_cases {leaves : List Node} (found : (dag.extend leaves).node? id = some node) :
    dag.node? id = some node ∨ dag.size ≤ id ∧ leaves[id - dag.size]? = some node := by
  rcases Nat.lt_or_ge id dag.size with inside | behind
  · rw [node?_extend_of_lt dag leaves inside] at found
    exact Or.inl found
  · rw [node?_extend_of_le dag leaves behind] at found
    exact Or.inr ⟨behind, found⟩

/-- A node of an updated graph is the changed one, or another one as it was. -/
theorem node?_update_cases (found : (dag.update id change).node? other = some node) :
    (other = id ∧ ∃ before, dag.node? id = some before ∧ node = change before) ∨
      other ≠ id ∧ dag.node? other = some node := by
  by_cases same : other = id
  · subst same
    rw [node?_update_self, Option.map_eq_some_iff] at found
    obtain ⟨before, beforeFound, rfl⟩ := found
    exact Or.inl ⟨rfl, before, beforeFound, rfl⟩
  · rw [node?_update_of_ne dag same] at found
    exact Or.inr ⟨same, found⟩

theorem fetch_eq_ok_iff : dag.fetch id = .ok node ↔ dag.node? id = some node := by
  unfold fetch
  cases dag.node? id <;> simp

theorem mem_operandsOf {value : Value} :
    value ∈ dag.operandsOf id ↔ ∃ node, dag.node? id = some node ∧ value ∈ node.operands := by
  unfold operandsOf
  cases dag.node? id <;> simp

/-! ### Graphs without counts -/

theorem shape_found (found : dag.node? id = some node) : dag.shape.node? id = some node.shape := by
  rw [node?_shape, found]
  rfl

@[simp] theorem operandsOf_shape (dag : Dag) : dag.shape.operandsOf id = dag.operandsOf id := by
  unfold operandsOf
  rw [node?_shape]
  cases dag.node? id <;> rfl

theorem ext_node? (sameNodes : ∀ id, dag.node? id = dag'.node? id)
    (sameRoot : dag.root = dag'.root) :
    dag = dag' := by
  cases dag
  cases dag'
  simp only [Dag.mk.injEq]
  exact ⟨List.ext_getElem? sameNodes, sameRoot⟩

/-- Forgetting the counts commutes with a change that does not look at them. -/
theorem shape_update (dag : Dag) (change' : Node → Node)
    (agree : ∀ node, (change node).shape = change' node.shape) :
    (dag.update id change).shape = dag.shape.update id change' := by
  apply ext_node?
  · intro other
    simp only [node?_shape, node?_update]
    by_cases same : other = id
    · simp only [same, if_true, Option.map_map]
      congr 1
      funext node
      exact agree node
    · simp [same]
  · rfl

/-- A change of counts is forgotten. -/
theorem shape_update_uses (dag : Dag) (keeps : ∀ node, (change node).shape = node.shape) :
    (dag.update id change).shape = dag.shape := by
  rw [shape_update dag (fun node => node) keeps]
  apply ext_node?
  · intro other
    rw [node?_update]
    split <;> simp [Function.comp_def]
  · rfl

theorem shape_extend (dag : Dag) (leaves : List Node) :
    (dag.extend leaves).shape = dag.shape.extend (leaves.map Node.shape) := by
  simp [extend, shape]

theorem update_update (dag : Dag) (second : Node → Node) :
    (dag.update id change).update id second = dag.update id (second ∘ change) := by
  apply ext_node?
  · intro other
    simp only [node?_update]
    by_cases same : other = id
    · simp [same]
    · simp [same]
  · rfl

/-- A change of the node that was added last. -/
theorem update_extend_singleton (dag : Dag) :
    (dag.extend [node]).update dag.size change = dag.extend [change node] := by
  apply ext_node?
  · intro other
    rw [node?_update]
    by_cases same : other = dag.size
    · subst same
      simp [node?_extend_of_le dag _ (Nat.le_refl _)]
    · rw [if_neg same]
      rcases Nat.lt_or_gt_of_ne same with before | behind
      · rw [node?_extend_of_lt dag _ before, node?_extend_of_lt dag _ before]
      · rw [node?_extend_of_le dag _ (Nat.le_of_lt behind),
          node?_extend_of_le dag _ (Nat.le_of_lt behind)]
        have past : 1 ≤ other - dag.size := Nat.sub_pos_of_lt behind
        rw [List.getElem?_eq_none past, List.getElem?_eq_none past]
  · rfl

/-- A node of a graph, read off the graph without counts. -/
theorem exists_uses_of_shape (found : dag.shape.node? id = some node) :
    ∃ uses, dag.node? id = some { node with uses := uses } := by
  rw [node?_shape, Option.map_eq_some_iff] at found
  obtain ⟨full, fullFound, rfl⟩ := found
  exact ⟨full.uses, fullFound⟩

/-! ### Values that name a result -/

/-- The value names a node of the graph and one of its results. -/
def Resolves (dag : Dag) (value : Value) : Prop :=
  ∃ node, dag.node? value.node = some node ∧ value.result < node.results.length

theorem Resolves.lt_size {value : Value} (resolves : dag.Resolves value) :
    value.node < dag.size := by
  obtain ⟨node, found, _⟩ := resolves
  exact lt_size_of_node? found

theorem resolves_shape {value : Value} : dag.shape.Resolves value ↔ dag.Resolves value := by
  constructor
  · rintro ⟨node, found, bound⟩
    obtain ⟨uses, found⟩ := exists_uses_of_shape found
    exact ⟨_, found, bound⟩
  · rintro ⟨node, found, bound⟩
    exact ⟨node.shape, by simp [found], bound⟩

theorem resolves_of_shape_eq {value : Value} (same : dag'.shape = dag.shape) :
    dag'.Resolves value ↔ dag.Resolves value := by
  rw [← resolves_shape, same, resolves_shape]

theorem Resolves.extend {value : Value} (resolves : dag.Resolves value) (leaves : List Node) :
    (dag.extend leaves).Resolves value := by
  obtain ⟨node, found, bound⟩ := resolves
  exact ⟨node, node?_extend leaves found, bound⟩

/-- A change that keeps the results keeps what resolves. -/
theorem resolves_update {value : Value} (keeps : ∀ node, (change node).results = node.results) :
    (dag.update id change).Resolves value ↔ dag.Resolves value := by
  unfold Resolves
  rw [node?_update]
  by_cases same : value.node = id
  · cases found : dag.node? value.node with
    | none => simp [same]
    | some node => simp [same, keeps]
  · simp [same]

instance (dag : Dag) (value : Value) : Decidable (dag.Resolves value) :=
  decidable_of_iff ((dag.node? value.node).any fun node => value.result < node.results.length)
    (by simp [Resolves, Option.any_eq_true])

/-- The values before the first one that names no result. -/
def leading (dag : Dag) (values : List Value) : List Value :=
  values.takeWhile fun value => dag.Resolves value

theorem leading_cons {value : Value} {rest : List Value} :
    dag.leading (value :: rest) = if dag.Resolves value then value :: dag.leading rest else [] := by
  simp [leading, List.takeWhile_cons]

theorem leading_of_resolve {values : List Value} (resolve : ∀ value ∈ values, dag.Resolves value) :
    dag.leading values = values :=
  List.takeWhile_eq_self_iff.mpr fun value member => decide_eq_true (resolve value member)

theorem leading_of_shape_eq (same : dag'.shape = dag.shape) (values : List Value) :
    dag'.leading values = dag.leading values := by
  simp only [leading, resolves_of_shape_eq same]

theorem checkValue_eq_ok_iff {value : Value} :
    dag.checkValue value = .ok () ↔ dag.Resolves value := by
  unfold checkValue Resolves
  cases dag.node? value.node with
  | none => simp
  | some node => simp

theorem valueType_eq_ok_iff {value : Value} {type : ValueType} :
    dag.valueType value = .ok type ↔
      ∃ node, dag.node? value.node = some node ∧ node.results[value.result]? = some type := by
  unfold valueType fetch
  cases dag.node? value.node with
  | none => simp [bind, Except.bind]
  | some node => cases typed : node.results[value.result]? <;> simp [bind, Except.bind, typed]

theorem resolves_of_valueType {value : Value} {type : ValueType}
    (typed : dag.valueType value = .ok type) : dag.Resolves value := by
  obtain ⟨node, found, typed⟩ := valueType_eq_ok_iff.mp typed
  exact ⟨node, found, (List.getElem?_eq_some_iff.mp typed).1⟩

/-! ### Edges to a node -/

/-- One node has a result of another as an operand. -/
def Depends (dag : Dag) (user operand : NodeId) : Prop :=
  ∃ value ∈ dag.operandsOf user, value.node = operand

theorem depends_of_mem {user : NodeId} {value : Value} (found : dag.node? user = some node)
    (member : value ∈ node.operands) : dag.Depends user value.node :=
  ⟨value, mem_operandsOf.mpr ⟨node, found, member⟩, rfl⟩

/-- How many values of a list are results of a node. -/
def slots (id : NodeId) (values : List Value) : Nat :=
  values.countP fun value => value.node == id

@[simp] theorem slots_nil : slots id [] = 0 := rfl

theorem slots_cons (value : Value) (values : List Value) :
    slots id (value :: values) = slots id values + if value.node = id then 1 else 0 := by
  simp [slots, List.countP_cons]

@[simp] theorem slots_append (first second : List Value) :
    slots id (first ++ second) = slots id first + slots id second := by
  simp [slots]

theorem slots_singleton (value : Value) : slots id [value] = (value.node == id).toNat := by
  cases named : value.node == id <;> simp [slots, named]

theorem slots_pos_iff {values : List Value} :
    0 < slots id values ↔ ∃ value ∈ values, value.node = id := by
  simp [slots, List.countP_pos_iff]

/-- The operands of all nodes. -/
def operandSlots (dag : Dag) : List Value :=
  dag.nodes.flatMap Node.operands

theorem operandSlots_extend (dag : Dag) (leaves : List Node) :
    (dag.extend leaves).operandSlots = dag.operandSlots ++ leaves.flatMap Node.operands := by
  simp [operandSlots, extend]

/-- The number of operand slots that name a node, and one more if the root does. -/
def useCount (dag : Dag) (id : NodeId) : Nat :=
  slots id dag.operandSlots + (dag.isRoot id).toNat

theorem operandSlots_shape (dag : Dag) : dag.shape.operandSlots = dag.operandSlots := by
  simp only [operandSlots, shape, List.flatMap_map]
  rfl

theorem useCount_of_shape_eq (same : dag'.shape = dag.shape) :
    dag'.useCount id = dag.useCount id := by
  have slotsSame : dag'.operandSlots = dag.operandSlots := by
    rw [← operandSlots_shape, same, operandSlots_shape]
  have rootSame : dag'.isRoot id = dag.isRoot id := by
    rw [← isRoot_shape, same, isRoot_shape]
  rw [useCount, useCount, slotsSame, rootSame]

/-- The node is named by an operand or by the root. -/
def Pointed (dag : Dag) (id : NodeId) : Prop :=
  (∃ user, dag.Depends user id) ∨ dag.isRoot id = true

@[simp] theorem depends_shape {user : NodeId} :
    dag.shape.Depends user id ↔ dag.Depends user id := by
  simp only [Depends, operandsOf_shape]

/-- An edge of an extended graph was there, or comes from one of the new nodes. -/
theorem depends_extend_cases {leaves : List Node} {user : NodeId}
    (edge : (dag.extend leaves).Depends user id) :
    dag.Depends user id ∨ ∃ leaf ∈ leaves, ∃ value ∈ leaf.operands, value.node = id := by
  obtain ⟨value, member, named⟩ := edge
  obtain ⟨node, found, listed⟩ := mem_operandsOf.mp member
  rcases node?_extend_cases found with before | ⟨_, new⟩
  · exact Or.inl ⟨value, mem_operandsOf.mpr ⟨node, before, listed⟩, named⟩
  · exact Or.inr ⟨node, List.mem_of_getElem? new, value, listed, named⟩

/-- An edge of an updated graph comes from the changed node, or was there. -/
theorem depends_update_cases {user : NodeId} (edge : (dag.update other change).Depends user id) :
    (user = other ∧ ∃ before, dag.node? other = some before ∧
      ∃ value ∈ (change before).operands, value.node = id) ∨
    user ≠ other ∧ dag.Depends user id := by
  obtain ⟨value, member, named⟩ := edge
  obtain ⟨node, found, listed⟩ := mem_operandsOf.mp member
  rcases node?_update_cases found with ⟨same, before, beforeFound, rfl⟩ | ⟨different, before⟩
  · exact Or.inl ⟨same, before, beforeFound, value, listed, named⟩
  · exact Or.inr ⟨different, value, mem_operandsOf.mpr ⟨node, before, listed⟩, named⟩

theorem useCount_pos_iff : 0 < dag.useCount id ↔ dag.Pointed id := by
  have viaSlots : 0 < slots id dag.operandSlots ↔ ∃ user, dag.Depends user id := by
    rw [slots_pos_iff]
    constructor
    · rintro ⟨value, member, named⟩
      obtain ⟨node, nodeMember, operandMember⟩ := List.mem_flatMap.mp member
      obtain ⟨user, found⟩ := mem_nodes_iff.mp nodeMember
      exact ⟨user, value, mem_operandsOf.mpr ⟨node, found, operandMember⟩, named⟩
    · rintro ⟨user, value, member, named⟩
      obtain ⟨node, found, operandMember⟩ := mem_operandsOf.mp member
      exact ⟨value, List.mem_flatMap.mpr ⟨node, mem_nodes_iff.mpr ⟨user, found⟩, operandMember⟩,
        named⟩
  unfold useCount Pointed
  rw [← viaSlots]
  cases dag.isRoot id <;> simp

private theorem slots_flatMap_modify (nodes : List Node) (operands : List Value) (position : Nat)
    (found : nodes[position]? = some node) :
    slots id ((nodes.modify position fun node => { node with operands := operands }).flatMap
        Node.operands) + slots id node.operands =
      slots id (nodes.flatMap Node.operands) + slots id operands := by
  induction nodes generalizing position with
  | nil => simp at found
  | cons head rest inductionHypothesis =>
      cases position with
      | zero =>
          simp only [List.getElem?_cons_zero, Option.some.injEq] at found
          subst found
          simp only [List.modify_zero_cons, List.flatMap_cons, slots_append]
          omega
      | succ position =>
          have tail := inductionHypothesis position (by simpa using found)
          simp only [List.modify_succ_cons, List.flatMap_cons, slots_append]
          omega

/-- Other operands in place of those of a node move edges from the old to the new ones. -/
theorem slots_replace (id : NodeId) (operands : List Value) {user : NodeId}
    (found : dag.node? user = some node) :
    slots id (dag.update user fun node => { node with operands := operands }).operandSlots +
        slots id node.operands =
      slots id dag.operandSlots + slots id operands :=
  slots_flatMap_modify dag.nodes operands user found

/-- A change that keeps the operands keeps all edges. -/
theorem operandSlots_update (dag : Dag) (keeps : ∀ node, (change node).operands = node.operands) :
    (dag.update id change).operandSlots = dag.operandSlots := by
  simp only [operandSlots, update]
  have sameMap : (dag.nodes.modify id change).map Node.operands = dag.nodes.map Node.operands := by
    apply List.ext_getElem?
    intro position
    simp only [List.getElem?_map, List.getElem?_modify]
    cases dag.nodes[position]? with
    | none => rfl
    | some node => by_cases same : id = position <;> simp [same, keeps]
  rw [List.flatMap_def, List.flatMap_def, sameMap]

end Dag

end DagSelect
