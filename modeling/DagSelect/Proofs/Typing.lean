/-
Module: DagSelect.Proofs.Typing
Purpose: Well-typed graphs. Every generic opcode says which types its results and its operands can
  have together; pointers have one type in a graph. A graph is well typed if its generic nodes keep
  to this, and selection keeps it so, because the results of a node never change.
Main exports: GenericOp.accepts, Dag.typeOf, Dag.isWellTyped, Dag.Typed, Dag.Typed.turn,
  LabelledDag.Drafted.typed
-/
import DagSelect.Proofs.Reading
import DagSelect.Proofs.Turn

namespace DagSelect

/-! ### Opcodes -/

namespace GenericOp

/-- One result, and two operands of its type. -/
def acceptsPair : List ValueType → List ValueType → Bool
  | [type], operands => operands == [type, type]
  | _, _ => false

/-- One result, and a first operand of its type. -/
def acceptsFirst : List ValueType → List ValueType → Bool
  | [type], first :: _ => first == type
  | _, _ => false

/-- The types that results and operands can have together. Symbols, stack slots and addresses have
the type of pointers. Nothing is asked of divisions, copies and token factors. -/
def accepts (pointer : ValueType) (op : GenericOp) (results operands : List ValueType) : Bool :=
  match op with
  | .globalAddress | .externalSymbol | .frameIndex => results == [pointer] && operands == []
  | .entryToken | .constant | .register | .targetConstant | .targetGlobalAddress
  | .targetExternalSymbol | .targetFrameIndex => results.length == 1 && operands == []
  | .add | .sub | .mul | .and | .or | .xor => acceptsPair results operands
  | .shl | .srl | .sra => acceptsFirst results operands
  | .load =>
    match results with
    | [_, chain] => chain == .chain && operands == [.chain, pointer]
    | _ => false
  | .store =>
    match operands with
    | [before, _, address] => results == [.chain] && before == .chain && address == pointer
    | _ => false
  | .ret =>
    match operands with
    | [before] | [before, _] => before == .chain
    | _ => false
  | .sdiv | .udiv | .tokenFactor | .copyFromReg | .copyToReg => true

variable {pointer : ValueType} {op : GenericOp} {results operands : List ValueType}

theorem eq_of_accepts_leaf (leaf : op.targetLeaf?.isSome = true)
    (accepted : op.accepts pointer results operands = true) :
    ∃ type, results = [type] ∧ operands = [] ∧ (op = .constant ∨ type = pointer) := by
  cases op <;> simp only [targetLeaf?, Option.isSome_none, Bool.false_eq_true] at leaf
  case constant =>
    simp only [accepts, Bool.and_eq_true, beq_iff_eq] at accepted
    obtain ⟨type, rfl⟩ := List.length_eq_one_iff.mp accepted.1
    exact ⟨type, rfl, accepted.2, Or.inl rfl⟩
  all_goals
    simp only [accepts, Bool.and_eq_true, beq_iff_eq] at accepted
    exact ⟨pointer, accepted.1, accepted.2, Or.inr rfl⟩

theorem eq_of_accepts_binary (binary : op.isBinary = true)
    (accepted : op.accepts pointer results operands = true) :
    ∃ type, results = [type] ∧ operands = [type, type] := by
  have pair : acceptsPair results operands = true := by
    cases op <;> simp only [isBinary, Bool.false_eq_true] at binary <;> exact accepted
  unfold acceptsPair at pair
  split at pair
  · exact ⟨_, rfl, beq_iff_eq.mp pair⟩
  · cases pair

theorem eq_of_accepts_shift (shift : op.isShift = true)
    (accepted : op.accepts pointer results operands = true) :
    ∃ type rest, results = [type] ∧ operands = type :: rest := by
  have first : acceptsFirst results operands = true := by
    cases op <;> simp only [isShift, Bool.false_eq_true] at shift <;> exact accepted
  unfold acceptsFirst at first
  split at first
  · exact ⟨_, _, rfl, by rw [beq_iff_eq.mp first]⟩
  · cases first

theorem eq_of_accepts_load (accepted : accepts pointer .load results operands = true) :
    ∃ type, results = [type, .chain] ∧ operands = [.chain, pointer] := by
  simp only [accepts] at accepted
  split at accepted
  · simp only [Bool.and_eq_true, beq_iff_eq] at accepted
    exact ⟨_, by rw [accepted.1], accepted.2⟩
  · cases accepted

theorem eq_of_accepts_store (accepted : accepts pointer .store results operands = true) :
    ∃ type, results = [.chain] ∧ operands = [.chain, type, pointer] := by
  simp only [accepts] at accepted
  split at accepted
  · simp only [Bool.and_eq_true, beq_iff_eq] at accepted
    exact ⟨_, accepted.1.1, by rw [accepted.1.2, accepted.2]⟩
  · cases accepted

end GenericOp

/-! ### Graphs -/

namespace Dag

variable {dag : Dag} {value : Value} {node : Node}

/-- The type of a value, and the type of chains for what is no value. -/
def typeOf (dag : Dag) (value : Value) : ValueType :=
  match dag.valueType value with
  | .ok type => type
  | .error _ => .chain

theorem typeOf_of_found (found : dag.node? value.node = some node) :
    dag.typeOf value = node.results.getD value.result .chain := by
  have fetched : dag.fetch value.node = .ok node := fetch_eq_ok_iff.mpr found
  simp only [typeOf, valueType, fetched, List.getD_eq_getElem?_getD]
  cases typed : node.results[value.result]? <;> simp [bind, Except.bind, typed]

theorem typeOf_of_shape (found : dag.shape.node? value.node = some node) :
    dag.typeOf value = node.results.getD value.result .chain := by
  obtain ⟨uses, found⟩ := exists_uses_of_shape found
  rw [typeOf_of_found found]

theorem typeOf_of_valueType {type : ValueType} (typed : dag.valueType value = .ok type) :
    dag.typeOf value = type := by
  rw [typeOf, typed]

/-- Whether all generic nodes are accepted. -/
def isWellTyped (pointer : ValueType) (dag : Dag) : Bool :=
  dag.nodes.all fun node =>
    match node.opcode with
    | .generic op => op.accepts pointer node.results (node.operands.map dag.typeOf)
    | .machine _ => true

/-- The types are accepted, and a constant has an integer type. -/
structure NodeTyped (pointer : ValueType) (dag : Dag) (op : GenericOp) (node : Node) : Prop where
  accepted : op.accepts pointer node.results (node.operands.map dag.typeOf) = true
  constant : op = .constant → HoldsConstant node.results

/-- All generic nodes that are not dead have their types. -/
def Typed (pointer : ValueType) (dag : Dag) : Prop :=
  ∀ id node op, dag.shape.node? id = some node → node.state ≠ .dead →
    node.opcode = .generic op → dag.NodeTyped pointer op node

end Dag

/-- The types of values stay. -/
theorem Turn.typeOf {before after : Dag} {id : NodeId} {node changed : Node} {leaves : List Node}
    {value : Value} (turn : Turn before after id node changed leaves)
    (resolves : before.Resolves value) : after.typeOf value = before.typeOf value := by
  obtain ⟨valueNode, found, _⟩ := resolves
  by_cases same : value.node = id
  · cases turn.found.symm.trans (same ▸ found)
    rw [Dag.typeOf_of_found found, Dag.typeOf_of_shape (same ▸ turn.node?_self), turn.results]
  · rw [Dag.typeOf_of_shape (turn.node?_other same (Dag.shape_found found)),
      Dag.typeOf_of_found found, Node.shape_results]

/-- The operands of a node that was there keep their types. -/
theorem Turn.map_typeOf {before after : Dag} {id other : NodeId} {node changed found : Node}
    {leaves : List Node} (turn : Turn before after id node changed leaves)
    (counted : before.Counted) (there : before.shape.node? other = some found) :
    found.operands.map after.typeOf = found.operands.map before.typeOf :=
  List.map_congr_left fun _ member => turn.typeOf (counted.resolves_of_mem there member)

/-- Target leaves have any type. -/
theorem GenericOp.accepts_targetLeaf {pointer type : ValueType} {op : GenericOp}
    (isLeaf : op.isTargetLeaf = true) : op.accepts pointer [type] [] = true := by
  cases op <;> simp_all [isTargetLeaf, accepts]

/-- A turn keeps a graph well typed. -/
theorem Dag.Typed.turn {pointer : ValueType} {before after : Dag} {id : NodeId}
    {node changed : Node} {leaves : List Node} (counted : before.Counted)
    (typed : before.Typed pointer) (turn : Turn before after id node changed leaves) :
    after.Typed pointer := by
  intro other found op there alive generic
  rcases turn.node?_cases there with ⟨rfl, rfl⟩ | ⟨_, stayed⟩ | ⟨_, member⟩
  · obtain ⟨nodeGeneric, dead | ⟨operands, _⟩⟩ := turn.generic op generic
    · exact absurd dead alive
    · have nodeFound := Dag.shape_found turn.found
      have unvisited : node.shape.state ≠ .dead := by simp [turn.unvisited]
      obtain ⟨accepted, constant⟩ := typed other node.shape op nodeFound unvisited nodeGeneric
      refine ⟨?_, ?_⟩
      · rw [turn.results, operands, ← Node.shape_operands, turn.map_typeOf counted nodeFound]
        exact accepted
      · rw [turn.results]
        exact constant
  · obtain ⟨accepted, constant⟩ := typed other found op stayed alive generic
    exact ⟨by rw [turn.map_typeOf counted stayed, accepted], constant⟩
  · obtain ⟨leafOp, type, payload, isLeaf, rfl⟩ := turn.areLeaves found member
    cases generic
    refine ⟨GenericOp.accepts_targetLeaf isLeaf, ?_⟩
    rintro rfl
    cases isLeaf

/-- A graph that was read and is well typed. -/
theorem LabelledDag.Drafted.typed {pointer : ValueType} {graph : LabelledDag}
    {machine : String → Option MachineOp} (drafted : graph.Drafted machine)
    (wellTyped : graph.dag.isWellTyped pointer = true) :
    graph.dag.Typed pointer := by
  intro id node op found _ generic
  obtain ⟨uses, found⟩ := Dag.exists_uses_of_shape found
  have member : { node with uses := uses } ∈ graph.dag.nodes := List.mem_of_getElem? found
  have accepted := List.all_eq_true.mp wellTyped _ member
  simp only [generic] at accepted
  refine ⟨accepted, ?_⟩
  rintro rfl
  exact (drafted.nodes id _ found).constant generic

end DagSelect
