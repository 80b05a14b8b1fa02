/-
Module: DagSelect.Proofs.Z80.OrderIndependence
Purpose: The result of selection does not depend on which dependency order is used, if every node is
  reached from the root and constants, symbols and stack slots have no operands. The table takes in
  nothing but left shifts, and only into a disjunction, so that every node meets the fate that the
  input foretells.
Main exports: Z80.target_shallow, LabelledDag.Drafted.trim, Z80.order_irrelevant
-/
import DagSelect.Proofs.Foresight
import DagSelect.Proofs.Z80.Features

namespace DagSelect

namespace Z80

/-- The patterns of the family look one node deep. -/
theorem target_shallow (processor : Processor) : processor.target.Shallow := by
  have isShift : ∀ op, processor.target.TakesIn op → op = .shl := by
    rintro op ⟨pattern, listed, operands, member⟩
    exact (of_takesIn pattern listed op operands member).1
  constructor
  · exact target_folds processor
  · exact isFlat_of_mem
  · intro op takesIn
    rw [isShift op takesIn]
    decide
  · intro pattern listed op operands member
    rw [(of_takesIn pattern listed op operands member).2.1]
    refine ⟨by decide, fun takesIn => ?_⟩
    cases isShift .or takesIn

end Z80

/-- What can be folded is a constant, a symbol or a stack slot. -/
theorem GenericOp.mem_of_targetLeaf {op : GenericOp} (isLeaf : op.targetLeaf?.isSome = true) :
    op ∈ [GenericOp.constant, .globalAddress, .externalSymbol, .frameIndex] := by
  cases op with
  | constant => decide
  | globalAddress => decide
  | externalSymbol => decide
  | frameIndex => decide
  | _ => cases isLeaf

/-- A graph that was read is trim if every node is reached from the root and leaves have no
operands. -/
theorem LabelledDag.Drafted.trim {graph : LabelledDag} {machine : String → Option MachineOp}
    (drafted : graph.Drafted machine)
    (reachable : ∀ id < graph.dag.size, ∃ root, graph.dag.root = some root ∧
      Relation.ReflTransGen graph.dag.Depends root.node id)
    (bare : ∀ node ∈ graph.dag.nodes,
      ∀ op ∈ [GenericOp.constant, .globalAddress, .externalSymbol, .frameIndex],
        node.opcode = .generic op → node.operands = []) : graph.dag.Trim where
  counted := drafted.counted
  full := drafted.full
  untouched := drafted.unvisited
  pointed id inside := by
    obtain ⟨root, isRoot, path⟩ := reachable id inside
    rcases path.cases_tail with same | ⟨user, _, edge⟩
    · exact Or.inr (Dag.isRoot_eq_true_iff.mpr ⟨root, isRoot, same.symm⟩)
    · exact Or.inl ⟨user, edge⟩
  bare id foldable := by
    obtain ⟨node, op, found, generic, isLeaf⟩ := foldable
    rw [Dag.operandsOf, found]
    exact bare node (Dag.mem_nodes_iff.mpr ⟨id, found⟩) op (GenericOp.mem_of_targetLeaf isLeaf)
      generic

namespace Z80

/-- The result does not depend on which dependency order is used. For a graph that was read, in
which every node is reached from the root and constants, symbols and stack slots have no operands,
selection succeeds in both orders or in neither; and if it succeeds, every node of the graph has the
same form in both results, operand by operand, and the statistics are the same. -/
theorem order_irrelevant (processor : Processor) {text : String} {context context' : TypeContext}
    {graph : LabelledDag} (read : (readDag machineOp? text).run context = .ok graph context')
    (reachable : ∀ id < graph.dag.size, ∃ root, graph.dag.root = some root ∧
      Relation.ReflTransGen graph.dag.Depends root.node id)
    (bare : ∀ node ∈ graph.dag.nodes,
      ∀ op ∈ [GenericOp.constant, .globalAddress, .externalSymbol, .frameIndex],
        node.opcode = .generic op → node.operands = [])
    {order order' : List NodeId} (isOrder : graph.dag.IsDependencyOrder order)
    (isOrder' : graph.dag.IsDependencyOrder order') (name : String) (session : Session)
    (log : List LogRecord) :
    ((∃ after, (processor.target.selectFunction name order).run ⟨graph.dag, session, log⟩ =
        .ok () after) ↔
      ∃ after, (processor.target.selectFunction name order').run ⟨graph.dag, session, log⟩ =
        .ok () after) ∧
    ∀ after after',
      (processor.target.selectFunction name order).run ⟨graph.dag, session, log⟩ = .ok () after →
      (processor.target.selectFunction name order').run ⟨graph.dag, session, log⟩ =
        .ok () after' →
      (∀ id < graph.dag.size, ∃ node node', after.dag.node? id = some node ∧
        after'.dag.node? id = some node' ∧
        Dag.SameForm graph.dag after.dag after'.dag node node') ∧
      after.session.stats.tally = after'.session.stats.tally := by
  obtain ⟨drafted, _⟩ := readDag_drafted read
  have trim := drafted.trim reachable bare
  have shallow := target_shallow processor
  have answers := fun (dag : Dag) (counted : dag.Counted) (full : dag.Full) =>
    processor.answers counted full
  constructor
  · rw [Target.exists_ok_iff shallow answers trim isOrder,
      Target.exists_ok_iff shallow answers trim isOrder']
  · intro after after' selects selects'
    exact Target.agree_of_orders shallow trim isOrder isOrder' rfl rfl selects selects'

/-- The constant first, then the address of the variable. -/
def constantFirst : List NodeId := [3, 1, 0, 2, 4, 5, 6]

theorem constantFirst_isDependencyOrder :
    shiftInOneGraph.dag.IsDependencyOrder constantFirst := by
  have sorted : ∀ user < 7, ∀ value ∈ shiftInOneGraph.dag.operandsOf user,
      constantFirst.idxOf value.node < constantFirst.idxOf user := by
    decide +kernel
  refine ⟨by decide, ?_⟩
  rintro user _ ⟨value, member, rfl⟩
  obtain ⟨_, found, _⟩ := Dag.mem_operandsOf.mp member
  exact sorted user (Dag.lt_size_of_node? found) value member

/-- Every node is reached from the return. -/
theorem reachable_shiftInOneGraph : ∀ id < shiftInOneGraph.dag.size,
    ∃ root, shiftInOneGraph.dag.root = some root ∧
      Relation.ReflTransGen shiftInOneGraph.dag.Depends root.node id := by
  have load : shiftInOneGraph.dag.Depends 6 2 := ⟨⟨2, 1⟩, by decide, rfl⟩
  have disjunction : shiftInOneGraph.dag.Depends 6 5 := ⟨⟨5, 0⟩, by decide, rfl⟩
  intro id inside
  refine ⟨⟨6, 0⟩, rfl, ?_⟩
  match id, inside with
  | 0, _ => exact .tail (.single load) ⟨⟨0, 0⟩, by decide, rfl⟩
  | 1, _ => exact .tail (.single load) ⟨⟨1, 0⟩, by decide, rfl⟩
  | 2, _ => exact .single load
  | 3, _ => exact .tail (.single disjunction) ⟨⟨3, 0⟩, by decide, rfl⟩
  | 4, _ => exact .tail (.single disjunction) ⟨⟨4, 0⟩, by decide, rfl⟩
  | 5, _ => exact .single disjunction
  | 6, _ => exact .refl
  | past + 7, inside => exact absurd inside (Nat.not_lt.mpr (Nat.le_add_left 7 past))

/-- In both orders one instruction takes the shift in, and the shift dies. -/
theorem same_shiftInOneGraph :
    shiftInOneGraph.order ≠ constantFirst ∧
    ∃ after after',
      (Processor.undocumented.target.selectFunction "shift" shiftInOneGraph.order).run
        { dag := shiftInOneGraph.dag } = .ok () after ∧
      (Processor.undocumented.target.selectFunction "shift" constantFirst).run
        { dag := shiftInOneGraph.dag } = .ok () after' ∧
      (∀ id < 7, ∃ node node', after.dag.node? id = some node ∧
        after'.dag.node? id = some node' ∧
        Dag.SameForm shiftInOneGraph.dag after.dag after'.dag node node') ∧
      after.session.stats.tally = after'.session.stats.tally ∧
      ((after.dag.node? 5).map Node.opcode = some (.machine Instruction.SLL8r.toMachineOp) ∧
        after.dag.Dead 4) ∧
      (after'.dag.node? 5).map Node.opcode = some (.machine Instruction.SLL8r.toMachineOp) ∧
        after'.dag.Dead 4 := by
  obtain ⟨drafted, _⟩ := readDag_drafted readDag_shiftInOneText
  have bare : ∀ node ∈ shiftInOneGraph.dag.nodes,
      ∀ op ∈ [GenericOp.constant, .globalAddress, .externalSymbol, .frameIndex],
        node.opcode = .generic op → node.operands = [] := by
    decide
  obtain ⟨succeeds, same⟩ := order_irrelevant Processor.undocumented readDag_shiftInOneText
    reachable_shiftInOneGraph bare drafted.isDependencyOrder constantFirst_isDependencyOrder
    "shift" {} []
  obtain ⟨_, after, selects, introduced, shiftDies⟩ := selects_shiftInOneGraph.exists_ok
  obtain ⟨after', selects'⟩ := succeeds.mp ⟨after, selects⟩
  obtain ⟨sameForms, sameTally⟩ := same after after' selects selects'
  obtain ⟨taker, taker', takerFound, takerFound', sameTaker⟩ := sameForms 5 (by decide)
  obtain ⟨shift, shift', shiftFound, shiftFound', sameShift⟩ := sameForms 4 (by decide)
  have introduced' : (after'.dag.node? 5).map Node.opcode =
      some (.machine Instruction.SLL8r.toMachineOp) := by
    rw [takerFound', Option.map_some, ← sameTaker.opcode, ← Option.map_some, ← takerFound]
    exact introduced
  have shiftDies' : (after'.dag.node? 4).map Node.state = some .dead := by
    rw [shiftFound', Option.map_some, ← sameShift.state, ← Option.map_some, ← shiftFound]
    exact shiftDies
  exact ⟨by decide, after, after', selects, selects', sameForms, sameTally,
    ⟨introduced, Option.map_eq_some_iff.mp shiftDies⟩, introduced',
    Option.map_eq_some_iff.mp shiftDies'⟩

end Z80

end DagSelect
