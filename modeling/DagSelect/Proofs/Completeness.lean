/-
Module: DagSelect.Proofs.Completeness
Purpose: A successful selection is complete and closed. Every node is final or dead, what is final
  is an instruction or needs no selection, and nothing that is not dead refers to something dead.
  One turn keeps the part of this that can be said of a graph on the way, so a whole run keeps it.
Main exports: Dag.Settled, Dag.Settled.turn, Target.Visits.settled,
  complete_and_closed_of_selectFunction
-/
import DagSelect.Proofs.Reading
import DagSelect.Proofs.Turn
import DagSelect.Proofs.Z80.Table

namespace DagSelect

theorem GenericOp.needsNoSelection_of_isTargetLeaf {op : GenericOp}
    (isLeaf : op.isTargetLeaf = true) : op.needsNoSelection = true := by
  cases op with
  | targetConstant => rfl
  | targetGlobalAddress => rfl
  | targetExternalSymbol => rfl
  | targetFrameIndex => rfl
  | _ => cases isLeaf

/-- What is dead is out of the graph, and what is selected can stay. -/
structure Dag.Settled (dag : Dag) : Prop where
  dead : ∀ id node, dag.shape.node? id = some node → node.state = .dead →
    node.operands = [] ∧ ¬ dag.Pointed id
  selected : ∀ id node, dag.shape.node? id = some node → node.state = .selected →
    node.opcode.isFinal = true

namespace Turn

variable {before after : Dag} {id other : NodeId} {node changed : Node} {leaves : List Node}

/-- Something that a turn does not point at for the first time was pointed at before. A turn points
at the node itself, at what is below it, and at the new leaves. -/
theorem pointed_cases (turn : Turn before after id node changed leaves)
    (pointed : after.Pointed other) :
    before.Pointed other ∨ before.size ≤ other ∨ other = id ∧ changed.operands ≠ [] := by
  rcases pointed with ⟨user, edge⟩ | isRoot
  · rcases turn.depends_cases edge with ⟨_, value, member, rfl⟩ | ⟨_, stayed⟩
    · rcases turn.operands value member with handed | behind
      · cases handed with
        | self _ => exact Or.inr (Or.inr ⟨rfl, List.ne_nil_of_mem member⟩)
        | operand beneath =>
            obtain ⟨below, _, listed⟩ := beneath
            exact Or.inl (Or.inl ⟨below, value, listed, rfl⟩)
      · exact Or.inr (Or.inl behind)
    · exact Or.inl (Or.inl ⟨user, stayed⟩)
  · rw [turn.isRoot] at isRoot
    exact Or.inl (Or.inr isRoot)

end Turn

/-- What something points at is not dead. -/
theorem Dag.Settled.exists_of_pointed {dag : Dag} {value : Value} (settled : dag.Settled)
    (resolves : dag.Resolves value) (pointed : dag.Pointed value.node) :
    ∃ node, dag.node? value.node = some node ∧ node.state ≠ .dead := by
  obtain ⟨node, found, _⟩ := resolves
  exact ⟨node, found, fun isDead =>
    (settled.dead value.node node.shape (shape_found found) isDead).2 pointed⟩

/-- A node with operands is not dead. -/
theorem Dag.Settled.exists_of_depends {dag : Dag} {user operand : NodeId} (settled : dag.Settled)
    (edge : dag.Depends user operand) :
    ∃ node, dag.node? user = some node ∧ node.state ≠ .dead := by
  obtain ⟨value, member, _⟩ := edge
  obtain ⟨node, found, listed⟩ := mem_operandsOf.mp member
  refine ⟨node, found, fun isDead => ?_⟩
  exact List.ne_nil_of_mem listed (settled.dead user node.shape (shape_found found) isDead).1

/-- A turn keeps a graph settled. -/
theorem Dag.Settled.turn {before after : Dag} {id : NodeId} {node changed : Node}
    {leaves : List Node} (settled : before.Settled)
    (turn : Turn before after id node changed leaves) : after.Settled := by
  constructor
  · intro other found there isDead
    rcases turn.node?_cases there with ⟨rfl, rfl⟩ | ⟨different, stayed⟩ | ⟨_, leaf⟩
    · -- Only a node that nothing points at dies, and it gives up its operands.
      rcases turn.form with ⟨_, noOperands, unused⟩ | ⟨selected, _⟩
      · refine ⟨noOperands, fun pointed => ?_⟩
        rcases turn.pointed_cases pointed with used | behind | ⟨_, some⟩
        · exact unused used
        · exact Nat.not_lt.mpr behind (Dag.lt_size_of_node? turn.found)
        · exact some noOperands
      · rw [selected] at isDead
        cases isDead
    · obtain ⟨noOperands, unused⟩ := settled.dead other found stayed isDead
      refine ⟨noOperands, fun pointed => ?_⟩
      rcases turn.pointed_cases pointed with used | behind | ⟨same, _⟩
      · exact unused used
      · have inside := Dag.lt_size_of_node? stayed
        rw [Dag.size_shape] at inside
        exact Nat.not_lt.mpr behind inside
      · exact different same
    · obtain ⟨_, _, _, _, rfl⟩ := turn.areLeaves found leaf
      cases isDead
  · intro other found there isSelected
    rcases turn.node?_cases there with ⟨rfl, rfl⟩ | ⟨_, stayed⟩ | ⟨_, leaf⟩
    · rcases turn.form with ⟨dead, _⟩ | ⟨_, final, _⟩
      · rw [dead] at isSelected
        cases isSelected
      · exact final
    · exact settled.selected other found stayed isSelected
    · obtain ⟨_, _, _, isLeaf, rfl⟩ := turn.areLeaves found leaf
      exact GenericOp.needsNoSelection_of_isTargetLeaf isLeaf

/-- In a settled graph, a node that has had its turn and is not dead has its final form. -/
theorem Dag.Settled.isFinal {dag : Dag} (settled : dag.Settled) {id : NodeId} {node : Node}
    (found : dag.node? id = some node) (visited : node.state ≠ .unvisited)
    (notDead : node.state ≠ .dead) : node.opcode.isFinal = true := by
  have isSelected : node.shape.state = .selected := by
    cases state : node.state with
    | unvisited => exact absurd state visited
    | selected => exact state
    | dead => exact absurd state notDead
  exact settled.selected id node.shape (Dag.shape_found found) isSelected

/-- A graph that selection has not touched is settled. -/
theorem Dag.settled_of_unvisited {dag : Dag}
    (unvisited : ∀ id node, dag.node? id = some node → node.state = .unvisited) : dag.Settled := by
  have noOther : ∀ id node, dag.shape.node? id = some node → node.state = .unvisited := by
    intro id node found
    obtain ⟨uses, found⟩ := exists_uses_of_shape found
    have state := unvisited id _ found
    exact state
  constructor
  · intro id node found isDead
    rw [noOther id node found] at isDead
    cases isDead
  · intro id node found isSelected
    rw [noOther id node found] at isSelected
    cases isSelected

/-- Selection of an untouched graph leaves a settled one. -/
theorem Target.Visits.settled {Features : Type} {target : Target Features} {ids : List NodeId}
    {first last : Run} (visits : target.Visits ids first last) (counted : first.dag.Counted)
    (unvisited : ∀ id node, first.dag.node? id = some node → node.state = .unvisited) :
    last.dag.Settled :=
  visits.of_turns Dag.Settled (fun _ settled turn => settled.turn turn) counted
    (Dag.settled_of_unvisited unvisited)

/-- A successful selection is complete and closed, for every order that it accepts. No node is left
unvisited. A node that is not dead is an instruction or needs no selection, and its operands are not
dead; nor is the root. A dead node has no operands and no uses. -/
theorem complete_and_closed_of_selectFunction {Features : Type} (target : Target Features)
    {machine : String → Option MachineOp} {text : String} {context context' : TypeContext}
    {graph : LabelledDag} (read : (readDag machine text).run context = .ok graph context')
    {name : String} {order : List NodeId} {session : Session} {log : List LogRecord} {after : Run}
    (selects : (target.selectFunction name order).run ⟨graph.dag, session, log⟩ = .ok () after) :
    (∀ id node, after.dag.node? id = some node → node.state ≠ .unvisited) ∧
    (∀ id node, after.dag.node? id = some node → node.state ≠ .dead →
      node.opcode.isFinal = true ∧
      ∀ value ∈ node.operands, ∃ operand,
        after.dag.node? value.node = some operand ∧ operand.state ≠ .dead) ∧
    (∃ root node, after.dag.root = some root ∧ after.dag.node? root.node = some node ∧
      node.state ≠ .dead) ∧
    (∀ id node, after.dag.node? id = some node → node.state = .dead →
      node.operands = [] ∧ node.uses = 0) := by
  obtain ⟨drafted, root, rooted⟩ := readDag_drafted read
  obtain ⟨first, last, firstDag, _, counted, ⟨_, visits, complete⟩, lastDag, _⟩ :=
    (target.selectFunction_ends name order _ drafted.counted).of_ok selects
  have settled := visits.settled (firstDag ▸ drafted.counted) (firstDag ▸ drafted.unvisited)
  have lastRoot : last.dag.root = some root := by
    rw [visits.root (firstDag ▸ drafted.counted), firstDag]
    exact rooted
  rw [lastDag]
  refine ⟨complete, ?_, ?_, ?_⟩
  · intro id node found notDead
    constructor
    · exact settled.isFinal found (complete id node found) notDead
    · intro value member
      have listed : value ∈ last.dag.operandsOf id := Dag.mem_operandsOf.mpr ⟨node, found, member⟩
      exact settled.exists_of_pointed (counted.operands id value listed)
        (Or.inl ⟨id, value, listed, rfl⟩)
  · obtain ⟨node, found, notDead⟩ := settled.exists_of_pointed (counted.root root lastRoot)
      (Or.inr (Dag.isRoot_eq_true_iff.mpr ⟨root, lastRoot, rfl⟩))
    exact ⟨root, node, lastRoot, found, notDead⟩
  · intro id node found isDead
    obtain ⟨noOperands, unused⟩ := settled.dead id node.shape (Dag.shape_found found) isDead
    exact ⟨noOperands, (counted.uses_eq_zero_iff found).mpr unused⟩

/-- An order in which a node comes before its users and again after them. -/
theorem selects_incrementGraph_twice :
    Ends (fun _ run => (run.dag.node? 5).map Node.state = some .dead) (fun _ _ => False)
      ((Z80.Processor.plain.target.selectFunction "increment" [3, 8, 0, 1, 2, 4, 5, 6, 7, 3]).run
        { dag := incrementGraph.dag }) := by
  decide +kernel

/-- The folded constant of the graph is dead in the end, and so it has no uses. -/
theorem complete_and_closed_incrementGraph :
    ∃ after : Run,
      (Z80.Processor.plain.target.selectFunction "increment" [3, 8, 0, 1, 2, 4, 5, 6, 7, 3]).run
        { dag := incrementGraph.dag } = .ok () after ∧
      (∀ id node, after.dag.node? id = some node → node.state ≠ .unvisited) ∧
      ∃ node, after.dag.node? 5 = some node ∧ node.state = .dead ∧ node.uses = 0 := by
  obtain ⟨_, after, selects, folded⟩ := selects_incrementGraph_twice.exists_ok
  obtain ⟨node, found, isDead⟩ := Option.map_eq_some_iff.mp folded
  obtain ⟨complete, _, _, dead⟩ :=
    complete_and_closed_of_selectFunction Z80.Processor.plain.target readDag_incrementText selects
  exact ⟨after, selects, complete, node, found, isDead, (dead 5 node found isDead).2⟩

end DagSelect
