/-
Module: DagSelect.Proofs.Outline
Purpose: What two selections of one graph can be compared by. The outline of a graph forgets which
  instruction a node is and how often nodes are used; every change that a turn makes can be made of
  the outline, and the outline decides who uses a node. Which nodes are dead only changes at the
  node whose turn it is.
Main exports: Node.outline, Dag.outline, Dag.outline_update, Dag.useCount_of_outline, Dag.Dead,
  Turn.dead_self_iff, Turn.dead_other_iff
-/
import DagSelect.Proofs.Turn

namespace DagSelect

/-! ### Graphs up to their instructions -/

/-- The opcode, without the instruction that it is. -/
def Opcode.outline : Opcode → Opcode
  | .generic op => .generic op
  | .machine _ => .machine default

/-- The node without its use count, and without the instruction that it is. -/
def Node.outline (node : Node) : Node :=
  { node.shape with opcode := node.opcode.outline }

theorem Node.generic_of_outline {node other : Node} {op : GenericOp}
    (outlined : other.outline = node.outline) (generic : node.opcode = .generic op) :
    other.opcode = .generic op := by
  have opcode : other.opcode.outline = node.opcode.outline := congrArg Node.opcode outlined
  rw [generic] at opcode
  cases otherOpcode : other.opcode with
  | generic otherOp =>
      rw [otherOpcode] at opcode
      exact opcode
  | machine otherOp =>
      rw [otherOpcode] at opcode
      cases opcode

namespace Dag

variable {dag first second : Dag} {id : NodeId} {node : Node} {change : Node → Node}

/-- The graph without its use counts, and without the instructions that its nodes are. -/
def outline (dag : Dag) : Dag := { dag with nodes := dag.nodes.map Node.outline }

theorem node?_outline (dag : Dag) : dag.outline.node? id = (dag.node? id).map Node.outline := by
  simp [node?, outline]

theorem outline_shape (dag : Dag) : dag.shape.outline = dag.outline := by
  simp only [outline, shape, List.map_map]
  rfl

theorem outline_extend (dag : Dag) (leaves : List Node) :
    (dag.extend leaves).outline = dag.outline.extend (leaves.map Node.outline) := by
  simp [extend, outline]

/-- Forgetting the instructions commutes with a change that does not look at them. -/
theorem outline_update (dag : Dag) (change' : Node → Node)
    (agree : ∀ node, (change node).outline = change' node.outline) :
    (dag.update id change).outline = dag.outline.update id change' := by
  apply ext_node?
  · intro other
    simp only [node?_outline, node?_update]
    by_cases same : other = id
    · simp only [same, if_true, Option.map_map]
      congr 1
      funext node
      exact agree node
    · simp [same]
  · rfl

/-- Users are counted without looking at instructions. -/
theorem useCount_outline (dag : Dag) : dag.outline.useCount id = dag.useCount id := by
  have slotsSame : dag.outline.operandSlots = dag.operandSlots := by
    simp only [operandSlots, outline, List.flatMap_map]
    rfl
  rw [useCount, useCount, slotsSame]
  rfl

theorem outline_of_finished {before after : Dag}
    (shape : after.shape = before.shape.update id Node.finished) :
    after.outline = before.outline.update id Node.finished := by
  rw [← outline_shape, shape, outline_update _ Node.finished fun _ => rfl, outline_shape]

theorem outline_of_discarded {before after : Dag}
    (shape : after.shape = before.shape.update id Node.discarded) :
    after.outline = before.outline.update id Node.discarded := by
  rw [← outline_shape, shape, outline_update _ Node.discarded fun _ => rfl, outline_shape]

theorem outline_of_morphed {before after : Dag} {leaves : List Node} {op : MachineOp}
    {operands : List Value}
    (shape : after.shape = (before.shape.extend leaves).update id (Node.morphed op operands)) :
    after.outline = (before.outline.extend (leaves.map Node.outline)).update id
      (Node.morphed default operands) := by
  rw [← outline_shape, shape, outline_update _ (Node.morphed default operands) fun _ => rfl,
    outline_extend, outline_shape]

section

variable (same : first.outline = second.outline)
include same

theorem useCount_of_outline : first.useCount id = second.useCount id := by
  rw [← useCount_outline, same, useCount_outline]

theorem pointed_of_outline : first.Pointed id ↔ second.Pointed id := by
  rw [← useCount_pos_iff, ← useCount_pos_iff, useCount_of_outline same]

theorem size_of_outline : first.size = second.size := by
  have length := congrArg (fun dag : Dag => dag.nodes.length) same
  simpa [outline, size] using length

theorem exists_of_outline (found : first.node? id = some node) :
    ∃ other, second.node? id = some other ∧ other.outline = node.outline := by
  have outlined : second.outline.node? id = some node.outline := by
    rw [← same, node?_outline, found]
    rfl
  rw [node?_outline, Option.map_eq_some_iff] at outlined
  exact outlined

end

end Dag

/-! ### Dead nodes -/

/-- The node has been given up. -/
def Dag.Dead (dag : Dag) (id : NodeId) : Prop :=
  ∃ node, dag.node? id = some node ∧ node.state = .dead

theorem Dag.dead_shape (dag : Dag) {id : NodeId} : dag.shape.Dead id ↔ dag.Dead id := by
  simp [Dead, node?_shape]

namespace Turn

variable {before after : Dag} {id other : NodeId} {node changed : Node} {leaves : List Node}

theorem dead_self_iff (turn : Turn before after id node changed leaves) :
    after.Dead id ↔ changed.state = .dead := by
  rw [← Dag.dead_shape, Dag.Dead, turn.node?_self]
  simp

/-- A turn leaves the other nodes dead or not. -/
theorem dead_other_iff (turn : Turn before after id node changed leaves) (different : other ≠ id)
    (inside : other < before.size) : after.Dead other ↔ before.Dead other := by
  rw [← Dag.dead_shape after, ← Dag.dead_shape before]
  constructor
  · rintro ⟨found, there, isDead⟩
    rcases turn.node?_cases there with ⟨same, _⟩ | ⟨_, stayed⟩ | ⟨behind, _⟩
    · exact absurd same different
    · exact ⟨found, stayed, isDead⟩
    · exact absurd inside (Nat.not_lt.mpr behind)
  · rintro ⟨found, there, isDead⟩
    exact ⟨found, turn.node?_other different there, isDead⟩

end Turn

end DagSelect
