/-
Module: DagSelect.Proofs.Turn
Purpose: What all visits that change something have in common: one unvisited node takes its final
  form, finished leaves are added behind the others, and all other nodes stay as they are. The
  operands of the node in its final form were below it before, or are the new leaves. Invariants
  that do not depend on the way a node was selected are proved from this description.
Main exports: Turn, Target.Visit.turn, Turn.node?_cases, Turn.depends_cases, Dag.Ranked,
  Dag.Acyclic, Dag.Ranked.turn, Target.Visits.of_turns, Target.Visits.ranked
-/
import DagSelect.Proofs.Visit

namespace DagSelect

/-- Whether a node with the opcode can stand in the final graph. -/
def Opcode.isFinal : Opcode → Bool
  | .generic op => op.needsNoSelection
  | .machine _ => true

/-- One node takes its final form, and leaves are added. The node dies if nothing points at it;
otherwise it is selected, as an instruction also if nothing points at it. -/
structure Turn (before after : Dag) (id : NodeId) (node changed : Node) (leaves : List Node) :
    Prop where
  found : before.node? id = some node
  unvisited : node.state = .unvisited
  results : changed.results = node.results
  form : (changed.state = .dead ∧ changed.operands = [] ∧ ¬ before.Pointed id) ∨
    (changed.state = .selected ∧ changed.opcode.isFinal = true ∧
      (before.Pointed id ∨ node.opcode.isMachine = true))
  generic : ∀ op, changed.opcode = .generic op → node.opcode = .generic op ∧
    (changed.state = .dead ∨ changed.operands = node.operands ∧ changed.payload = node.payload)
  shape : after.shape = (before.shape.extend leaves).update id fun _ => changed
  areLeaves : ∀ leaf ∈ leaves, ∃ op type payload,
    op.isTargetLeaf = true ∧ leaf = .leaf op type payload
  operands : ∀ value ∈ changed.operands,
    HandedOn before { node := id } value ∨ before.size ≤ value.node
  leavesUsed : ∀ other, before.size ≤ other → other < before.size + leaves.length →
    ∃ value ∈ changed.operands, value.node = other

namespace Dag

/-- A change of one node puts one other node there. -/
theorem update_const {dag : Dag} {id : NodeId} {node : Node} {change : Node → Node}
    (found : dag.node? id = some node) :
    dag.update id change = dag.update id fun _ => change node := by
  apply ext_node?
  · intro other
    rw [node?_update, node?_update]
    by_cases same : other = id
    · simp [same, found]
    · simp [same]
  · rfl

end Dag

namespace Turn

variable {before after : Dag} {id : NodeId} {node : Node}

/-- A node that is final as it is. -/
theorem finished (found : before.node? id = some node) (unvisited : node.state = .unvisited)
    (final : node.opcode.isFinal = true)
    (used : before.Pointed id ∨ node.opcode.isMachine = true)
    (shape : after.shape = before.shape.update id Node.finished) :
    Turn before after id node node.shape.finished [] where
  found := found
  unvisited := unvisited
  results := rfl
  form := Or.inr ⟨rfl, final, used⟩
  generic op generic := ⟨generic, Or.inr ⟨rfl, rfl⟩⟩
  shape := by rw [shape, Dag.extend_nil, Dag.update_const (Dag.shape_found found)]
  areLeaves leaf member := by simp at member
  operands value member :=
    Or.inl (.operand (.of_mem (Dag.mem_operandsOf.mpr ⟨node, found, member⟩)))
  leavesUsed other behind inside := absurd inside (Nat.not_lt.mpr behind)

/-- A node that dies. -/
theorem discarded (found : before.node? id = some node) (unvisited : node.state = .unvisited)
    (unused : ¬ before.Pointed id)
    (shape : after.shape = before.shape.update id Node.discarded) :
    Turn before after id node node.shape.discarded [] where
  found := found
  unvisited := unvisited
  results := rfl
  form := Or.inl ⟨rfl, rfl, unused⟩
  generic op generic := ⟨generic, Or.inl rfl⟩
  shape := by rw [shape, Dag.extend_nil, Dag.update_const (Dag.shape_found found)]
  areLeaves leaf member := by simp at member
  operands value member := by simp [Node.discarded] at member
  leavesUsed other behind inside := absurd inside (Nat.not_lt.mpr behind)

/-- A node that a pattern covers. -/
theorem covered {Features : Type} {pattern : Pattern Features} {types : AddressTypes}
    {own rest : List Capture} (covers : pattern.Covers before types id node own rest)
    (unvisited : node.state = .unvisited) (used : before.Pointed id)
    (shape : after.shape = (before.shape.extend (Capture.leaves (own ++ rest))).update id
      (Node.morphed pattern.emit (Capture.place before.size (own ++ rest)))) :
    Turn before after id node
      (node.shape.morphed pattern.emit (Capture.place before.size (own ++ rest)))
      (Capture.leaves (own ++ rest)) where
  found := covers.found
  unvisited := unvisited
  results := rfl
  form := Or.inr ⟨rfl, rfl, Or.inl used⟩
  generic op impossible := by cases impossible
  shape := by rw [shape, Dag.update_const (Dag.node?_extend _ (Dag.shape_found covers.found))]
  areLeaves _ := Capture.exists_leaf_of_mem_leaves
  operands value member := (Capture.mem_place_cases member).imp covers.handedOn And.left
  leavesUsed _ := Capture.exists_mem_place

end Turn

/-- No pattern of the processor hands on the node that it covers. -/
def Target.Folds {Features : Type} (target : Target Features) : Prop :=
  ∀ pattern ∈ target.table.patterns, pattern.Folds

namespace Target

variable {Features : Type} {target : Target Features} {id : NodeId} {before after : Run}

/-- A visit changes nothing or is a turn. If no pattern hands on the node that it covers, the
operands of the node are new leaves or were truly below it. -/
theorem Visit.turn (visit : target.Visit id before after) :
    (after.dag = before.dag ∧
      ∃ node, before.dag.node? id = some node ∧ node.state ≠ .unvisited) ∨
    ∃ node changed leaves, Turn before.dag after.dag id node changed leaves ∧
      (target.Folds → ∀ value ∈ changed.operands,
        before.dag.Beneath id value ∨ before.dag.size ≤ value.node) := by
  cases visit with
  | @kept node found visited dag session => exact Or.inl ⟨dag, node, found, visited⟩
  | @accepted node op found unvisited machine shape session =>
      refine Or.inr ⟨node, _, _, .finished found unvisited ?_ ?_ shape, ?_⟩
      · rw [machine]
        rfl
      · exact Or.inr (by rw [machine]; rfl)
      · intro _ value member
        exact Or.inl (.of_mem (Dag.mem_operandsOf.mpr ⟨node, found, member⟩))
  | @discarded node op found unvisited generic unused shape session =>
      refine Or.inr ⟨node, _, _, .discarded found unvisited unused shape, ?_⟩
      intro _ value member
      simp [Node.discarded] at member
  | @passed node op found unvisited generic used needsNone shape session =>
      refine Or.inr ⟨node, _, _, .finished found unvisited ?_ (Or.inl used) shape, ?_⟩
      · rw [generic]
        exact needsNone
      · intro _ value member
        exact Or.inl (.of_mem (Dag.mem_operandsOf.mpr ⟨node, found, member⟩))
  | @covered node op pattern own rest found unvisited generic used needs finds covers _ shape _ =>
      refine Or.inr ⟨node, _, _, .covered covers unvisited used shape, ?_⟩
      intro folds value member
      obtain ⟨listed, _⟩ := cover_finds finds
      exact (Capture.mem_place_cases member).imp (covers.beneath (folds pattern listed)) And.left

end Target

namespace Turn

variable {before after : Dag} {id other : NodeId} {node changed found : Node} {leaves : List Node}

/-- The node of the turn afterwards. -/
theorem node?_self (turn : Turn before after id node changed leaves) :
    after.shape.node? id = some changed := by
  rw [turn.shape, Dag.node?_update_self, Dag.node?_extend leaves (Dag.shape_found turn.found)]
  rfl

/-- The node of the turn has had its turn. -/
theorem visited (turn : Turn before after id node changed leaves) :
    changed.state ≠ .unvisited := by
  rcases turn.form with ⟨dead, _⟩ | ⟨selected, _⟩
  · simp [dead]
  · simp [selected]

/-- A node afterwards is the one of the turn, one that stayed, or a leaf. -/
theorem node?_cases (turn : Turn before after id node changed leaves)
    (there : after.shape.node? other = some found) :
    (other = id ∧ found = changed) ∨
    (other ≠ id ∧ before.shape.node? other = some found) ∨
    (before.size ≤ other ∧ found ∈ leaves) := by
  rw [turn.shape] at there
  rcases Dag.node?_update_cases there with ⟨same, _, _, rfl⟩ | ⟨different, there⟩
  · exact Or.inl ⟨same, rfl⟩
  · rcases Dag.node?_extend_cases there with stayed | ⟨behind, leaf⟩
    · exact Or.inr (Or.inl ⟨different, stayed⟩)
    · rw [Dag.size_shape] at behind
      exact Or.inr (Or.inr ⟨behind, List.mem_of_getElem? leaf⟩)

/-- A node that it is not the turn of stays as it is. -/
theorem node?_other (turn : Turn before after id node changed leaves) (different : other ≠ id)
    (there : before.shape.node? other = some found) : after.shape.node? other = some found := by
  rw [turn.shape, Dag.node?_update_of_ne _ different, Dag.node?_extend leaves there]

/-- A node keeps its result types, whether it is its turn or not. -/
theorem exists_results (turn : Turn before after id node changed leaves)
    (there : before.shape.node? other = some found) :
    ∃ now, after.shape.node? other = some now ∧ now.results = found.results := by
  by_cases same : other = id
  · subst same
    cases (Dag.shape_found turn.found).symm.trans there
    exact ⟨changed, turn.node?_self, turn.results⟩
  · exact ⟨found, turn.node?_other same there, rfl⟩

theorem root (turn : Turn before after id node changed leaves) : after.root = before.root := by
  rw [← Dag.root_shape, turn.shape, Dag.root_update, Dag.root_extend, Dag.root_shape]

theorem isRoot (turn : Turn before after id node changed leaves) :
    after.isRoot other = before.isRoot other := by
  rw [Dag.isRoot, turn.root, Dag.isRoot]

/-- An edge afterwards comes from an operand of the node of the turn, or stayed. -/
theorem depends_cases (turn : Turn before after id node changed leaves) {user : NodeId}
    (edge : after.Depends user other) :
    (user = id ∧ ∃ value ∈ changed.operands, value.node = other) ∨
    (user ≠ id ∧ before.Depends user other) := by
  rw [← Dag.depends_shape, turn.shape] at edge
  rcases Dag.depends_update_cases edge with ⟨same, _, _, operand⟩ | ⟨different, edge⟩
  · exact Or.inl ⟨same, operand⟩
  · rcases Dag.depends_extend_cases edge with stayed | ⟨leaf, member, value, listed, _⟩
    · exact Or.inr ⟨different, Dag.depends_shape.mp stayed⟩
    · obtain ⟨_, _, _, _, rfl⟩ := turn.areLeaves leaf member
      simp [Node.leaf] at listed

/-- An edge from another node stays. -/
theorem depends_other (turn : Turn before after id node changed leaves) {user : NodeId}
    (different : user ≠ id) (edge : before.Depends user other) : after.Depends user other := by
  obtain ⟨value, member, named⟩ := edge
  obtain ⟨userNode, userFound, listed⟩ := Dag.mem_operandsOf.mp member
  have stays := turn.node?_other different (Dag.shape_found userFound)
  refine Dag.depends_shape.mp ⟨value, ?_, named⟩
  exact Dag.mem_operandsOf.mpr ⟨_, stays, listed⟩

/-- The node of the turn points at its operands. -/
theorem depends_self (turn : Turn before after id node changed leaves) {value : Value}
    (member : value ∈ changed.operands) : after.Depends id value.node :=
  Dag.depends_shape.mp
    ⟨value, Dag.mem_operandsOf.mpr ⟨changed, turn.node?_self, member⟩, rfl⟩

theorem size (turn : Turn before after id node changed leaves) :
    after.size = before.size + leaves.length := by
  rw [← Dag.size_shape after, turn.shape, Dag.size_update, Dag.size_extend, Dag.size_shape]

end Turn

/-! ### Graphs without cycles -/

/-- Every operand has a lower rank than its users. -/
def Dag.Ranked (rank : NodeId → Nat) (dag : Dag) : Prop :=
  ∀ user operand, dag.Depends user operand → rank operand < rank user

/-- No node is beneath itself. -/
def Dag.Acyclic (dag : Dag) : Prop :=
  ∀ id, ¬ Relation.TransGen dag.Depends id id

/-- Ranks by position, where nodes that were added later lie below all others. -/
def rankBy (size : Nat) (position : NodeId → Nat) (id : NodeId) : Nat :=
  if id < size then position id + 1 else 0

section Ranked

variable {dag before after : Dag} {rank : NodeId → Nat} {id : NodeId} {node changed : Node}
  {leaves : List Node}

theorem Dag.Ranked.lt_of_transGen {operand : NodeId} (ranked : dag.Ranked rank)
    (path : Relation.TransGen dag.Depends id operand) : rank operand < rank id := by
  induction path with
  | single edge => exact ranked _ _ edge
  | tail _ edge inductionHypothesis => exact Nat.lt_trans (ranked _ _ edge) inductionHypothesis

theorem Dag.Ranked.acyclic (ranked : dag.Ranked rank) : dag.Acyclic :=
  fun _ cycle => Nat.lt_irrefl _ (ranked.lt_of_transGen cycle)

/-- A turn that points only below the node keeps the ranks, if new nodes rank below it. -/
theorem Dag.Ranked.turn (ranked : before.Ranked rank)
    (turn : Turn before after id node changed leaves)
    (below : ∀ value ∈ changed.operands, before.Beneath id value ∨ before.size ≤ value.node)
    (fresh : ∀ other, before.size ≤ other → rank other < rank id) : after.Ranked rank := by
  intro user operand edge
  rcases turn.depends_cases edge with ⟨rfl, value, member, rfl⟩ | ⟨_, stayed⟩
  · rcases below value member with beneath | behind
    · exact ranked.lt_of_transGen beneath.transGen
    · exact fresh value.node behind
  · exact ranked user operand stayed

theorem rankBy_lt {size : Nat} {position : NodeId → Nat} {other : NodeId} (inside : id < size)
    (behind : size ≤ other) : rankBy size position other < rankBy size position id := by
  rw [rankBy, rankBy, if_pos inside, if_neg (Nat.not_lt.mpr behind)]
  exact Nat.succ_pos _

theorem rankBy_lt_of_lt {size : Nat} {position : NodeId → Nat} {other : NodeId} (inside : id < size)
    (otherInside : other < size) (lower : position other < position id) :
    rankBy size position other < rankBy size position id := by
  rw [rankBy, rankBy, if_pos inside, if_pos otherInside]
  exact Nat.succ_lt_succ lower

/-- A graph is ranked by positions in which every operand comes before its users. -/
theorem Dag.Counted.ranked {position : NodeId → Nat} (counted : dag.Counted)
    (sorted : ∀ user operand, dag.Depends user operand → position operand < position user) :
    dag.Ranked (rankBy dag.size position) := by
  intro user operand edge
  have lower := sorted user operand edge
  obtain ⟨value, member, rfl⟩ := edge
  obtain ⟨node, found, _⟩ := Dag.mem_operandsOf.mp member
  exact rankBy_lt_of_lt (Dag.lt_size_of_node? found)
    (counted.operands user value member).lt_size lower

end Ranked

namespace Target.Visits

variable {Features : Type} {target : Target Features} {ids : List NodeId} {first last : Run}

/-- What every turn keeps, a run keeps. -/
theorem of_turns (Kept : Dag → Prop)
    (step : ∀ {before after : Dag} {id : NodeId} {node changed : Node} {leaves : List Node},
      before.Counted → Kept before → Turn before after id node changed leaves → Kept after)
    (visits : target.Visits ids first last) (counted : first.dag.Counted) (start : Kept first.dag) :
    Kept last.dag := by
  induction visits with
  | nil => exact start
  | cons visit counted' _ inductionHypothesis =>
      apply inductionHypothesis counted'
      rcases visit.turn with ⟨same, _⟩ | ⟨_, _, _, turn, _⟩
      · exact same ▸ start
      · exact step counted start turn

/-- A node that has not had its turn at the end did not have it at the beginning, nor did it come
up. -/
theorem unvisited (visits : target.Visits ids first last) {id : NodeId} {node : Node}
    (found : last.dag.shape.node? id = some node) (state : node.state = .unvisited) :
    id ∉ ids ∧ first.dag.shape.node? id = some node := by
  induction visits with
  | nil => exact ⟨List.not_mem_nil, found⟩
  | @cons stop _ _ _ _ visit _ _ inductionHypothesis =>
      obtain ⟨later, there⟩ := inductionHypothesis found
      rcases visit.turn with ⟨same, stopNode, stopFound, visited⟩ | ⟨_, changed, _, turn, _⟩
      · rw [same] at there
        refine ⟨?_, there⟩
        rw [List.mem_cons, not_or]
        refine ⟨?_, later⟩
        rintro rfl
        cases (Dag.shape_found stopFound).symm.trans there
        exact visited state
      · rcases turn.node?_cases there with ⟨_, rfl⟩ | ⟨different, stayed⟩ | ⟨_, leaf⟩
        · exact absurd state turn.visited
        · exact ⟨by simp [different, later], stayed⟩
        · obtain ⟨_, _, _, _, rfl⟩ := turn.areLeaves node leaf
          cases state

/-- A node that did not come up is as it was. -/
theorem unchanged (visits : target.Visits ids first last) {id : NodeId} {node : Node}
    (found : first.dag.shape.node? id = some node) (absent : id ∉ ids) :
    last.dag.shape.node? id = some node := by
  induction visits with
  | nil => exact found
  | cons visit _ _ inductionHypothesis =>
      obtain ⟨different, later⟩ := not_or.mp (List.mem_cons.not.mp absent)
      apply inductionHypothesis _ later
      rcases visit.turn with ⟨same, _⟩ | ⟨_, _, _, turn, _⟩
      · rw [same]
        exact found
      · exact turn.node?_other different found

theorem root (visits : target.Visits ids first last) (counted : first.dag.Counted) :
    last.dag.root = first.dag.root :=
  visits.of_turns (fun dag => dag.root = first.dag.root)
    (fun _ same turn => turn.root.trans same) counted rfl

theorem counted (visits : target.Visits ids first last) (counted : first.dag.Counted) :
    last.dag.Counted := by
  induction visits with
  | nil => exact counted
  | cons _ counted' _ inductionHypothesis => exact inductionHypothesis counted'

/-- Turns of the first nodes keep the ranks in which all later nodes lie below. -/
theorem ranked {size : Nat} {position : NodeId → Nat} (folds : target.Folds)
    (visits : target.Visits ids first last) (inside : ∀ id ∈ ids, id < size)
    (grown : size ≤ first.dag.size) (ranked : first.dag.Ranked (rankBy size position)) :
    last.dag.Ranked (rankBy size position) := by
  induction visits with
  | nil => exact ranked
  | cons visit _ _ inductionHypothesis =>
      rw [List.forall_mem_cons] at inside
      rcases visit.turn with ⟨same, _⟩ | ⟨_, _, _, turn, below⟩
      · exact inductionHypothesis inside.2 (same ▸ grown) (same ▸ ranked)
      · apply inductionHypothesis inside.2
        · rw [turn.size]
          exact Nat.le_add_right_of_le grown
        · exact ranked.turn turn (below folds) fun other behind =>
            rankBy_lt inside.1 (Nat.le_trans grown behind)

end Target.Visits

end DagSelect
