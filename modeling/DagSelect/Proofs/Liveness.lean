/-
Module: DagSelect.Proofs.Liveness
Purpose: No garbage survives selection in a dependency order. Users have their turn before their
  operands, so a node that is looked at has its final users already: if there are none it dies, and
  otherwise one of them holds it to the end. Following users upwards leads to the root or to an
  instruction of the input, since the graph has no cycles.
Main exports: Dag.IsDependencyOrder, Tended, Tended.held_turn, Tended.visits,
  reachable_of_selectFunction
-/
import DagSelect.Proofs.Completeness
import DagSelect.Proofs.Reading
import DagSelect.Proofs.Z80.Table

namespace DagSelect

/-- The order lists every node once, and every operand before its users. -/
structure Dag.IsDependencyOrder (dag : Dag) (order : List NodeId) : Prop where
  lists : order.Perm dag.ids
  sorted : ∀ user operand, dag.Depends user operand → order.idxOf operand < order.idxOf user

/-- The node is an instruction of the graph. -/
def Dag.HasInstruction (dag : Dag) (id : NodeId) : Prop :=
  ∃ node, dag.node? id = some node ∧ node.opcode.isMachine = true

/-- A graph on the way from an input, with the nodes that have not had their turn. Those are still
as they were. Any other node that is not dead is held by the root, by being an instruction of the
input, or by a user whose operands are final. -/
structure Tended (input : Dag) (rank : NodeId → Nat) (waiting : List NodeId) (dag : Dag) :
    Prop where
  ranked : dag.Ranked rank
  grown : input.size ≤ dag.size
  unchanged : ∀ id ∈ waiting, dag.shape.node? id = input.shape.node? id
  held : ∀ id node, dag.shape.node? id = some node → id ∉ waiting → node.state ≠ .dead →
    dag.isRoot id = true ∨ input.HasInstruction id ∨
      ∃ user, user ∉ waiting ∧ dag.Depends user id

namespace Tended

variable {input : Dag} {position : NodeId → Nat} {id : NodeId} {waiting : List NodeId}

/-- A node that is waiting is the one of the input. -/
theorem exists_input {rank : NodeId → Nat} {dag : Dag} {node : Node}
    (tended : Tended input rank waiting dag) (member : id ∈ waiting)
    (found : dag.node? id = some node) :
    ∃ uses, input.node? id = some { node with uses := uses } := by
  have same := tended.unchanged id member
  rw [Dag.shape_found found] at same
  obtain ⟨uses, inputFound⟩ := Dag.exists_uses_of_shape same.symm
  exact ⟨uses, inputFound⟩

section Turn

variable {rank : NodeId → Nat} {before after : Dag} {node changed : Node} {leaves : List Node}

/-- After the turn of a node, what is not dead and not waiting is held. -/
theorem held_turn (tended : Tended input rank (id :: waiting) before)
    (later : ∀ other ∈ waiting, rank other < rank id)
    (turn : Turn before after id node changed leaves) {other : NodeId} {found : Node}
    (there : after.shape.node? other = some found) (notLater : other ∉ waiting)
    (notDead : found.state ≠ .dead) :
    after.isRoot other = true ∨ input.HasInstruction other ∨
      ∃ user, user ∉ waiting ∧ after.Depends user other := by
  rcases turn.node?_cases there with ⟨rfl, rfl⟩ | ⟨different, stayed⟩ | ⟨behind, _⟩
  · -- The node is pointed at, or is an instruction; its users have had their turn.
    rcases turn.form with ⟨isDead, _⟩ | ⟨_, _, used | machine⟩
    · exact absurd isDead notDead
    · rcases used with ⟨user, edge⟩ | isRoot
      · have higher := tended.ranked user other edge
        refine Or.inr (Or.inr ⟨user, ?_, turn.depends_other ?_ edge⟩)
        · exact fun member => Nat.lt_asymm higher (later user member)
        · exact fun same => Nat.lt_irrefl _ (same ▸ higher)
      · rw [turn.isRoot]
        exact Or.inl isRoot
    · obtain ⟨uses, inputFound⟩ := tended.exists_input List.mem_cons_self turn.found
      exact Or.inr (Or.inl ⟨_, inputFound, machine⟩)
  · -- The user that held the node is another one than the node of the turn.
    have notBefore : other ∉ id :: waiting := by simp [different, notLater]
    rcases tended.held other found stayed notBefore notDead with
      isRoot | instruction | ⟨user, userDone, edge⟩
    · rw [turn.isRoot]
      exact Or.inl isRoot
    · exact Or.inr (Or.inl instruction)
    · obtain ⟨userOther, userNotLater⟩ := not_or.mp (List.mem_cons.not.mp userDone)
      exact Or.inr (Or.inr ⟨user, userNotLater, turn.depends_other userOther edge⟩)
  · -- A new leaf is an operand of the node of the turn.
    have inside := Dag.lt_size_of_node? there
    rw [Dag.size_shape, turn.size] at inside
    obtain ⟨value, member, rfl⟩ := turn.leavesUsed other behind inside
    have notWaiting : id ∉ waiting := fun member => Nat.lt_irrefl _ (later id member)
    exact Or.inr (Or.inr ⟨id, notWaiting, turn.depends_self member⟩)

/-- The turn of a node leaves those that are waiting as they are. -/
theorem unchanged_turn (tended : Tended input rank (id :: waiting) before)
    (later : ∀ other ∈ waiting, rank other < rank id)
    (turn : Turn before after id node changed leaves) {other : NodeId} (member : other ∈ waiting)
    (inside : other < input.size) : after.shape.node? other = input.shape.node? other := by
  have different : other ≠ id := by
    rintro rfl
    exact Nat.lt_irrefl _ (later other member)
  obtain ⟨found, otherFound⟩ := Dag.exists_node?_of_lt (Nat.lt_of_lt_of_le inside tended.grown)
  rw [← tended.unchanged other (List.mem_cons_of_mem _ member), Dag.shape_found otherFound]
  exact turn.node?_other different (Dag.shape_found otherFound)

end Turn

variable {Features : Type} {target : Target Features} {before after : Run}

/-- The node whose turn it is keeps a graph tended, if its users have had their turn and its
operands have not. -/
theorem visit (folds : target.Folds)
    (untouched : ∀ id node, input.node? id = some node → node.state = .unvisited)
    (tended : Tended input (rankBy input.size position) (id :: waiting) before.dag)
    (inside : ∀ other ∈ id :: waiting, other < input.size)
    (later : ∀ other ∈ waiting,
      rankBy input.size position other < rankBy input.size position id)
    (visit : target.Visit id before after) :
    Tended input (rankBy input.size position) waiting after.dag := by
  rcases visit.turn with ⟨_, node, found, visited⟩ | ⟨node, changed, leaves, turn, below⟩
  · obtain ⟨uses, inputFound⟩ := tended.exists_input List.mem_cons_self found
    exact absurd (untouched id _ inputFound) visited
  · constructor
    · exact tended.ranked.turn turn (below folds) fun other behind =>
        rankBy_lt (inside id List.mem_cons_self) (Nat.le_trans tended.grown behind)
    · rw [turn.size]
      exact Nat.le_trans tended.grown (Nat.le_add_right _ _)
    · intro other member
      exact tended.unchanged_turn later turn member (inside other (List.mem_cons_of_mem _ member))
    · intro other found there notLater notDead
      exact tended.held_turn later turn there notLater notDead

/-- A run over nodes of falling rank leaves no node waiting. -/
theorem visits (folds : target.Folds)
    (untouched : ∀ id node, input.node? id = some node → node.state = .unvisited)
    (visits : target.Visits waiting before after)
    (tended : Tended input (rankBy input.size position) waiting before.dag)
    (inside : ∀ other ∈ waiting, other < input.size)
    (falling : waiting.Pairwise fun first later =>
      rankBy input.size position later < rankBy input.size position first) :
    Tended input (rankBy input.size position) [] after.dag := by
  induction visits with
  | nil => exact tended
  | cons visit _ _ inductionHypothesis =>
      obtain ⟨later, falling⟩ := List.pairwise_cons.mp falling
      exact inductionHypothesis (tended.visit folds untouched inside later visit)
        (fun other member => inside other (List.mem_cons_of_mem _ member)) falling

end Tended

/-! ### Dependency orders -/

namespace Dag.IsDependencyOrder

variable {dag : Dag} {order : List NodeId}

theorem lt_size (isOrder : dag.IsDependencyOrder order) {id : NodeId} (member : id ∈ order) :
    id < dag.size := by
  simpa [Dag.ids] using isOrder.lists.mem_iff.mp member

theorem mem (isOrder : dag.IsDependencyOrder order) {id : NodeId} (inside : id < dag.size) :
    id ∈ order := by
  rw [isOrder.lists.mem_iff]
  simpa [Dag.ids] using inside

/-- Walking the order from its end, the ranks fall. -/
theorem falling (isOrder : dag.IsDependencyOrder order) :
    order.reverse.Pairwise fun first later =>
      rankBy dag.size order.idxOf later < rankBy dag.size order.idxOf first := by
  have distinct : order.Nodup := isOrder.lists.nodup_iff.mpr List.nodup_range
  rw [List.pairwise_reverse, List.pairwise_iff_getElem]
  intro i j iInside jInside earlier
  apply rankBy_lt_of_lt (isOrder.lt_size (List.getElem_mem jInside))
    (isOrder.lt_size (List.getElem_mem iInside))
  rw [distinct.idxOf_getElem i iInside, distinct.idxOf_getElem j jInside]
  exact earlier

end Dag.IsDependencyOrder

theorem idxOf_range {count position : Nat} (inside : position < count) :
    (List.range count).idxOf position = position := by
  have bound : position < (List.range count).length := by simpa using inside
  have found := List.nodup_range.idxOf_getElem position bound
  rwa [List.getElem_range] at found

/-- The order of the lines is a dependency order. -/
theorem LabelledDag.Drafted.isDependencyOrder {graph : LabelledDag}
    {machine : String → Option MachineOp} (drafted : graph.Drafted machine) :
    graph.dag.IsDependencyOrder graph.order := by
  rw [drafted.order]
  refine ⟨.refl _, ?_⟩
  rintro user operand ⟨value, member, rfl⟩
  obtain ⟨node, found, _⟩ := Dag.mem_operandsOf.mp member
  rw [Dag.ids, idxOf_range (drafted.counted.operands user value member).lt_size,
    idxOf_range (Dag.lt_size_of_node? found)]
  exact drafted.earlier user value member

/-- In a graph without cycles, going from user to user ends at a node that needs none. -/
theorem Dag.Ranked.exists_start {dag : Dag} {rank : NodeId → Nat} {bound : Nat}
    (ranked : dag.Ranked rank) (bounded : ∀ id, rank id ≤ bound) {live start : NodeId → Prop}
    (held : ∀ id, live id → start id ∨ ∃ user, live user ∧ dag.Depends user id) {id : NodeId}
    (isLive : live id) : ∃ first, start first ∧ Relation.ReflTransGen dag.Depends first id := by
  -- The induction is on how far the rank is below the bound: it falls with every step upwards.
  induction gap : bound - rank id using Nat.strongRecOn generalizing id with
  | _ gap inductionHypothesis =>
      rcases held id isLive with isStart | ⟨user, userLive, edge⟩
      · exact ⟨id, isStart, .refl⟩
      · have higher := ranked user id edge
        have below := bounded user
        obtain ⟨first, isStart, path⟩ :=
          inductionHypothesis (bound - rank user) (by omega) userLive rfl
        exact ⟨first, isStart, path.tail edge⟩

/-- Before the first turn every node is waiting. -/
theorem Tended.start {dag : Dag} {order : List NodeId} (counted : dag.Counted)
    (isOrder : dag.IsDependencyOrder order) :
    Tended dag (rankBy dag.size order.idxOf) order.reverse dag where
  ranked := counted.ranked isOrder.sorted
  grown := Nat.le_refl _
  unchanged _ _ := rfl
  held id node found notWaiting _ := by
    have inside := Dag.lt_size_of_node? found
    rw [Dag.size_shape] at inside
    exact absurd (List.mem_reverse.mpr (isOrder.mem inside)) notWaiting

/-- When no node is waiting, what is not dead is reached from the root or from an instruction of the
input. -/
theorem Tended.reachable {input dag : Dag} {order : List NodeId}
    (tended : Tended input (rankBy input.size order.idxOf) [] dag) (settled : dag.Settled)
    {id : NodeId} {node : Node} (found : dag.node? id = some node) (notDead : node.state ≠ .dead) :
    ∃ start, (dag.isRoot start = true ∨ input.HasInstruction start) ∧
      Relation.ReflTransGen dag.Depends start id := by
  have bounded : ∀ id, rankBy input.size order.idxOf id ≤ order.length + 1 := by
    intro id
    unfold rankBy
    split
    · exact Nat.succ_le_succ List.idxOf_le_length
    · exact Nat.zero_le _
  have held : ∀ other, (∃ node, dag.node? other = some node ∧ node.state ≠ .dead) →
      (dag.isRoot other = true ∨ input.HasInstruction other) ∨
        ∃ user, (∃ node, dag.node? user = some node ∧ node.state ≠ .dead) ∧
          dag.Depends user other := by
    rintro other ⟨otherNode, otherFound, otherAlive⟩
    rcases tended.held other _ (Dag.shape_found otherFound) (by simp) otherAlive with
      isRoot | instruction | ⟨user, _, edge⟩
    · exact Or.inl (Or.inl isRoot)
    · exact Or.inl (Or.inr instruction)
    · exact Or.inr ⟨user, settled.exists_of_depends edge, edge⟩
  exact tended.ranked.exists_start bounded held ⟨node, found, notDead⟩

/-- No garbage survives. If selection in a dependency order succeeds, a node that is not dead is
reached along operands from the root or from an instruction of the input. So a generic node of the
input that neither an operand nor the root names in the end is dead. The order of the lines of a
text is a dependency order. -/
theorem reachable_of_selectFunction (processor : Z80.Processor) {text : String}
    {context context' : TypeContext} {graph : LabelledDag}
    (read : (readDag Z80.machineOp? text).run context = .ok graph context') :
    graph.dag.IsDependencyOrder graph.order ∧
    ∀ (name : String) (order : List NodeId) (session : Session) (log : List LogRecord)
      (after : Run),
      graph.dag.IsDependencyOrder order →
      (processor.target.selectFunction name order).run ⟨graph.dag, session, log⟩ = .ok () after →
      (∀ id node, after.dag.node? id = some node → node.state ≠ .dead →
        ∃ start, (after.dag.isRoot start = true ∨ graph.dag.HasInstruction start) ∧
          Relation.ReflTransGen after.dag.Depends start id) ∧
      (∀ id input op, graph.dag.node? id = some input → input.opcode = .generic op →
        ¬ after.dag.Pointed id → ∃ node, after.dag.node? id = some node ∧ node.state = .dead) := by
  obtain ⟨drafted, _⟩ := readDag_drafted read
  refine ⟨drafted.isDependencyOrder, ?_⟩
  intro name order session log after isOrder selects
  obtain ⟨first, last, firstDag, _, counted, ⟨_, visits, _⟩, lastDag, _⟩ :=
    (processor.target.selectFunction_ends name order _ drafted.counted).of_ok selects
  have settled := visits.settled (firstDag ▸ drafted.counted) (firstDag ▸ drafted.unvisited)
  have start : Tended graph.dag (rankBy graph.dag.size order.idxOf) order.reverse first.dag :=
    firstDag ▸ Tended.start drafted.counted isOrder
  have tended := start.visits (Z80.target_folds processor) drafted.unvisited visits
    (fun id member => isOrder.lt_size (List.mem_reverse.mp member)) isOrder.falling
  rw [lastDag]
  refine ⟨fun id node => tended.reachable settled, ?_⟩
  intro id input op inputFound generic unused
  obtain ⟨node, found⟩ := Dag.exists_node?_of_lt
    (Nat.lt_of_lt_of_le (Dag.lt_size_of_node? inputFound) tended.grown)
  refine ⟨node, found, ?_⟩
  by_contra notDead
  obtain ⟨start, isStart, path⟩ := tended.reachable settled found notDead
  rcases path.cases_tail with rfl | ⟨user, _, edge⟩
  · rcases isStart with isRoot | ⟨inputNode, inputNodeFound, machine⟩
    · exact unused (Or.inr isRoot)
    · have same : inputNode = input := Option.some.inj (inputNodeFound.symm.trans inputFound)
      rw [same, generic] at machine
      cases machine
  · exact unused (Or.inl ⟨user, edge⟩)

/-- Selection in the order of the lines folds the address of the graph into both of its users. -/
theorem selects_incrementGraph :
    Ends (fun _ run => run.dag.useCount 3 = 0) (fun _ _ => False)
      ((Z80.Processor.plain.target.selectFunction "increment" incrementGraph.order).run
        { dag := incrementGraph.dag }) := by
  decide +kernel

/-- The address that both users have folded is dead in the end. -/
theorem dead_incrementGraph :
    ∃ after : Run,
      (Z80.Processor.plain.target.selectFunction "increment" incrementGraph.order).run
        { dag := incrementGraph.dag } = .ok () after ∧
      ¬ after.dag.Pointed 3 ∧ ∃ node, after.dag.node? 3 = some node ∧ node.state = .dead := by
  obtain ⟨_, after, selects, unused⟩ := selects_incrementGraph.exists_ok
  have notPointed : ¬ after.dag.Pointed 3 := by
    rw [← Dag.useCount_pos_iff, unused]
    exact Nat.lt_irrefl 0
  obtain ⟨isOrder, survives⟩ :=
    reachable_of_selectFunction Z80.Processor.plain readDag_incrementText
  obtain ⟨_, dead⟩ := survives "increment" _ {} [] after isOrder selects
  exact ⟨after, selects, notPointed, dead 3 _ .add rfl rfl notPointed⟩

end DagSelect
