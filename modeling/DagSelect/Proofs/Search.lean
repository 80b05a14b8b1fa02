/-
Module: DagSelect.Proofs.Search
Purpose: The printed order as the work of a loop. The loop keeps its way down on a stack, where each
  node has the operands that are still to be looked at, and it marks a node when it puts it there. On
  every graph that names only nodes it has, whatever their states and with or without cycles, the
  loop comes to an end, and what it has listed by then is the printed order.
Main exports: Search, Search.step?, Search.Next, Search.Steps, Search.steps_of_searches, Search.ends,
  topologicalOrder_of_inRange
-/
import DagSelect.Proofs.Order

namespace DagSelect

/-- A state of the loop. -/
structure Search where
  /-- The nodes that are still to be tried as starts. -/
  starts : List NodeId
  /-- The nodes that the loop is under, the last one first, and the operands that it has not looked at
  yet. -/
  stack : List (NodeId × List NodeId) := []
  walk : Walk := {}

namespace Search

/-- Marks a node and puts it on the stack. -/
def enter (dag : Dag) (id : NodeId) (search : Search) : Search :=
  { search with
    stack := (id, (dag.operandsOf id).map Value.node) :: search.stack
    walk := { search.walk with seen := id :: search.walk.seen } }

/-- One round of the loop, and none when there is nothing left to do. -/
def step? (dag : Dag) : Search → Option Search
  | ⟨starts, (id, operand :: rest) :: stack, walk⟩ =>
    if operand ∉ walk.seen then some (enter dag operand ⟨starts, (id, rest) :: stack, walk⟩)
    else some ⟨starts, (id, rest) :: stack, walk⟩
  | ⟨starts, (id, []) :: stack, walk⟩ =>
    some ⟨starts, stack, { walk with order := walk.order ++ [id] }⟩
  | ⟨start :: starts, [], walk⟩ =>
    if start ∉ walk.seen ∧ (dag.node? start).any fun node => !node.isDead then
      some (enter dag start ⟨starts, [], walk⟩)
    else
      some ⟨starts, [], walk⟩
  | ⟨[], [], _⟩ => none

/-- One round of the loop leads from a state to another. -/
def Next (dag : Dag) (search next : Search) : Prop :=
  search.step? dag = some next

/-- Rounds of the loop, one after another. -/
abbrev Steps (dag : Dag) : Search → Search → Prop :=
  Relation.ReflTransGen (Next dag)

variable {dag : Dag} {ids starts : List NodeId} {stack : List (NodeId × List NodeId)}
  {parent : NodeId} {walk after : Walk}

/-- The loop looks at the operands of the node on top of the stack as the search does. -/
theorem steps_of_searches (searches : dag.Searches ids walk after) :
    Steps dag ⟨starts, (parent, ids) :: stack, walk⟩ ⟨starts, (parent, []) :: stack, after⟩ := by
  induction searches generalizing parent stack with
  | nil => exact .refl
  | skip seen _ inductionHypothesis =>
      apply Relation.ReflTransGen.head _ inductionHypothesis
      simp only [Next, step?, seen, not_true_eq_false, if_false]
  | @enter id rest walk below after isNew _ _ belowHypothesis laterHypothesis =>
      have entering : Next dag ⟨starts, (parent, id :: rest) :: stack, walk⟩
          (enter dag id ⟨starts, (parent, rest) :: stack, walk⟩) := by
        simp only [Next, step?, isNew, not_false_eq_true, if_true]
      have leaving : Next dag ⟨starts, (id, []) :: (parent, rest) :: stack, below⟩
          ⟨starts, (parent, rest) :: stack, { below with order := below.order ++ [id] }⟩ := rfl
      apply Relation.ReflTransGen.head entering
      exact belowHypothesis.trans (.head leaving laterHypothesis)

/-- The loop tries all starts, and passes over those that are dead. -/
theorem steps_of_starts
    (searches : dag.Searches
      (starts.filter fun id => (dag.node? id).any fun node => !node.isDead) walk after) :
    Steps dag ⟨starts, [], walk⟩ ⟨[], [], after⟩ := by
  induction starts generalizing walk with
  | nil =>
      cases searches
      exact .refl
  | cons start rest inductionHypothesis =>
      by_cases live : ((dag.node? start).any fun node => !node.isDead) = true
      · simp only [List.filter_cons, live, if_true] at searches
        cases searches with
        | skip seen later =>
            apply Relation.ReflTransGen.head _ (inductionHypothesis later)
            simp only [Next, step?, seen, not_true_eq_false, false_and, if_false]
        | @enter _ _ _ below _ isNew operands later =>
            have entering : Next dag ⟨start :: rest, [], walk⟩
                (enter dag start ⟨rest, [], walk⟩) := by
              simp only [Next, step?, isNew, live, not_false_eq_true, and_self, if_true]
            have leaving : Next dag ⟨rest, [(start, [])], below⟩
                ⟨rest, [], { below with order := below.order ++ [start] }⟩ := rfl
            apply Relation.ReflTransGen.head entering
            exact (steps_of_searches operands).trans (.head leaving (inductionHypothesis later))
      · simp only [List.filter_cons, live, Bool.false_eq_true, if_false] at searches
        apply Relation.ReflTransGen.head _ (inductionHypothesis searches)
        simp only [Next, step?, live, Bool.false_eq_true, and_false, if_false]

/-- The loop over all nodes comes to an end, with the printed order. -/
theorem ends (inside : ∀ id, dag.Needed id → id < dag.size) :
    ∃ last, Steps dag { starts := dag.ids } last ∧ last.step? dag = none ∧
      last.walk.order = dag.topologicalOrder := by
  obtain ⟨walk, searches, order⟩ := Dag.topologicalOrder_searches inside
  exact ⟨⟨[], [], walk⟩, steps_of_starts searches, rfl, order⟩

end Search

/-- If operands are nodes of the graph, so is all that is needed. -/
theorem Dag.Needed.lt_size {dag : Dag} {id : NodeId} (needed : dag.Needed id)
    (inside : ∀ user operand, dag.Depends user operand → operand < dag.size) : id < dag.size := by
  obtain ⟨start, live, path⟩ := needed
  cases path with
  | refl => exact live.lt_size
  | tail _ edge => exact inside _ id edge

/-- The printed order is right for every graph whose operands are nodes of it, whatever the states of
the nodes and even if there are cycles. The loop that finds it ends. It lists, once each, exactly the
nodes that are reached in any number of steps from one that is not dead. Without cycles every operand
comes before its users; and if nothing is dead and operands have lower positions than their users,
the order is that of the positions. -/
theorem topologicalOrder_of_inRange {dag : Dag}
    (inside : ∀ user operand, dag.Depends user operand → operand < dag.size) :
    (∃ last, Search.Steps dag { starts := dag.ids } last ∧ last.step? dag = none ∧
      last.walk.order = dag.topologicalOrder) ∧
    dag.topologicalOrder.Nodup ∧
    (∀ id, id ∈ dag.topologicalOrder ↔
      ∃ start, dag.Alive start ∧ Relation.ReflTransGen dag.Depends start id) ∧
    (dag.Acyclic → dag.ClosedList dag.topologicalOrder) ∧
    ((∀ id, id < dag.size → dag.Alive id) →
      (∀ user operand, dag.Depends user operand → operand < user) →
      dag.topologicalOrder = dag.ids) := by
  have needed : ∀ id, dag.Needed id → id < dag.size := fun _ needed => needed.lt_size inside
  obtain ⟨distinct, listed, closed⟩ := Dag.topologicalOrder_lists needed
  exact ⟨Search.ends needed, distinct, listed, closed,
    fun alive earlier => Dag.topologicalOrder_eq_ids earlier alive⟩

/-- A sum and a difference that use each other. The sum also uses a dead node, which has kept an
operand; another dead node is not used. -/
def knottedGraph : Dag where
  nodes := [
    ⟨.generic .add, [.simple .i8], [⟨1, 0⟩, ⟨2, 0⟩], .none, .unvisited, 2⟩,
    ⟨.generic .sub, [.simple .i8], [⟨0, 0⟩, ⟨0, 0⟩], .none, .selected, 1⟩,
    ⟨.generic .shl, [.simple .i8], [⟨3, 0⟩, ⟨3, 0⟩], .none, .dead, 1⟩,
    ⟨.generic .constant, [.simple .i8], [], .constant 1, .dead, 2⟩,
    ⟨.generic .constant, [.simple .i8], [], .constant 2, .dead, 0⟩]

theorem inRange_knottedGraph :
    ∀ user operand, knottedGraph.Depends user operand → operand < knottedGraph.size := by
  have inside : ∀ node ∈ knottedGraph.nodes, ∀ value ∈ node.operands,
      value.node < knottedGraph.size := by
    decide
  rintro user _ ⟨value, member, rfl⟩
  obtain ⟨node, found, listed⟩ := Dag.mem_operandsOf.mp member
  exact inside node (Dag.mem_nodes_iff.mpr ⟨user, found⟩) value listed

/-- The loop ends in spite of the cycle. Dead nodes are listed if something that is not dead reaches
them. -/
theorem topologicalOrder_knottedGraph :
    knottedGraph.topologicalOrder = [1, 3, 2, 0] ∧
    (∃ last, Search.Steps knottedGraph { starts := knottedGraph.ids } last ∧
      last.step? knottedGraph = none ∧ last.walk.order = [1, 3, 2, 0]) ∧
    (∃ start, knottedGraph.Alive start ∧
      Relation.ReflTransGen knottedGraph.Depends start 3) ∧
    ¬ ∃ start, knottedGraph.Alive start ∧
      Relation.ReflTransGen knottedGraph.Depends start 4 := by
  have order : knottedGraph.topologicalOrder = [1, 3, 2, 0] := by decide
  obtain ⟨ends, _, listed, _⟩ := topologicalOrder_of_inRange inRange_knottedGraph
  rw [order] at ends listed
  exact ⟨order, ends, (listed 3).mp (by decide), fun reached => by
    have member := (listed 4).mpr reached
    revert member
    decide⟩

end DagSelect
