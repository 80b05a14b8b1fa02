/-
Module: DagSelect.Proofs.Advance
Purpose: What a graph on its way through selection still has from the graph that selection began
  with. Nodes that have not had their turn are as they were, with no new users; result types never
  change; and a node that something points at and that still needs selection has not had its turn.
  So what a pattern sees of such a node can be looked up in the input. A run that never gets stuck at
  a node succeeds.
Main exports: Dag.Advances, Dag.Advances.turn, Dag.Advances.exists_input,
  Dag.Advances.valueType_eq, Target.Visits.advances, Target.exists_ok_of_turns
-/
import DagSelect.Proofs.Completeness
import DagSelect.Proofs.Finding

namespace DagSelect

/-- A graph on its way from an input. -/
structure Dag.Advances (input dag : Dag) : Prop where
  unvisited : ∀ id node, dag.shape.node? id = some node → node.state = .unvisited →
    input.shape.node? id = some node ∧ (dag.Pointed id → input.Pointed id)
  results : ∀ id node, input.shape.node? id = some node →
    ∃ now, dag.shape.node? id = some now ∧ now.results = node.results
  settled : dag.Settled
  full : dag.Full

namespace Turn

variable {before after : Dag} {id : NodeId} {node changed : Node} {leaves : List Node}

/-- A turn gives no result away, and new leaves have one. -/
theorem full (turn : Turn before after id node changed leaves) (full : before.Full) :
    after.Full := by
  intro other found there
  rcases turn.node?_cases (Dag.shape_found there) with ⟨_, same⟩ | ⟨_, stayed⟩ | ⟨_, leaf⟩
  · have results := congrArg Node.results same
    rw [Node.shape_results, turn.results] at results
    rw [results]
    exact full id node turn.found
  · obtain ⟨uses, stayed⟩ := Dag.exists_uses_of_shape stayed
    have results := full other _ stayed
    exact results
  · obtain ⟨_, type, _, _, same⟩ := turn.areLeaves _ leaf
    have results : found.results = [type] := congrArg Node.results same
    simp [results]

end Turn

namespace Dag.Advances

variable {input dag : Dag} {id : NodeId} {node : Node}

/-- Selection has not begun. -/
theorem refl (untouched : ∀ id node, dag.node? id = some node → node.state = .unvisited)
    (full : dag.Full) : dag.Advances dag where
  unvisited _ _ found _ := ⟨found, fun pointed => pointed⟩
  results _ node found := ⟨node, found, rfl⟩
  settled := Dag.settled_of_unvisited untouched
  full := full

/-- A turn brings a graph further on its way. -/
theorem turn {before after : Dag} {changed : Node} {leaves : List Node}
    (advances : input.Advances before) (turn : Turn before after id node changed leaves) :
    input.Advances after := by
  constructor
  · intro other found there state
    rcases turn.node?_cases there with ⟨_, rfl⟩ | ⟨different, stayed⟩ | ⟨_, leaf⟩
    · exact absurd state turn.visited
    · obtain ⟨inputFound, pointed⟩ := advances.unvisited other found stayed state
      refine ⟨inputFound, fun used => ?_⟩
      rcases turn.pointed_cases used with before | behind | ⟨same, _⟩
      · exact pointed before
      · have inside := Dag.lt_size_of_node? stayed
        rw [Dag.size_shape] at inside
        exact absurd inside (Nat.not_lt.mpr behind)
      · exact absurd same different
    · obtain ⟨_, _, _, _, rfl⟩ := turn.areLeaves found leaf
      cases state
  · intro other found inputFound
    obtain ⟨now, there, results⟩ := advances.results other found inputFound
    obtain ⟨later, laterFound, same⟩ := turn.exists_results there
    exact ⟨later, laterFound, same.trans results⟩
  · exact advances.settled.turn turn
  · exact turn.full advances.full

theorem lt_size (advances : input.Advances dag) (inside : id < input.size) : id < dag.size := by
  obtain ⟨node, found⟩ := exists_node?_of_lt inside
  obtain ⟨_, there, _⟩ := advances.results id _ (shape_found found)
  simpa using lt_size_of_node? there

/-- A node that needs selection and that something points at is the one of the input. -/
theorem exists_input {op : GenericOp} (advances : input.Advances dag)
    (found : dag.node? id = some node) (pointed : dag.Pointed id)
    (generic : node.opcode = .generic op) (needs : op.needsNoSelection = false) :
    node.state = .unvisited ∧ input.Pointed id ∧
      ∃ uses, input.node? id = some { node with uses := uses } := by
  have there := Dag.shape_found found
  have state : node.state = .unvisited := by
    cases state : node.state with
    | unvisited => rfl
    | dead => exact absurd pointed (advances.settled.dead id _ there state).2
    | selected =>
        have final := advances.settled.selected id _ there state
        rw [Node.shape_opcode, generic] at final
        exact absurd (needs.symm.trans final) Bool.false_ne_true
  obtain ⟨inputFound, inputPointed⟩ := advances.unvisited id _ there state
  obtain ⟨uses, inputFound⟩ := Dag.exists_uses_of_shape inputFound
  exact ⟨state, inputPointed pointed, uses, inputFound⟩

/-- Values of the input keep their types. -/
theorem valueType_eq {value : Value} {type : ValueType} (advances : input.Advances dag)
    (resolves : input.Resolves value) :
    dag.valueType value = .ok type ↔ input.valueType value = .ok type := by
  obtain ⟨node, found, _⟩ := resolves
  obtain ⟨now, there, results⟩ := advances.results value.node _ (Dag.shape_found found)
  obtain ⟨uses, there⟩ := Dag.exists_uses_of_shape there
  rw [Dag.valueType_eq_ok_iff, Dag.valueType_eq_ok_iff, found, there]
  simp only [Option.some.injEq, exists_eq_left', results, Node.shape_results]

end Dag.Advances

/-- Visits bring an untouched graph on its way. -/
theorem Target.Visits.advances {Features : Type} {target : Target Features} {ids : List NodeId}
    {first last : Run} (visits : target.Visits ids first last) (counted : first.dag.Counted)
    (untouched : ∀ id node, first.dag.node? id = some node → node.state = .unvisited)
    (full : first.dag.Full) : first.dag.Advances last.dag :=
  visits.of_turns first.dag.Advances (fun _ advances turn => advances.turn turn) counted
    (.refl untouched full)

/-- If the order lists every node, and every node can have its turn when it comes, selection
succeeds. -/
theorem Target.exists_ok_of_turns {Features : Type} {target : Target Features} {name : String}
    {order : List NodeId} {run : Run} (counted : run.dag.Counted)
    (lists : ∀ id, id ∈ order ↔ id < run.dag.size)
    (turns : ∀ visited id rest first last, first.dag = run.dag →
      order.reverse = visited ++ id :: rest → id < run.dag.size →
      target.Visits visited first last → last.dag.Counted →
      (∀ node op, ¬ target.Refuses id last.dag node op) ∧
        ∀ cause, ¬ target.Breaks id last.dag cause) :
    ∃ after, (target.selectFunction name order).run run = .ok () after := by
  have inside : ∀ {visited id rest}, order.reverse = visited ++ id :: rest →
      id < run.dag.size := by
    intro visited id rest split
    rw [← lists, ← List.mem_reverse, split]
    simp
  have ends := target.selectFunction_ends_exactly name order run counted
  cases result : (target.selectFunction name order).run run with
  | ok _ after => exact ⟨after, rfl⟩
  | error failure after =>
      rcases ends.of_error result with
        ⟨first, last, _, firstDag, _, lastCounted, declines, _⟩ |
        ⟨first, cause, firstDag, _, visited, id, rest, last, _, split, visits, lastCounted, breaks⟩
      · cases declines with
        | invalidOrder outside _ =>
            have inside := (lists _).mp (List.mem_of_find?_eq_some outside)
            rw [← firstDag] at inside
            have missing := List.find?_some outside
            simp [Dag.contains, inside] at missing
        | refused _ split visits refuses =>
            obtain ⟨covered, _⟩ := turns _ _ _ first last firstDag split (inside split) visits
              lastCounted
            exact absurd refuses (covered _ _)
        | unvisited _ visits missed =>
            obtain ⟨node, found, state⟩ := Target.exists_of_firstUnvisited missed
            obtain ⟨absent, there⟩ := visits.unvisited (Dag.shape_found found) state
            have inside := Dag.lt_size_of_node? there
            rw [Dag.size_shape, firstDag, ← lists] at inside
            exact absurd (List.mem_reverse.mpr inside) absent
      · obtain ⟨_, whole⟩ := turns visited id rest first last firstDag split (inside split) visits
          lastCounted
        exact absurd breaks (whole cause)

end DagSelect
