/-
Module: DagSelect.Proofs.RefusedEdits
Purpose: What a refused edit leaves behind. Every edit but one checks all that it is given before it
  changes anything, so a refusal leaves the graph as it was. Turning a node into an instruction counts
  the use of each operand as soon as that operand is checked, and a refusal leaves the uses counted
  that came before it. They belong to no edge, so the counts are exact no longer.
Main exports: Dag.Owed.node?_eq, Dag.Owed.counted_iff, Dag.Owed.eq_iff, EditCall.leaked,
  EditCall.refusal_ends, refused_edit_leaks_exactly
-/
import DagSelect.Proofs.Reached

namespace DagSelect

/-! ### Counts that owe something -/

namespace Dag

variable {dag after : Dag} {owed : List Value}

/-- Counts that were exact are off by what is owed. -/
theorem Owed.node?_eq (owes : after.Owed owed) (counted : dag.Counted)
    (same : after.shape = dag.shape) {id : NodeId} {node : Node} (found : dag.node? id = some node) :
    after.node? id = some { node with uses := node.uses + slots id owed } := by
  have shapeFound : after.shape.node? id = some node.shape := same ▸ shape_found found
  obtain ⟨uses, afterFound⟩ := exists_uses_of_shape shapeFound
  have exactly : uses = after.useCount id + slots id owed := owes.uses id _ afterFound
  rw [useCount_of_shape_eq same, ← counted.uses id node found] at exactly
  rw [afterFound, exactly]
  rfl

/-- The counts are exact only if nothing is owed: what is owed resolves, so some node counts it. -/
theorem Owed.counted_iff (owes : dag.Owed owed) : dag.Counted ↔ owed = [] := by
  constructor
  · intro counted
    cases owed with
    | nil => rfl
    | cons value rest =>
        obtain ⟨node, found, _⟩ := owes.pending value List.mem_cons_self
        have withDebt := owes.uses value.node node found
        rw [counted.uses value.node node found, slots_cons, if_pos rfl] at withDebt
        omega
  · intro nothing
    subst nothing
    exact owed_nil.mp owes

theorem Owed.eq_iff (owes : after.Owed owed) (counted : dag.Counted)
    (same : after.shape = dag.shape) : after = dag ↔ owed = [] := by
  constructor
  · intro unchanged
    subst unchanged
    exact owes.counted_iff.mp counted
  · intro nothing
    subst nothing
    apply ext_node?
    · intro id
      cases found : dag.node? id with
      | none =>
          have absent : after.shape.node? id = none := by rw [same, node?_shape, found]; rfl
          rwa [node?_shape, Option.map_eq_none_iff] at absent
      | some node => exact owes.node?_eq counted same found
    · rw [← root_shape, same, root_shape]

end Dag

/-! ### What a refusal leaves behind -/

namespace EditCall

variable {dag : Dag}

/-- The uses that are counted by the time a call is refused. -/
def leaked (dag : Dag) : EditCall → List Value
  | .morph _ _ operands => dag.leading operands
  | _ => []

/-- Only a change into an instruction leaks, and only if its first operand is one. -/
theorem leaked_eq_nil_iff {call : EditCall} :
    call.leaked dag = [] ↔
      ∀ id op first rest, call = .morph id op (first :: rest) → ¬ dag.Resolves first := by
  constructor
  · rintro nothing id op first rest rfl resolves
    rw [leaked, Dag.leading_cons, if_pos resolves] at nothing
    cases nothing
  · intro unresolved
    cases call with
    | morph id op operands =>
        cases operands with
        | nil => rfl
        | cons first rest =>
            rw [leaked, Dag.leading_cons, if_neg (unresolved id op first rest rfl)]
    | addNode | addConstant | setRoot | markSelected | markDead => rfl

/-- A call that is refused keeps the graph, use counts apart, and owes what it had counted. -/
theorem refusal_ends (counted : dag.Counted) (call : EditCall) :
    Ends (fun _ _ => True)
      (fun _ after => after.Owed (call.leaked dag) ∧ after.shape = dag.shape)
      (call.edit.run dag) := by
  have unchanged : ∀ after : Dag, after = dag → after.Owed [] ∧ after.shape = dag.shape := by
    intro after same
    subst same
    exact ⟨Dag.owed_nil.mpr counted, rfl⟩
  cases call with
  | addNode opcode results operands payload =>
      apply Ends.bind ((Dag.addNode_ends counted).mono (fun _ _ _ => trivial) _)
      · exact fun _ _ _ => trivial
      · exact fun _ after refused => unchanged after refused.2.1
  | addConstant op number type =>
      apply Ends.bind ((Dag.addConstant_ends counted).mono (fun _ _ _ => trivial) _)
      · exact fun _ _ _ => trivial
      · exact fun _ after refused => unchanged after refused.2.1
  | setRoot value =>
      apply (Dag.setRoot_ends counted).mono (fun _ _ _ => trivial)
      exact fun _ after refused => unchanged after refused.2.1
  | morph id op operands =>
      apply (Dag.morph_ends counted).mono (fun _ _ _ => trivial)
      exact fun _ after refused => refused.2.2
  | markSelected id =>
      apply (Dag.markSelected_ends counted).mono (fun _ _ _ => trivial)
      exact fun _ after refused => unchanged after refused.2.1
  | markDead id =>
      apply (Dag.markDead_ends counted).mono (fun _ _ _ => trivial)
      exact fun _ after refused => unchanged after refused.2.1

end EditCall

/-- What a refused edit leaves behind. Use counts apart, the graph is as it was, and each node counts
one use more for every leaked value that names it. The graph is unchanged exactly if its counts are
still exact, and that is so for every call but one that turns a node into an instruction and whose
first operand resolves. -/
theorem refused_edit_leaks_exactly {dag after : Dag} {call : EditCall} {cause : Fault}
    (counted : dag.Counted) (refused : call.edit.run dag = .error cause after) :
    after.shape = dag.shape ∧
    (∀ id node, dag.node? id = some node →
      after.node? id =
        some { node with uses := node.uses + Dag.slots id (call.leaked dag) }) ∧
    (after.Counted ↔ after = dag) ∧
    (after = dag ↔
      ∀ id op first rest, call = .morph id op (first :: rest) → ¬ dag.Resolves first) := by
  obtain ⟨owes, same⟩ := (call.refusal_ends counted).of_error refused
  have unchanged := owes.eq_iff counted same
  refine ⟨same, ?_, owes.counted_iff.trans unchanged.symm, unchanged.trans call.leaked_eq_nil_iff⟩
  exact fun id node found => owes.node?_eq counted same found

/-- A graph with a constant that nothing uses. -/
def idleConstant : Dag where
  nodes := [
    ⟨.generic .entryToken, [.chain], [], .none, .unvisited, 1⟩,
    ⟨.generic .constant, [.simple .i8], [], .constant 5, .unvisited, 0⟩]
  root := some ⟨0, 0⟩

theorem counted_idleConstant : idleConstant.Counted := by
  have built : Reached idleConstant :=
    @Reached.edits _ _ .empty
      [.addNode (.generic .entryToken) [.chain] [] .none,
       .addConstant .constant 5 (.simple .i8),
       .setRoot ⟨0, 0⟩] rfl
  exact built.counted

/-- Both uses before the operand that names no node stay counted. -/
theorem leaks_idleConstant :
    ∃ cause after,
      (EditCall.morph 0 default [⟨1, 0⟩, ⟨1, 0⟩, ⟨2, 0⟩, ⟨0, 0⟩]).edit.run idleConstant =
        .error cause after ∧
      (after.node? 1).map Node.uses = some 2 ∧ (after.node? 0).map Node.uses = some 1 := by
  have refused : Ends (fun _ _ => False) (fun _ _ => True)
      ((EditCall.morph 0 default [⟨1, 0⟩, ⟨1, 0⟩, ⟨2, 0⟩, ⟨0, 0⟩]).edit.run idleConstant) :=
    trivial
  obtain ⟨cause, after, run, _⟩ := refused.exists_error
  have leaks := (refused_edit_leaks_exactly counted_idleConstant run).2.1
  exact ⟨cause, after, run, by rw [leaks 1 _ rfl]; rfl, by rw [leaks 0 _ rfl]; rfl⟩

/-- The constant can be declared dead. After a refused change of the other node it cannot, though
still nothing points at it. -/
theorem stuck_idleConstant :
    idleConstant.Counted ∧
    Ends (fun _ _ => True) (fun _ _ => False) ((EditCall.markDead 1).edit.run idleConstant) ∧
    Ends (fun _ _ => False)
      (fun _ after => after ≠ idleConstant ∧ after.useCount 1 = 0 ∧
        Ends (fun _ _ => False) (fun cause _ => cause = .stillInUse 1)
          ((EditCall.markDead 1).edit.run after))
      ((EditCall.morph 0 default [⟨1, 0⟩, ⟨2, 0⟩]).edit.run idleConstant) := by
  exact ⟨counted_idleConstant, by decide⟩

end DagSelect
