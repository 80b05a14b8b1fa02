/-
Module: DagSelect.Proofs.Reached
Purpose: The graphs that a client can reach from the empty one: by edits that do not fault, and by
  selecting instructions for any processor, whether selection succeeds or declines. In every one of
  them the use counts are the numbers of edges, so no edit ever releases a use that was not counted.
Main exports: EditCall, EditCall.edit, Reached, Reached.counted, uses_eq_useCount_of_reached
-/
import DagSelect.Proofs.Visit
import DagSelect.Proofs.Z80.Table

namespace DagSelect

/-- An edit that a client can ask for. The other ways to add a node are `addNode` with some of its
arguments fixed. -/
inductive EditCall where
  | addNode (opcode : Opcode) (results : List ValueType) (operands : List Value) (payload : Payload)
  | addConstant (op : GenericOp) (number : Int) (type : ValueType)
  | setRoot (value : Value)
  | morph (id : NodeId) (op : MachineOp) (operands : List Value)
  | markSelected (id : NodeId)
  | markDead (id : NodeId)

namespace EditCall

/-- The edit of a call. -/
def edit : EditCall → Edit Unit
  | .addNode opcode results operands payload => do
    let _ ← Dag.addNode opcode results operands payload
  | .addConstant op number type => do
    let _ ← Dag.addConstant op number type
  | .setRoot value => Dag.setRoot value
  | .morph id op operands => Dag.morph id op operands
  | .markSelected id => Dag.markSelected id
  | .markDead id => Dag.markDead id

/-- Every call keeps exact counts exact, and faults in an orderly way if it faults. -/
theorem edit_ends {dag : Dag} (counted : dag.Counted) (call : EditCall) :
    Ends (fun _ dag' => dag'.Counted) (fun cause _ => cause.Orderly) (call.edit.run dag) := by
  cases call with
  | addNode opcode results operands payload =>
      exact Ends.bind ((Dag.addNode_ends counted).mono (fun _ _ added => added.1)
        (fun _ _ fault => fault.1)) fun _ _ counted' => counted'
  | addConstant op number type =>
      exact Ends.bind ((Dag.addConstant_ends counted).mono (fun _ _ added => added.1)
        (fun _ _ fault => fault.1)) fun _ _ counted' => counted'
  | setRoot value =>
      exact (Dag.setRoot_ends counted).mono (fun _ _ set => set.1) (fun _ _ fault => fault.1)
  | morph id op operands =>
      exact (Dag.morph_ends counted).mono (fun _ _ morphed => morphed.1) (fun _ _ fault => fault.1)
  | markSelected id =>
      exact (Dag.markSelected_ends counted).mono (fun _ _ marked => marked.1)
        (fun _ _ fault => fault.1)
  | markDead id =>
      exact (Dag.markDead_ends counted).mono (fun _ _ marked => marked.1) (fun _ _ fault => fault.1)

end EditCall

/-- The graphs that a client can reach. -/
inductive Reached : Dag → Prop
  | empty : Reached {}
  /-- By an edit that does not fault. -/
  | edited {before after : Dag} (reached : Reached before) (call : EditCall)
      (result : call.edit.run before = .ok () after) : Reached after
  /-- By selection that succeeds. -/
  | selected {Features : Type} {before after : Run} (reached : Reached before.dag)
      (target : Target Features) (name : String) (order : List NodeId)
      (result : (target.selectFunction name order).run before = .ok () after) : Reached after.dag
  /-- By selection that declines, with what it had done by then. -/
  | declined {Features : Type} {before after : Run} {error : SelectError}
      (reached : Reached before.dag) (target : Target Features) (name : String)
      (order : List NodeId)
      (result : (target.selectFunction name order).run before = .error (.declined error) after) :
      Reached after.dag

/-- One edit after another. -/
theorem Reached.edits {before after : Dag} (reached : Reached before) {calls : List EditCall}
    (result : (calls.forM EditCall.edit).run before = .ok () after) : Reached after := by
  induction calls generalizing before with
  | nil =>
      cases result
      exact reached
  | cons call rest inductionHypothesis =>
      obtain ⟨_, middle, first, later⟩ := run_bind_eq_ok.mp result
      exact inductionHypothesis (reached.edited call first) later

theorem Reached.counted {dag : Dag} (reached : Reached dag) : dag.Counted := by
  induction reached with
  | empty => exact Dag.counted_empty
  | edited _ call result inductionHypothesis =>
      exact (call.edit_ends inductionHypothesis).of_ok result
  | selected _ target name order result inductionHypothesis =>
      obtain ⟨_, last, _, _, counted, _, dag, _⟩ :=
        (target.selectFunction_ends name order _ inductionHypothesis).of_ok result
      exact dag ▸ counted
  | declined _ target name order result inductionHypothesis =>
      rcases (target.selectFunction_ends name order _ inductionHypothesis).of_error result with
        ⟨_, last, _, _, _, counted, _, _, dag, _⟩ | ⟨cause, failure, _⟩
      · exact dag ▸ counted
      · cases failure

/-- Use counts are exact. In a graph that a client can reach, every operand and the root name a
result that is there, and every node counts the operands that point at it and the root. So whatever
comes next, an edit or selection, does not release a use that was never counted. -/
theorem uses_eq_useCount_of_reached {dag : Dag} (reached : Reached dag) :
    (∀ user, ∀ value ∈ dag.operandsOf user, dag.Resolves value) ∧
    (∀ value, dag.root = some value → dag.Resolves value) ∧
    (∀ id node, dag.node? id = some node → node.uses = dag.useCount id) ∧
    (∀ (call : EditCall) (cause : Fault) (after : Dag),
      call.edit.run dag = .error cause after → ∀ id, cause ≠ .useUnderflow id) ∧
    (∀ {Features : Type} (target : Target Features) (name : String) (order : List NodeId)
      (session : Session) (log : List LogRecord) (cause : Fault) (after : Run),
      (target.selectFunction name order).run ⟨dag, session, log⟩ = .error (.fault cause) after →
        ∀ id, cause ≠ .useUnderflow id) := by
  have counted := reached.counted
  refine ⟨counted.operands, counted.root, counted.uses, ?_, ?_⟩
  · intro call cause after result
    exact (call.edit_ends counted).of_error result
  · intro Features target name order session log cause after result
    have ends := target.selectFunction_ends name order ⟨dag, session, log⟩ counted
    rcases ends.of_error result with ⟨_, _, _, _, _, _, _, failure, _⟩ | ⟨_, failure, orderly⟩
    · cases failure
    · cases failure
      exact orderly

/-- The graph of `x + x` for a constant `x`, which is the root through a return. -/
def doubledConstant : Dag where
  nodes := [
    ⟨.generic .entryToken, [.chain], [], .none, .unvisited, 1⟩,
    ⟨.generic .constant, [.simple .i8], [], .constant 5, .unvisited, 2⟩,
    ⟨.generic .add, [.simple .i8], [⟨1, 0⟩, ⟨1, 0⟩], .none, .unvisited, 1⟩,
    ⟨.generic .ret, [.chain], [⟨0, 0⟩, ⟨2, 0⟩], .none, .unvisited, 1⟩]
  root := some ⟨3, 0⟩

/-- The edits that build the graph. -/
def doubledConstantCalls : List EditCall :=
  [.addNode (.generic .entryToken) [.chain] [] .none,
   .addConstant .constant 261 (.simple .i8),
   .addNode (.generic .add) [.simple .i8] [⟨1, 0⟩, ⟨1, 0⟩] .none,
   .addNode (.generic .ret) [.chain] [⟨0, 0⟩, ⟨2, 0⟩] .none,
   .setRoot ⟨2, 0⟩,
   .setRoot ⟨3, 0⟩]

theorem reached_doubledConstant : Reached doubledConstant :=
  @Reached.edits _ _ .empty doubledConstantCalls rfl

/-- One of the two uses of the constant is folded into the instruction. -/
theorem selects_doubledConstant :
    Ends (fun _ run => (run.dag.node? 1).map Node.uses = some 1) (fun _ _ => False)
      ((Z80.Processor.plain.target.selectFunction "doubled" [0, 1, 2, 3]).run
        { dag := doubledConstant }) := by
  decide +kernel

/-- After selection the constant counts one use, and one operand points at it. -/
theorem uses_doubledConstant :
    ∃ after : Run, Reached after.dag ∧ (after.dag.node? 1).map Node.uses = some 1 ∧
      after.dag.useCount 1 = 1 := by
  obtain ⟨_, after, result, uses⟩ := selects_doubledConstant.exists_ok
  have reached : Reached after.dag := reached_doubledConstant.selected _ _ _ result
  obtain ⟨node, found, count⟩ := Option.map_eq_some_iff.mp uses
  have exact_uses := (uses_eq_useCount_of_reached reached).2.2.1 1 node found
  exact ⟨after, reached, uses, exact_uses.symm.trans count⟩

end DagSelect
