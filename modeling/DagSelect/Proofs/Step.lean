/-
Module: DagSelect.Proofs.Step
Purpose: What selection does to a node of any graph, whether or not the use counts of the graph are
  right. An edit that comes to an end has done what it says to the nodes, whatever it counted, so
  the turn of a node is described by the change of that node, the leaves that are added and the
  change of the session. A node that is an instruction in the end was one in the beginning, or there
  was a turn at which a pattern covered it.
Main exports: Target.Becomes, Target.Step, Target.Steps, Target.selectNode_steps,
  Target.selectFunction_steps, Target.Rewrites, Target.Steps.exists_rewrites
-/
import DagSelect.Proofs.Visit

namespace DagSelect

/-! ### Edits that come to an end -/

namespace Dag

variable {dag dag' : Dag} {id : NodeId} {value : Value} {values : List Value}

theorem updateNode_eq_ok {change : Node → Node}
    (edited : (updateNode id change).run dag = .ok () dag') :
    id < dag.size ∧ dag' = dag.update id change := by
  by_cases inside : id < dag.size
  · rw [run_updateNode inside] at edited
    cases edited
    exact ⟨inside, rfl⟩
  · rw [run_updateNode_of_le (Nat.le_of_not_lt inside)] at edited
    cases edited

theorem shape_of_addUse (edited : (addUse value).run dag = .ok () dag') :
    dag'.shape = dag.shape := by
  obtain ⟨_, rfl⟩ := updateNode_eq_ok edited
  exact shape_update_uses dag fun _ => rfl

theorem shape_of_dropUse (edited : (dropUse value).run dag = .ok () dag') :
    dag'.shape = dag.shape := by
  simp only [dropUse, run_bind_eq_ok, EStateM.run_get] at edited
  obtain ⟨_, _, got, node, _, fetched, edited⟩ := edited
  cases got
  cases (Ends.liftM.of_ok fetched).2
  obtain ⟨_, updated⟩ := run_refuse_eq_ok.mp edited
  obtain ⟨_, rfl⟩ := updateNode_eq_ok updated
  exact shape_update_uses dag fun _ => rfl

theorem checkOperand_eq_ok (checked : (checkOperand value).run dag = .ok () dag') : dag' = dag :=
  (checkOperand_ends.of_ok checked).1

/-- Steps that change nothing but counts, one after another. -/
theorem shape_of_forM {step : Value → Edit Unit}
    (keeps : ∀ value dag dag', (step value).run dag = .ok () dag' → dag'.shape = dag.shape)
    (edited : (values.forM step).run dag = .ok () dag') : dag'.shape = dag.shape := by
  induction values generalizing dag with
  | nil =>
      cases edited
      rfl
  | cons value rest inductionHypothesis =>
      obtain ⟨_, middle, first, later⟩ := run_bind_eq_ok.mp edited
      exact (inductionHypothesis later).trans (keeps value dag middle first)

theorem replaceOperands_eq_ok {operands old : List Value}
    (edited : (replaceOperands id operands).run dag = .ok old dag') :
    dag' = dag.update id fun node => { node with operands := operands } := by
  simp only [replaceOperands, run_bind_eq_ok, EStateM.run_get] at edited
  obtain ⟨_, _, got, node, _, fetched, _, _, updated, result⟩ := edited
  cases got
  cases (Ends.liftM.of_ok fetched).2
  cases result
  exact (updateNode_eq_ok updated).2

theorem shape_of_markSelected (edited : (markSelected id).run dag = .ok () dag') :
    dag'.shape = dag.shape.update id Node.finished := by
  obtain ⟨_, rfl⟩ := updateNode_eq_ok edited
  exact shape_update dag Node.finished fun _ => rfl

theorem shape_of_markDead (edited : (markDead id).run dag = .ok () dag') :
    dag'.shape = dag.shape.update id Node.discarded := by
  simp only [markDead, run_bind_eq_ok, EStateM.run_get] at edited
  obtain ⟨_, _, got, node, _, fetched, edited⟩ := edited
  cases got
  cases (Ends.liftM.of_ok fetched).2
  obtain ⟨_, edited⟩ := run_refuse_eq_ok.mp edited
  simp only [run_bind_eq_ok] at edited
  obtain ⟨_, replaced, replacing, _, released, releasing, marking⟩ := edited
  obtain ⟨_, rfl⟩ := updateNode_eq_ok marking
  have same := shape_of_forM (fun _ _ _ => shape_of_dropUse) releasing
  rw [shape_update released (fun node => { node with state := .dead }) (fun _ => rfl), same,
    replaceOperands_eq_ok replacing,
    shape_update dag (fun node => { node with operands := [] }) (fun _ => rfl), update_update]
  rfl

theorem shape_of_morph {op : MachineOp} {operands : List Value}
    (edited : (morph id op operands).run dag = .ok () dag') :
    dag'.shape = dag.shape.update id (Node.morphed op operands) := by
  simp only [morph, run_bind_eq_ok] at edited
  obtain ⟨_, counting, counts, _, replaced, replacing, _, released, releasing, marking⟩ := edited
  obtain ⟨_, rfl⟩ := updateNode_eq_ok marking
  have counted : counting.shape = dag.shape := by
    apply shape_of_forM _ counts
    intro value dag dag' checkedUse
    obtain ⟨_, _, checked, used⟩ := run_bind_eq_ok.mp checkedUse
    cases checkOperand_eq_ok checked
    exact shape_of_addUse used
  have same := shape_of_forM (fun _ _ _ => shape_of_dropUse) releasing
  rw [shape_update released
      (fun node => { node with opcode := .machine op, payload := .none, state := .selected })
      (fun _ => rfl), same, replaceOperands_eq_ok replacing,
    shape_update counting (fun node => { node with operands := operands }) (fun _ => rfl),
    counted, update_update]
  rfl

theorem shape_of_addLeaf {op : GenericOp} {type : ValueType} {payload : Payload} {new : NodeId}
    (edited : (addLeaf op type payload).run dag = .ok new dag') :
    new = dag.size ∧
      dag'.shape = dag.shape.extend [⟨.generic op, [type], [], payload, .unvisited, 0⟩] := by
  simp only [addLeaf, addNode, List.isEmpty_cons, Bool.false_eq_true, if_false,
    run_bind_eq_ok] at edited
  obtain ⟨_, _, checked, _, _, nothing, _, _, nothing', added⟩ := edited
  cases (Ends.liftM.of_ok checked).2
  cases nothing
  cases nothing'
  cases added
  exact ⟨rfl, shape_extend dag _⟩

/-- A leaf that is declared final at once. -/
theorem shape_of_asOperand {adding : Edit NodeId} {op : GenericOp} {type : ValueType}
    {payload : Payload}
    (adds : ∀ new middle, adding.run dag = .ok new middle → new = dag.size ∧
      middle.shape = dag.shape.extend [⟨.generic op, [type], [], payload, .unvisited, 0⟩])
    (edited : (asOperand adding).run dag = .ok value dag') :
    value = { node := dag.size } ∧ dag'.shape = dag.shape.extend [.leaf op type payload] := by
  simp only [asOperand, run_bind_eq_ok] at edited
  obtain ⟨new, middle, added, _, _, marked, result⟩ := edited
  cases result
  obtain ⟨rfl, shape⟩ := adds new middle added
  refine ⟨rfl, ?_⟩
  rw [shape_of_markSelected marked, shape, ← size_shape, update_extend_singleton]
  rfl

theorem shape_of_addConstant {op : GenericOp} {number : Int} {type : ValueType} {new : NodeId}
    (edited : (addConstant op number type).run dag = .ok new dag') :
    type.isScalarInteger = true ∧ new = dag.size ∧
      dag'.shape = dag.shape.extend
        [⟨.generic op, [type], [], .constant (signExtend number (type.bits?.getD 0)), .unvisited,
          0⟩] := by
  obtain ⟨integer, edited⟩ := run_refuse_eq_ok.mp edited
  simp only [run_bind_eq_ok] at edited
  obtain ⟨bits, _, asked, added⟩ := edited
  obtain ⟨sized, rfl⟩ := Ends.liftM.of_ok asked
  rw [sizeInBits_getD sized]
  exact ⟨by simpa using integer, shape_of_addLeaf added⟩

end Dag

namespace Capture

variable {dag dag' : Dag} {capture : Capture}

/-- Making one operand. -/
theorem shape_of_emit {value : Value} (edited : capture.emit.run dag = .ok value dag') :
    [value] = place dag.size [capture] ∧ dag'.shape = dag.shape.extend (leaves [capture]) ∧
      capture.Makes := by
  have ofConstant : ∀ {number : Int} {type : ValueType},
      (Dag.asOperand (Dag.addConstant .targetConstant number type)).run dag = .ok value dag' →
      value = { node := dag.size } ∧ dag'.shape = dag.shape.extend
        [.leaf .targetConstant type (.constant (signExtend number (type.bits?.getD 0)))] ∧
        type.isScalarInteger = true := by
    intro number type edited
    obtain ⟨placed, shape⟩ :=
      Dag.shape_of_asOperand (fun _ _ added => (Dag.shape_of_addConstant added).2) edited
    obtain ⟨_, _, added, _⟩ := run_bind_eq_ok.mp edited
    exact ⟨placed, shape, (Dag.shape_of_addConstant added).1⟩
  have ofLeaf : ∀ {op : GenericOp} {type : ValueType} {payload : Payload},
      (Dag.asOperand (Dag.addLeaf op type payload)).run dag = .ok value dag' →
      value = { node := dag.size } ∧ dag'.shape = dag.shape.extend [.leaf op type payload] :=
    fun edited => Dag.shape_of_asOperand (fun _ _ added => Dag.shape_of_addLeaf added) edited
  cases capture with
  | value source =>
      cases edited
      exact ⟨rfl, (Dag.extend_nil dag.shape).symm, by simp [Makes, constantType?]⟩
  | constant number type =>
      obtain ⟨rfl, shape, integer⟩ := ofConstant edited
      exact ⟨rfl, shape, by simpa [Makes, constantType?] using integer⟩
  | displacement part =>
      cases part with
      | immediate number type =>
          obtain ⟨rfl, shape, integer⟩ := ofConstant edited
          exact ⟨rfl, shape, by simpa [Makes, constantType?] using integer⟩
      | global symbol offset type =>
          obtain ⟨rfl, shape⟩ := ofLeaf edited
          exact ⟨rfl, shape, by simp [Makes, constantType?]⟩
      | external symbol type =>
          obtain ⟨rfl, shape⟩ := ofLeaf edited
          exact ⟨rfl, shape, by simp [Makes, constantType?]⟩
  | frame index type =>
      obtain ⟨rfl, shape⟩ := ofLeaf edited
      exact ⟨rfl, shape, by simp [Makes, constantType?]⟩

/-- Making all operands. -/
theorem shape_of_emits {captures : List Capture} {values : List Value}
    (edited : (captures.mapM emit).run dag = .ok values dag') :
    values = place dag.size captures ∧ dag'.shape = dag.shape.extend (leaves captures) ∧
      ∀ capture ∈ captures, capture.Makes := by
  induction captures generalizing dag values with
  | nil =>
      cases edited
      exact ⟨rfl, (Dag.extend_nil _).symm, by simp⟩
  | cons capture rest inductionHypothesis =>
      simp only [List.mapM_cons, run_bind_eq_ok] at edited
      obtain ⟨value, middle, first, others, _, later, result⟩ := edited
      cases result
      obtain ⟨placed, shape, makes⟩ := shape_of_emit first
      obtain ⟨rfl, shape', restMake⟩ := inductionHypothesis later
      have size : middle.size = dag.size + (leaves [capture]).length :=
        Dag.size_of_shape_extend shape
      refine ⟨?_, ?_, List.forall_mem_cons.mpr ⟨makes, restMake⟩⟩
      · rw [place_cons, ← placed, size]
        rfl
      · rw [shape', shape, Dag.extend_append, ← leaves_cons]

end Capture

/-! ### One turn -/

namespace Target

variable {Features : Type} {target : Target Features} {id : NodeId}

/-- What becomes of an unvisited node: how the node changes, which leaves are added, and how the
session changes. -/
inductive Becomes (target : Target Features) (dag : Dag) (id : NodeId) (node : Node) :
    (Node → Node) → List Node → (Session → Session) → Prop
  /-- An instruction is final. -/
  | accepted {op : MachineOp} (machine : node.opcode = .machine op) :
      Becomes target dag id node Node.finished [] Session.recordPreselected
  /-- A generic node dies if its count is zero and it is not the root. -/
  | discarded {op : GenericOp} (generic : node.opcode = .generic op) (uncounted : node.uses = 0)
      (notRoot : dag.isRoot id = false) :
      Becomes target dag id node Node.discarded [] Session.recordDead
  /-- A generic node that needs no selection is final. -/
  | passed {op : GenericOp} (generic : node.opcode = .generic op)
      (used : node.uses ≠ 0 ∨ dag.isRoot id = true) (needsNone : op.needsNoSelection = true) :
      Becomes target dag id node Node.finished [] Session.recordPassthrough
  /-- Any other node becomes the instruction of the pattern that covers it. -/
  | covered {op : GenericOp} {pattern : Pattern Features} {own rest : List Capture}
      (generic : node.opcode = .generic op) (used : node.uses ≠ 0 ∨ dag.isRoot id = true)
      (needs : op.needsNoSelection = false)
      (finds : (target.cover dag id op).Finds (pattern, own ++ rest))
      (covers : pattern.Covers dag target.addressTypes id node own rest)
      (makes : ∀ capture ∈ own ++ rest, capture.Makes) :
      Becomes target dag id node
        (Node.morphed pattern.emit (Capture.place dag.size (own ++ rest)))
        (Capture.leaves (own ++ rest)) (·.recordPattern pattern.name)

/-- The turn of a node in any graph. -/
inductive Step (target : Target Features) (id : NodeId) (before after : Run) : Prop where
  /-- A node that is final or dead stays so. -/
  | kept {node : Node} (found : before.dag.node? id = some node)
      (visited : node.state ≠ .unvisited) (dag : after.dag = before.dag)
      (session : after.session = before.session)
  /-- An unvisited node takes its final form. -/
  | turned {node : Node} {change : Node → Node} {leaves : List Node} {record : Session → Session}
      (found : before.dag.node? id = some node) (unvisited : node.state = .unvisited)
      (becomes : target.Becomes before.dag id node change leaves record)
      (shape : after.dag.shape = (before.dag.shape.extend leaves).update id change)
      (session : after.session = record before.session)

theorem Step.updated {before after : Run} {node : Node} {change : Node → Node}
    {record : Session → Session} (found : before.dag.node? id = some node)
    (unvisited : node.state = .unvisited)
    (becomes : target.Becomes before.dag id node change [] record)
    (shape : after.dag.shape = before.dag.shape.update id change)
    (session : after.session = record before.session) : target.Step id before after :=
  .turned found unvisited becomes (by rw [shape, Dag.extend_nil]) session

/-- What holds of a step that ends, or that declines and leaves graph and session alone. -/
def StepEnds (target : Target Features) (id : NodeId) (before : Run)
    (result : EStateM.Result Failure Run Unit) : Prop :=
  Ends (fun _ after => target.Step id before after)
    (fun failure after => ∀ error, failure = .declined error →
      after.dag = before.dag ∧ after.session = before.session) result

/-- An edit of the graph that is followed by a record of the session. -/
theorem StepEnds.edit {before run : Run} {action : Edit Unit} {change : Session → Session}
    (step : ∀ dag, action.run run.dag = .ok () dag →
      target.Step id before { run with dag, session := change run.session }) :
    target.StepEnds id before
      ((do Selecting.edit action; Selecting.record change : Selecting Unit).run run) := by
  unfold StepEnds
  rw [EStateM.run_bind, Selecting.run_edit]
  cases edited : action.run run.dag with
  | ok _ dag => exact step dag edited
  | error cause dag =>
      intro error impossible
      cases impossible

theorem coverNode_steps {run : Run} {node : Node} {op : GenericOp} (log : List LogRecord)
    (found : run.dag.node? id = some node) (unvisited : node.state = .unvisited)
    (generic : node.opcode = .generic op) (used : node.uses ≠ 0 ∨ run.dag.isRoot id = true)
    (needs : op.needsNoSelection = false) :
    target.StepEnds id run ((target.coverNode id node op).run { run with log }) := by
  unfold coverNode StepEnds
  simp only [EStateM.run_bind, EStateM.run_get, Selecting.run_report]
  cases result : (target.cover run.dag id op).result with
  | error cause =>
      rw [Selecting.run_ask_error]
      intro error impossible
      cases impossible
  | ok answer =>
      rw [Selecting.run_ask_ok]
      cases answer with
      | none => exact fun error declined => ⟨rfl, rfl⟩
      | some answer =>
          obtain ⟨pattern, captures⟩ := answer
          obtain ⟨_, _, _, matched⟩ := cover_finds result
          obtain ⟨node', own, rest, covers, rfl⟩ := Pattern.covers_of_finds matched
          cases Option.some.inj (covers.found.symm.trans found)
          simp only [EStateM.run_bind, Selecting.run_edit]
          cases emitted : ((own ++ rest).mapM Capture.emit).run run.dag with
          | error cause dag =>
              intro error impossible
              cases impossible
          | ok operands extended =>
              obtain ⟨rfl, extendedShape, makes⟩ := Capture.shape_of_emits emitted
              dsimp only
              cases morphed : (Dag.morph id pattern.emit
                  (Capture.place run.dag.size (own ++ rest))).run extended with
              | error cause dag =>
                  intro error impossible
                  cases impossible
              | ok _ final =>
                  have finalShape := Dag.shape_of_morph morphed
                  rw [extendedShape] at finalShape
                  have there : final.shape.node? id ≠ none := by
                    rw [finalShape, Dag.node?_update_self,
                      Dag.node?_extend _ (Dag.shape_found found)]
                    simp
                  obtain ⟨finalNode, finalFound⟩ : ∃ node, final.node? id = some node := by
                    rw [Dag.node?_shape] at there
                    cases finalFound : final.node? id with
                    | none => simp [finalFound] at there
                    | some finalNode => exact ⟨finalNode, rfl⟩
                  simp only [Selecting.run_record]
                  rw [Selecting.run_reportNode "=> " finalFound]
                  exact .turned found unvisited (.covered generic used needs result covers makes)
                    finalShape rfl

/-- The turn of a node ends in a step. If it is declined, graph and session are as they were. -/
theorem selectNode_steps (target : Target Features) (id : NodeId) (run : Run) :
    target.StepEnds id run ((target.selectNode id).run run) := by
  unfold selectNode
  simp only [EStateM.run_bind, EStateM.run_get]
  cases fetched : run.dag.fetch id with
  | error cause =>
      rw [Selecting.run_ask_error]
      intro error impossible
      cases impossible
  | ok node =>
      have found := Dag.fetch_eq_ok_iff.mp fetched
      rw [Selecting.run_ask_ok]
      by_cases visited : node.state ≠ .unvisited
      · simp only [if_pos visited]
        exact .kept found visited rfl rfl
      have unvisited : node.state = .unvisited := not_not.mp visited
      simp only [if_neg visited, EStateM.run_bind, Selecting.run_report]
      cases opcode : node.opcode with
      | machine op =>
          simp only [EStateM.run_bind, Selecting.run_report]
          apply StepEnds.edit
          intro dag edited
          exact .updated found unvisited (.accepted opcode) (Dag.shape_of_markSelected edited) rfl
      | generic op =>
          by_cases unused : node.uses = 0 ∧ ¬ run.dag.isRoot id
          · simp only [if_pos unused, EStateM.run_bind, Selecting.run_report]
            apply StepEnds.edit
            intro dag edited
            exact .updated found unvisited
              (.discarded opcode unused.1 (Bool.not_eq_true _ ▸ unused.2))
              (Dag.shape_of_markDead edited) rfl
          have used : node.uses ≠ 0 ∨ run.dag.isRoot id = true := by
            by_contra neither
            obtain ⟨zero, notRoot⟩ := not_or.mp neither
            exact unused ⟨not_not.mp zero, notRoot⟩
          simp only [if_neg unused]
          cases needs : op.needsNoSelection with
          | true =>
              simp only [if_true]
              apply StepEnds.edit
              intro dag edited
              exact .updated found unvisited (.passed opcode used needs)
                (Dag.shape_of_markSelected edited) rfl
          | false =>
              simp only [Bool.false_eq_true, if_false]
              exact coverNode_steps _ found unvisited opcode used needs

/-! ### Runs -/

/-- The turns of a list of nodes, one after another. -/
inductive Steps (target : Target Features) : List NodeId → Run → Run → Prop
  | nil {run : Run} : Steps target [] run run
  | cons {id : NodeId} {rest : List NodeId} {before middle after : Run}
      (step : target.Step id before middle) (steps : Steps target rest middle after) :
      Steps target (id :: rest) before after

theorem forM_selectNode_steps (target : Target Features) (ids : List NodeId) (run : Run) :
    Ends (fun _ after => target.Steps ids run after)
      (fun failure after => ∀ error, failure = .declined error →
        ∃ visited last, visited <+: ids ∧ target.Steps visited run last ∧
          after.dag = last.dag ∧ after.session = last.session)
      ((ids.forM target.selectNode).run run) := by
  induction ids generalizing run with
  | nil => exact .nil
  | cons id ids inductionHypothesis =>
      change Ends _ _ ((target.selectNode id >>= fun _ => ids.forM target.selectNode).run run)
      refine Ends.bind ((target.selectNode_steps id run).mono (fun _ _ step => step) ?_) ?_
      · intro failure after declines error declined
        exact ⟨[], run, List.nil_prefix, .nil, declines error declined⟩
      · intro _ middle step
        apply (inductionHypothesis middle).mono (fun _ _ steps => .cons step steps)
        intro failure after declines error declined
        obtain ⟨visited, last, isPrefix, steps, ended⟩ := declines error declined
        exact ⟨id :: visited, last, List.cons_prefix_cons.mpr ⟨rfl, isPrefix⟩, .cons step steps,
          ended⟩

theorem selectNodes_steps (target : Target Features) (name : String) (order : List NodeId)
    (run : Run) :
    Ends
      (fun _ after => ∃ first last, first.dag = run.dag ∧ first.session = run.session ∧
        target.Steps order.reverse first last ∧
        (∀ id node, last.dag.node? id = some node → node.state ≠ .unvisited) ∧
        after.dag = last.dag ∧ after.session = last.session)
      (fun failure after => ∀ error, failure = .declined error →
        ∃ visited first last, first.dag = run.dag ∧ first.session = run.session ∧
          visited <+: order.reverse ∧ target.Steps visited first last ∧
          after.dag = last.dag ∧ after.session = last.session)
      ((target.selectNodes name order).run run) := by
  unfold selectNodes
  simp only [EStateM.run_bind, EStateM.run_get, Selecting.run_report]
  generalize run.log ++ [beginRecord name run.dag] = log
  cases outside : order.find? fun id => !run.dag.contains id with
  | some id => exact fun _ _ => ⟨[], run, run, rfl, rfl, List.nil_prefix, .nil, rfl, rfl⟩
  | none =>
      dsimp only
      refine Ends.bind ((target.forM_selectNode_steps order.reverse { run with log }).mono
        (fun _ _ steps => steps) ?_) ?_
      · intro failure after declines error declined
        obtain ⟨visited, last, isPrefix, steps, ended⟩ := declines error declined
        exact ⟨visited, { run with log }, last, rfl, rfl, isPrefix, steps, ended⟩
      · intro _ last steps
        simp only [EStateM.run_bind, EStateM.run_get]
        cases missed : firstUnvisited last.dag with
        | some id =>
            exact fun _ _ => ⟨_, { run with log }, last, rfl, rfl, List.prefix_rfl, steps, rfl, rfl⟩
        | none =>
            exact ⟨{ run with log }, last, rfl, rfl, steps,
              fun _ _ => state_ne_of_firstUnvisited missed, rfl, rfl⟩

/-- Selecting a function is a sequence of turns from the end of the order, all of them if it
succeeds. -/
theorem selectFunction_steps (target : Target Features) (name : String) (order : List NodeId)
    (run : Run) :
    Ends
      (fun _ after => ∃ first last, first.dag = run.dag ∧
        first.session = run.session.begin name ∧ target.Steps order.reverse first last ∧
        (∀ id node, last.dag.node? id = some node → node.state ≠ .unvisited) ∧
        after.dag = last.dag ∧ after.session = last.session.finish)
      (fun failure after => ∀ error, failure = .declined error →
        ∃ visited first last, first.dag = run.dag ∧ first.session = run.session.begin name ∧
          visited <+: order.reverse ∧ target.Steps visited first last ∧
          after.dag = last.dag ∧ after.session = last.session.abort)
      ((target.selectFunction name order).run run) := by
  change Ends _ _ (target.selectFunction name order run)
  unfold selectFunction
  have ends := target.selectNodes_steps name order { run with session := run.session.begin name }
  split
  · rename_i after result
    rw [result] at ends
    obtain ⟨first, last, sameDag, sameSession, steps, complete, dag, session⟩ := ends
    exact ⟨first, last, sameDag, sameSession, steps, complete, dag, by rw [session]⟩
  · rename_i after result
    rw [result] at ends
    intro error declined
    obtain ⟨visited, first, last, sameDag, sameSession, isPrefix, steps, dag, session⟩ :=
      ends _ rfl
    exact ⟨visited, first, last, sameDag, sameSession, isPrefix, steps, dag, by rw [session]⟩
  · intro error impossible
    cases impossible

/-- Whether selection succeeds or declines, nodes have had their turns one after another. -/
theorem exists_steps_of_selectFunction {name : String} {order : List NodeId} {run after : Run}
    (ended : (target.selectFunction name order).run run = .ok () after ∨
      ∃ error, (target.selectFunction name order).run run = .error (.declined error) after) :
    ∃ ids first last, first.dag = run.dag ∧ after.dag = last.dag ∧ target.Steps ids first last := by
  have ends := target.selectFunction_steps name order run
  rcases ended with selects | ⟨error, declines⟩
  · obtain ⟨first, last, firstDag, _, steps, _, lastDag, _⟩ := ends.of_ok selects
    exact ⟨_, first, last, firstDag, lastDag, steps⟩
  · obtain ⟨visited, first, last, firstDag, _, _, steps, lastDag, _⟩ :=
      ends.of_error declines error rfl
    exact ⟨visited, first, last, firstDag, lastDag, steps⟩

/-! ### What becomes of a node in a run -/

section

variable {dag : Dag} {node : Node} {change : Node → Node} {leaves : List Node}
  {record : Session → Session} {before middle after first last : Run} {ids : List NodeId}
  {other : NodeId} {found : Node}

/-- A node keeps its result types. -/
theorem Becomes.results (becomes : target.Becomes dag id node change leaves record)
    (other : Node) : (change other).results = other.results := by
  cases becomes <;> rfl

/-- A node has its final form after its turn. -/
theorem Becomes.visited (becomes : target.Becomes dag id node change leaves record)
    (other : Node) : (change other).state ≠ .unvisited := by
  cases becomes <;> simp [Node.finished, Node.discarded, Node.morphed]

/-- What is added is a finished leaf. -/
theorem Becomes.leaf (becomes : target.Becomes dag id node change leaves record) :
    ∀ leaf ∈ leaves, ∃ op type payload, op.isTargetLeaf = true ∧ leaf = .leaf op type payload := by
  cases becomes with
  | covered generic used needs finds covers makes =>
      exact fun _ => Capture.exists_leaf_of_mem_leaves
  | _ => simp

/-- The node whose turn it was has changed. -/
theorem node?_of_turned {before after : Dag} (found : before.node? id = some node)
    (shape : after.shape = (before.shape.extend leaves).update id change) :
    after.shape.node? id = some (change node.shape) := by
  rw [shape, Dag.node?_update_self, Dag.node?_extend _ (Dag.shape_found found)]
  rfl

/-- At another position there is what was there, or a new leaf. -/
theorem node?_other_of_turned {before after : Dag}
    (shape : after.shape = (before.shape.extend leaves).update id change) (different : other ≠ id) :
    after.shape.node? other = before.shape.node? other ∨
      before.shape.node? other = none ∧ ∃ leaf ∈ leaves, after.shape.node? other = some leaf := by
  rw [shape, Dag.node?_update_of_ne _ different]
  rcases Nat.lt_or_ge other before.shape.size with inside | behind
  · exact Or.inl (Dag.node?_extend_of_lt _ _ inside)
  · rw [Dag.node?_extend_of_le _ _ behind, Dag.node?, List.getElem?_eq_none behind]
    cases added : leaves[other - before.shape.size]? with
    | none => exact Or.inl rfl
    | some leaf => exact Or.inr ⟨rfl, leaf, List.mem_of_getElem? added, rfl⟩

/-- A node after a step is the one whose turn it was, one that stayed, or a new leaf. -/
theorem Step.node?_cases (step : target.Step id before after)
    (there : after.dag.shape.node? other = some found) :
    before.dag.shape.node? other = some found ∨
    (∃ node change leaves record, other = id ∧ before.dag.node? id = some node ∧
      node.state = .unvisited ∧ target.Becomes before.dag id node change leaves record ∧
      found = change node.shape) ∨
    (before.dag.size ≤ other ∧ ∃ op type payload, found = .leaf op type payload) := by
  cases step with
  | kept _ visited same session => exact Or.inl (same ▸ there)
  | turned foundHere unvisited becomes shape session =>
      rw [shape] at there
      rcases Dag.node?_update_cases there with ⟨rfl, old, oldFound, rfl⟩ | ⟨different, there⟩
      · rw [Dag.node?_extend _ (Dag.shape_found foundHere)] at oldFound
        cases oldFound
        exact Or.inr (Or.inl ⟨_, _, _, _, rfl, foundHere, unvisited, becomes, rfl⟩)
      · rcases Dag.node?_extend_cases there with stayed | ⟨behind, leaf⟩
        · exact Or.inl stayed
        · rw [Dag.size_shape] at behind
          obtain ⟨op, type, payload, _, isLeaf⟩ := becomes.leaf _ (List.mem_of_getElem? leaf)
          exact Or.inr (Or.inr ⟨behind, op, type, payload, isLeaf⟩)

/-- A step adds nodes and takes none away. -/
theorem Step.size_le (step : target.Step id before after) : before.dag.size ≤ after.dag.size := by
  cases step with
  | kept _ _ same _ => rw [same]
  | turned _ _ _ shape _ =>
      rw [← Dag.size_shape after.dag, shape, Dag.size_update, Dag.size_extend, Dag.size_shape]
      exact Nat.le_add_right _ _

/-- A node that is still unvisited was so before. -/
theorem Step.unvisited (step : target.Step id before after)
    (there : after.dag.shape.node? other = some found) (state : found.state = .unvisited) :
    before.dag.shape.node? other = some found := by
  rcases step.node?_cases there with stayed | ⟨_, _, _, _, _, _, _, becomes, rfl⟩ |
    ⟨_, _, _, _, rfl⟩
  · exact stayed
  · exact absurd state (becomes.visited _)
  · cases state

/-- Values keep their types. -/
theorem Step.valueType (step : target.Step id before after) {value : Value} {type : ValueType}
    (typed : before.dag.valueType value = .ok type) : after.dag.valueType value = .ok type := by
  obtain ⟨node, found, typed⟩ := Dag.valueType_eq_ok_iff.mp typed
  have there : ∃ changed, after.dag.shape.node? value.node = some changed ∧
      changed.results = node.results := by
    cases step with
    | kept _ visited same session => exact ⟨node.shape, same ▸ Dag.shape_found found, rfl⟩
    | @turned _ change leaves _ foundHere unvisited becomes shape session =>
        have stayed := Dag.node?_extend leaves (Dag.shape_found found)
        rw [shape, Dag.node?_update, stayed]
        split
        · exact ⟨_, rfl, becomes.results _⟩
        · exact ⟨_, rfl, rfl⟩
  obtain ⟨changed, changedFound, results⟩ := there
  obtain ⟨uses, changedFound⟩ := Dag.exists_uses_of_shape changedFound
  exact Dag.valueType_eq_ok_iff.mpr ⟨_, changedFound, by rw [← typed, ← results]⟩

/-- A node that is still unvisited at the end was so in the beginning. -/
theorem Steps.unvisited (steps : target.Steps ids first last)
    (there : last.dag.shape.node? other = some found) (state : found.state = .unvisited) :
    first.dag.shape.node? other = some found := by
  induction steps with
  | nil => exact there
  | cons step _ inductionHypothesis => exact step.unvisited (inductionHypothesis there) state

theorem Steps.size_le (steps : target.Steps ids first last) : first.dag.size ≤ last.dag.size := by
  induction steps with
  | nil => exact Nat.le_refl _
  | cons step _ inductionHypothesis => exact Nat.le_trans step.size_le inductionHypothesis

theorem Steps.valueType (steps : target.Steps ids first last) {value : Value} {type : ValueType}
    (typed : first.dag.valueType value = .ok type) : last.dag.valueType value = .ok type := by
  induction steps with
  | nil => exact typed
  | cons step _ inductionHypothesis => exact inductionHypothesis (step.valueType typed)

/-- A node that has had its turn stays as it is. -/
theorem Step.visited (step : target.Step id before after)
    (there : before.dag.shape.node? other = some found) (state : found.state ≠ .unvisited) :
    after.dag.shape.node? other = some found := by
  cases step with
  | kept _ visited same session => exact same ▸ there
  | turned foundHere unvisited becomes shape session =>
      have different : other ≠ id := by
        rintro rfl
        cases (Dag.shape_found foundHere).symm.trans there
        exact state unvisited
      rw [shape, Dag.node?_update_of_ne _ different, Dag.node?_extend _ there]

theorem Steps.visited (steps : target.Steps ids first last)
    (there : first.dag.shape.node? other = some found) (state : found.state ≠ .unvisited) :
    last.dag.shape.node? other = some found := by
  induction steps with
  | nil => exact there
  | cons step _ inductionHypothesis => exact inductionHypothesis (step.visited there state)

/-- A pattern turned a node into an instruction at a turn of a run. The node was as in the beginning
until then, and is the instruction from then on. -/
structure Rewrites (target : Target Features) (first last : Run) (id : NodeId) (node : Node)
    (pattern : Pattern Features) (before : Run) (own rest : List Capture) : Prop where
  earlier : ∃ visited, target.Steps visited first before
  later : ∃ turns, target.Steps turns before last
  unvisited : node.state = .unvisited
  finds : (target.cover before.dag id pattern.op).Finds (pattern, own ++ rest)
  covers : pattern.Covers before.dag target.addressTypes id node own rest
  final : last.dag.shape.node? id =
    some (node.shape.morphed pattern.emit (Capture.place before.dag.size (own ++ rest)))

/-- A node that is an instruction at the end was one in the beginning, or a pattern turned it into
that instruction. -/
theorem Steps.exists_rewrites {op : MachineOp} (steps : target.Steps ids first last)
    (there : last.dag.shape.node? id = some found) (machine : found.opcode = .machine op) :
    (∃ node, first.dag.shape.node? id = some node ∧ node.opcode = .machine op) ∨
    ∃ node pattern before own rest,
      target.Rewrites first last id node pattern before own rest ∧ pattern.emit = op := by
  induction steps with
  | nil => exact Or.inl ⟨found, there, machine⟩
  | @cons turn turns before middle after step steps inductionHypothesis =>
      rcases inductionHypothesis there with ⟨node, nodeFound, isMachine⟩ |
        ⟨node, pattern, atTurn, own, rest, rewrites, emits⟩
      · rcases step.node?_cases nodeFound with stayed |
          ⟨old, change, leaves, record, rfl, oldFound, unvisited, becomes, rfl⟩ | ⟨_, _, _, _, rfl⟩
        · exact Or.inl ⟨node, stayed, isMachine⟩
        · have final := steps.visited nodeFound (becomes.visited _)
          cases becomes with
          | accepted already => exact Or.inl ⟨old.shape, Dag.shape_found oldFound, isMachine⟩
          | discarded generic => cases generic.symm.trans isMachine
          | passed generic => cases generic.symm.trans isMachine
          | covered generic used needs finds covers makes =>
              cases covers.opcode.symm.trans generic
              exact Or.inr ⟨old, _, before, _, _, ⟨⟨[], .nil⟩, ⟨_, .cons step steps⟩, unvisited,
                finds, covers, final⟩, Opcode.machine.inj isMachine⟩
        · cases isMachine
      · obtain ⟨visited, earlier⟩ := rewrites.earlier
        exact Or.inr ⟨node, pattern, atTurn, own, rest,
          { rewrites with earlier := ⟨turn :: visited, .cons step earlier⟩ }, emits⟩

namespace Rewrites

variable {pattern : Pattern Features} {own rest : List Capture}

/-- The pattern is one of the table, and the processor has it. -/
theorem listed (rewrites : target.Rewrites first last id node pattern before own rest) :
    pattern ∈ target.table.patterns ∧ pattern.guard.holds target.features = true := by
  obtain ⟨listed, _, guarded, _⟩ := cover_finds rewrites.finds
  exact ⟨listed, guarded⟩

/-- The node was the same in the beginning, use count apart. -/
theorem start (rewrites : target.Rewrites first last id node pattern before own rest) :
    first.dag.shape.node? id = some node.shape := by
  obtain ⟨_, earlier⟩ := rewrites.earlier
  exact earlier.unvisited (Dag.shape_found rewrites.covers.found) rewrites.unvisited

end Rewrites

end

end Target

end DagSelect
