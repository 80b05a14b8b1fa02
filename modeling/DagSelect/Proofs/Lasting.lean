/-
Module: DagSelect.Proofs.Lasting
Purpose: What holds of a graph throughout selection, however selection ends. What a computation
  changed before it failed stays changed, so an invariant has to hold after a failure as well. An
  invariant that looks at the nodes one by one, and neither at their operands nor at their state and
  uses, lasts if it holds of every instruction and of every leaf that a match asks for, where it is
  put.
Main exports: Lasting, Lasting.bind, Lasting.forM, Ends.mapM_of_steps, Dag.Everywhere,
  Dag.Everywhere.Inherited, Placement, Target.Places, Target.PlacesGood, Target.ends_selectFunction
-/
import DagSelect.Proofs.Visit

namespace DagSelect

/-- A computation that keeps an invariant of the state, whether or not it fails. -/
def Lasting {ε σ α : Type} (holds : σ → Prop) (action : EStateM ε σ α) : Prop :=
  ∀ state, holds state → Ends (fun _ => holds) (fun _ => holds) (action.run state)

namespace Lasting

variable {ε σ α β : Type} {holds : σ → Prop}

theorem pure (a : α) : Lasting holds (Pure.pure a : EStateM ε σ α) :=
  fun _ held => held

theorem throw (cause : ε) : Lasting holds (MonadExcept.throw cause : EStateM ε σ α) :=
  fun _ held => held

theorem liftM (answer : Except ε α) : Lasting holds (liftM answer : EStateM ε σ α) := by
  cases answer with
  | ok a => exact pure a
  | error cause => exact throw cause

theorem bind {first : EStateM ε σ α} {next : α → EStateM ε σ β} (begins : Lasting holds first)
    (continues : ∀ a, Lasting holds (next a)) : Lasting holds (first >>= next) :=
  fun state held => Ends.bind (begins state held) fun a state' => continues a state'

/-- What follows may rely on the state that it was given. -/
theorem get_bind {next : σ → EStateM ε σ β}
    (continues : ∀ state, holds state → Lasting holds (next state)) :
    Lasting holds (get >>= next) :=
  fun state held => continues state held state held

theorem set {state : σ} (held : holds state) :
    Lasting holds (MonadStateOf.set state : EStateM ε σ PUnit) :=
  fun _ _ => held

theorem refuse {refused : Prop} [Decidable refused] {cause : ε} {next : PUnit → EStateM ε σ α}
    {rest : EStateM ε σ α} (lasting : Lasting holds rest) :
    Lasting holds (if refused then MonadExcept.throw cause >>= next else rest) :=
  fun state held => Ends.refuse (fun _ => held) fun _ => lasting state held

theorem forM {inputs : List α} {step : α → EStateM ε σ PUnit}
    (steps : ∀ a ∈ inputs, Lasting holds (step a)) : Lasting holds (inputs.forM step) := by
  induction inputs with
  | nil => exact pure _
  | cons head rest inductionHypothesis =>
      rw [List.forall_mem_cons] at steps
      exact bind steps.1 fun _ => inductionHypothesis steps.2

end Lasting

/-! ### Traversals -/

namespace Ends

variable {ε σ α β : Type} {holds : σ → Prop}

/-- A traversal keeps an invariant if each step keeps it in the state that the steps before it have
led to. -/
theorem forM_of_steps {step : α → EStateM ε σ PUnit} {inputs : List α} {start : σ}
    (held : holds start)
    (steps : ∀ position a middle, inputs[position]? = some a →
      ((inputs.take position).forM step).run start = .ok () middle → holds middle →
      Ends (fun _ => holds) (fun _ => holds) ((step a).run middle)) :
    Ends (fun _ => holds) (fun _ => holds) ((inputs.forM step).run start) := by
  induction inputs generalizing start with
  | nil => exact held
  | cons head rest inductionHypothesis =>
      refine Ends.bind (steps 0 head start rfl rfl held).with_run ?_
      rintro _ next ⟨headRun, nextHeld⟩
      refine inductionHypothesis nextHeld fun position a middle listed run => ?_
      exact steps (position + 1) a middle listed (run_bind_eq_ok.mpr ⟨_, next, headRun, run⟩)

/-- The same for a traversal that collects what the steps give. -/
theorem mapM_of_steps {step : α → EStateM ε σ β} {inputs : List α} {start : σ}
    (held : holds start)
    (steps : ∀ position a outputs middle, inputs[position]? = some a →
      ((inputs.take position).mapM step).run start = .ok outputs middle → holds middle →
      Ends (fun _ => holds) (fun _ => holds) ((step a).run middle)) :
    Ends (fun _ => holds) (fun _ => holds) ((inputs.mapM step).run start) := by
  induction inputs generalizing start with
  | nil => exact held
  | cons head rest inductionHypothesis =>
      rw [List.mapM_cons]
      refine Ends.bind (steps 0 head [] start rfl rfl held).with_run ?_
      rintro b next ⟨headRun, nextHeld⟩
      refine Ends.bind (inductionHypothesis nextHeld fun position a outputs middle listed run => ?_)
        fun _ _ last => last
      refine steps (position + 1) a (b :: outputs) middle listed ?_
      rw [List.take_succ_cons, List.mapM_cons]
      exact run_bind_eq_ok.mpr ⟨b, next, headRun, run_bind_eq_ok.mpr ⟨outputs, middle, run, rfl⟩⟩

end Ends

/-! ### Invariants of nodes -/

/-- Every node of a graph that has at least `start` nodes is good where it stands. -/
structure Dag.Everywhere (start : Nat) (good : NodeId → Node → Prop) (dag : Dag) : Prop where
  start_le : start ≤ dag.size
  nodes : ∀ id node, dag.node? id = some node → good id node

namespace Dag.Everywhere

/-- What is good does not depend on operands, state and uses, and instructions are good in place of
what is good. -/
structure Inherited (good : NodeId → Node → Prop) : Prop where
  same : ∀ {id : NodeId} {node other : Node}, good id node → other.opcode = node.opcode →
    other.results = node.results → other.payload = node.payload → good id other
  instruction : ∀ {id : NodeId} {node other : Node} {op : MachineOp}, good id node →
    other.opcode = .machine op → other.results = node.results → good id other

variable {start : Nat} {good : NodeId → Node → Prop} {id : NodeId} {value : Value}

theorem lasting_updateNode {change : Node → Node}
    (keeps : ∀ node, good id node → good id (change node)) :
    Lasting (Everywhere start good) (updateNode id change) := by
  intro dag held
  by_cases inside : id < dag.size
  · rw [run_updateNode inside]
    refine ⟨?_, ?_⟩
    · rw [size_update]
      exact held.start_le
    · intro other node found
      rcases node?_update_cases found with ⟨rfl, old, oldFound, rfl⟩ | ⟨_, stayed⟩
      · exact keeps old (held.nodes _ _ oldFound)
      · exact held.nodes _ _ stayed
  · rw [run_updateNode_of_le (Nat.le_of_not_lt inside)]
    exact held

theorem ends_append {dag : Dag} {node : Node} (held : dag.Everywhere start good)
    (isGood : good dag.size node) :
    Ends (fun _ => Everywhere start good) (fun _ => Everywhere start good)
      ((append node).run dag) := by
  have size : (dag.extend [node]).size = dag.size + 1 := size_extend dag [node]
  refine ⟨?_, ?_⟩
  · exact Nat.le_trans held.start_le (size ▸ Nat.le_succ _)
  · intro id other found
    rcases node?_extend_cases (show (dag.extend [node]).node? id = some other from found) with
      stayed | ⟨behind, new⟩
    · exact held.nodes _ _ stayed
    · rw [List.getElem?_singleton] at new
      split at new
      · rename_i first
        cases new
        rwa [Nat.le_antisymm (Nat.sub_eq_zero_iff_le.mp first) behind]
      · cases new

theorem lasting_append {node : Node} (isGood : ∀ id, start ≤ id → good id node) :
    Lasting (Everywhere start good) (append node) :=
  fun _ held => ends_append held (isGood _ held.start_le)

theorem ends_addLeaf {dag : Dag} {op : GenericOp} {type : ValueType} {payload : Payload}
    (held : dag.Everywhere start good)
    (isGood : good dag.size ⟨.generic op, [type], [], payload, .unvisited, 0⟩) :
    Ends (fun _ => Everywhere start good) (fun _ => Everywhere start good)
      ((addLeaf op type payload).run dag) := by
  unfold addLeaf addNode
  refine .refuse (fun _ => held) fun _ => ?_
  refine .bind (Ends.liftM.mono (fun _ _ asked => asked) fun _ _ failed => failed.2 ▸ held) ?_
  rintro _ _ ⟨_, rfl⟩
  exact ends_append held isGood

/-- The constant is good where it is put, if it is made at all. -/
theorem ends_addConstant {dag : Dag} {op : GenericOp} {number : Int} {type : ValueType}
    (held : dag.Everywhere start good)
    (isGood : type.isScalarInteger = true → ∀ bits, type.sizeInBits = .ok bits →
      good dag.size ⟨.generic op, [type], [], .constant (signExtend number bits), .unvisited, 0⟩) :
    Ends (fun _ => Everywhere start good) (fun _ => Everywhere start good)
      ((addConstant op number type).run dag) := by
  refine .refuse (fun _ => held) fun integer => ?_
  refine .bind (Ends.liftM.mono (fun _ _ asked => asked) fun _ _ failed => failed.2 ▸ held) ?_
  rintro bits _ ⟨sized, rfl⟩
  exact ends_addLeaf held (isGood (by simpa using integer) bits sized)

theorem lasting_checkOperand : Lasting (Everywhere start good) (checkOperand value) :=
  .get_bind fun _ _ => .liftM _

section Inherited

variable (inherited : Inherited good)

include inherited

theorem lasting_addUse : Lasting (Everywhere start good) (addUse value) :=
  lasting_updateNode fun _ isGood => inherited.same isGood rfl rfl rfl

theorem lasting_addNode {opcode : Opcode} {results : List ValueType} {operands : List Value}
    {payload : Payload}
    (isGood : ∀ id, start ≤ id → good id ⟨opcode, results, operands, payload, .unvisited, 0⟩) :
    Lasting (Everywhere start good) (addNode opcode results operands payload) := by
  apply Lasting.refuse
  apply Lasting.bind (.liftM _)
  intro _
  apply Lasting.bind (.forM fun _ _ => lasting_checkOperand)
  intro _
  apply Lasting.bind (.forM fun _ _ => lasting_addUse inherited)
  exact fun _ => lasting_append isGood

theorem lasting_dropUse : Lasting (Everywhere start good) (dropUse value) :=
  .get_bind fun _ _ => .bind (.liftM _) fun _ => .refuse
    (lasting_updateNode fun _ isGood => inherited.same isGood rfl rfl rfl)

theorem lasting_replaceOperands {operands : List Value} :
    Lasting (Everywhere start good) (replaceOperands id operands) :=
  .get_bind fun _ _ => .bind (.liftM _) fun _ =>
    .bind (lasting_updateNode fun _ isGood => inherited.same isGood rfl rfl rfl) fun _ => .pure _

theorem lasting_markSelected : Lasting (Everywhere start good) (markSelected id) :=
  lasting_updateNode fun _ isGood => inherited.same isGood rfl rfl rfl

theorem lasting_markDead : Lasting (Everywhere start good) (markDead id) :=
  .get_bind fun _ _ => .bind (.liftM _) fun _ => .refuse <|
    .bind (lasting_replaceOperands inherited) fun _ =>
      .bind (.forM fun _ _ => lasting_dropUse inherited) fun _ =>
        lasting_updateNode fun _ isGood => inherited.same isGood rfl rfl rfl

theorem lasting_morph {op : MachineOp} {operands : List Value} :
    Lasting (Everywhere start good) (morph id op operands) := by
  apply Lasting.bind
  · exact .forM fun _ _ => .bind lasting_checkOperand fun _ => lasting_addUse inherited
  · intro _
    apply Lasting.bind (lasting_replaceOperands inherited)
    intro old
    apply Lasting.bind (.forM fun _ _ => lasting_dropUse inherited)
    intro _
    exact lasting_updateNode fun _ isGood => inherited.instruction isGood rfl rfl

theorem lasting_setRoot : Lasting (Everywhere start good) (setRoot value) := by
  apply Lasting.bind lasting_checkOperand
  intro _
  apply Lasting.bind (lasting_addUse inherited)
  intro _
  apply Lasting.get_bind
  intro dag held
  apply Lasting.bind (.set ⟨held.start_le, held.nodes⟩)
  intro _
  split
  · exact lasting_dropUse inherited
  · exact .pure _

theorem ends_asOperand {dag : Dag} {leaf : Edit NodeId}
    (adds : Ends (fun _ => Everywhere start good) (fun _ => Everywhere start good) (leaf.run dag)) :
    Ends (fun _ => Everywhere start good) (fun _ => Everywhere start good)
      ((asOperand leaf).run dag) :=
  .bind adds fun _ => Lasting.bind (lasting_markSelected inherited) fun _ => .pure _

end Inherited

end Dag.Everywhere

/-! ### Selection -/

section Selection

variable {Features α β : Type} {holds : Dag → Prop}

namespace Selecting

theorem ends_edit {action : Edit α} {run : Run}
    (ends : Ends (fun _ => holds) (fun _ => holds) (action.run run.dag)) :
    Ends (fun _ last => holds last.dag) (fun _ last => holds last.dag) ((edit action).run run) := by
  rw [run_edit]
  cases edited : action.run run.dag with
  | ok a dag =>
      rw [edited] at ends
      exact ends
  | error cause dag =>
      rw [edited] at ends
      exact ends

theorem lasting_edit {action : Edit α} (lasting : Lasting holds action) :
    Lasting (fun run : Run => holds run.dag) (edit action) :=
  fun run held => ends_edit (lasting run.dag held)

/-- A question leaves the graph alone, and what follows may rely on the answer. -/
theorem ends_ask_bind {answer : Except Fault α} {next : α → Selecting β} {run : Run}
    (held : holds run.dag)
    (continues : ∀ a, answer = .ok a →
      Ends (fun _ last => holds last.dag) (fun _ last => holds last.dag) ((next a).run run)) :
    Ends (fun _ last => holds last.dag) (fun _ last => holds last.dag)
      ((ask answer >>= next).run run) := by
  cases answer with
  | ok a => exact continues a rfl
  | error cause => exact held

theorem lasting_ask_bind {answer : Except Fault α} {next : α → Selecting β}
    (continues : ∀ a, Lasting (fun run : Run => holds run.dag) (next a)) :
    Lasting (fun run : Run => holds run.dag) (ask answer >>= next) :=
  fun run held => ends_ask_bind held fun a _ => continues a run held

theorem lasting_report (records : List LogRecord) :
    Lasting (fun run : Run => holds run.dag) (report records) :=
  fun _ held => held

theorem ends_get_bind {next : Run → Selecting β} {run : Run} {returned : β → Run → Prop}
    {failed : Failure → Run → Prop} (continues : Ends returned failed ((next run).run run)) :
    Ends returned failed ((get >>= next).run run) :=
  continues

theorem ends_report_bind {records : List LogRecord} {next : Unit → Selecting β} {run : Run}
    {returned : β → Run → Prop} {failed : Failure → Run → Prop}
    (continues : Ends returned failed ((next ()).run { run with log := run.log ++ records })) :
    Ends returned failed ((report records >>= next).run run) :=
  continues

theorem lasting_record (change : Session → Session) :
    Lasting (fun run : Run => holds run.dag) (record change) :=
  fun _ held => held

end Selecting

/-- An operand of an instruction that is about to be placed. -/
structure Placement (Features : Type) where
  /-- The graph at the turn of the node. -/
  turn : Dag
  id : NodeId
  /-- The pattern that covers the node, and what it captures. -/
  pattern : Pattern Features
  captures : List Capture
  /-- The place of the operand among the captures. -/
  position : Nat
  capture : Capture
  /-- The graph with the operands before this one. -/
  dag : Dag

/-- The run when the first node has its turn. -/
def Run.begun (run : Run) (name : String) : Run :=
  { run with
    session := run.session.begin name
    log := run.log ++ [Target.beginRecord name run.dag] }

namespace Target

open Selecting

/-- Selection in an order comes to the turn of a node with a graph. -/
def ComesTo (target : Target Features) (order : List NodeId) (first : Run) (id : NodeId)
    (turn : Dag) : Prop :=
  ∃ position last, order.reverse[position]? = some id ∧
    ((order.reverse.take position).forM target.selectNode).run first = .ok () last ∧
    last.dag = turn

/-- Selection in an order comes to place an operand: it is the turn of a node that the pattern
covers, and the operands before this one have been placed. -/
structure Places (target : Target Features) (order : List NodeId) (first : Run)
    (placement : Placement Features) : Prop where
  comes : target.ComesTo order first placement.id placement.turn
  due : ∃ node, placement.turn.node? placement.id = some node ∧ node.state = .unvisited ∧
    node.opcode = .generic placement.pattern.op ∧
    (node.uses ≠ 0 ∨ placement.turn.isRoot placement.id = true) ∧
    placement.pattern.op.needsNoSelection = false
  finds : (target.cover placement.turn placement.id placement.pattern.op).Finds
    (placement.pattern, placement.captures)
  captured : placement.captures[placement.position]? = some placement.capture
  placed : ∃ operands, ((placement.captures.take placement.position).mapM Capture.emit).run
    placement.turn = .ok operands placement.dag

/-- All nodes stay good whenever an operand is placed. -/
def PlacesGood (target : Target Features) (order : List NodeId) (first : Run) (start : Nat)
    (good : NodeId → Node → Prop) : Prop :=
  ∀ placement, target.Places order first placement → placement.turn.Everywhere start good →
    placement.dag.Everywhere start good →
    Ends (fun _ => Dag.Everywhere start good) (fun _ => Dag.Everywhere start good)
      (placement.capture.emit.run placement.dag)

variable {target : Target Features} {start : Nat} {good : NodeId → Node → Prop}
  {order : List NodeId} {first : Run} (inherited : Dag.Everywhere.Inherited good)
  (emits : target.PlacesGood order first start good)

include inherited emits

theorem ends_coverNode {run : Run} {id : NodeId} {node : Node} {op : GenericOp}
    (comes : target.ComesTo order first id run.dag) (found : run.dag.node? id = some node)
    (unvisited : node.state = .unvisited) (opcode : node.opcode = .generic op)
    (used : node.uses ≠ 0 ∨ run.dag.isRoot id = true) (needs : op.needsNoSelection = false)
    (held : run.dag.Everywhere start good) :
    Ends (fun _ last => last.dag.Everywhere start good)
      (fun _ last => last.dag.Everywhere start good) ((target.coverNode id node op).run run) := by
  unfold coverNode
  refine ends_get_bind (ends_report_bind (ends_ask_bind held fun answer result => ?_))
  cases answer with
  | none => exact held
  | some answer =>
      obtain ⟨pattern, captures⟩ := answer
      have finds : (target.cover run.dag id op).Finds (pattern, captures) := result
      cases (cover_finds finds).2.1
      refine Ends.bind (ends_edit (Ends.mapM_of_steps held ?_)) fun operands middle placed => ?_
      · intro position capture outputs dag captured placed dagHeld
        exact emits ⟨run.dag, id, pattern, captures, position, capture, dag⟩ ⟨comes,
          ⟨node, found, unvisited, opcode, used, needs⟩, finds, captured, ⟨outputs, placed⟩⟩
          held dagHeld
      · refine Lasting.bind (lasting_edit (Dag.Everywhere.lasting_morph inherited)) ?_ _ placed
        intro _
        apply Lasting.bind (lasting_record _)
        intro _
        exact .get_bind fun _ _ => lasting_ask_bind fun _ => lasting_report _

theorem ends_selectNode {run : Run} {id : NodeId} (comes : target.ComesTo order first id run.dag)
    (held : run.dag.Everywhere start good) :
    Ends (fun _ last => last.dag.Everywhere start good)
      (fun _ last => last.dag.Everywhere start good) ((target.selectNode id).run run) := by
  unfold selectNode
  refine ends_get_bind (ends_ask_bind held fun node fetched => ?_)
  have found := Dag.fetch_eq_ok_iff.mp fetched
  split
  · exact held
  · rename_i isUnvisited
    have unvisited : node.state = .unvisited := Decidable.not_not.mp isUnvisited
    refine ends_report_bind ?_
    split
    · refine Lasting.bind (lasting_report _) (fun _ => ?_) _ held
      apply Lasting.bind (lasting_edit (Dag.Everywhere.lasting_markSelected inherited))
      exact fun _ => lasting_record _
    · rename_i op opcode
      split
      · refine Lasting.bind (lasting_report _) (fun _ => ?_) _ held
        apply Lasting.bind (lasting_edit (Dag.Everywhere.lasting_markDead inherited))
        exact fun _ => lasting_record _
      · rename_i alive
        split
        · exact Lasting.bind (lasting_edit (Dag.Everywhere.lasting_markSelected inherited))
            (fun _ => lasting_record _) _ held
        · rename_i needs
          have used : node.uses ≠ 0 ∨ run.dag.isRoot id = true := by
            rwa [Decidable.not_and_iff_not_or_not, Decidable.not_not] at alive
          exact ends_coverNode inherited emits comes found unvisited opcode used
            (Bool.eq_false_iff.mpr needs) held

theorem ends_selectNodes {name : String} {run : Run}
    (isFirst : { run with log := run.log ++ [beginRecord name run.dag] } = first)
    (held : run.dag.Everywhere start good) :
    Ends (fun _ last => last.dag.Everywhere start good)
      (fun _ last => last.dag.Everywhere start good) ((target.selectNodes name order).run run) := by
  unfold selectNodes
  refine ends_get_bind (ends_report_bind ?_)
  split
  · exact held
  · refine Ends.bind (Ends.forM_of_steps held ?_) ?_
    · intro position id middle listed walked middleHeld
      rw [isFirst] at walked
      exact ends_selectNode inherited emits ⟨position, middle, listed, walked, rfl⟩ middleHeld
    · refine fun _ => Lasting.get_bind fun last _ => ?_
      split
      · exact .throw _
      · exact lasting_report _

/-- However selection of a function ends, all nodes are good if they were so before. -/
theorem ends_selectFunction {name : String} {run : Run} (isFirst : run.begun name = first)
    (held : run.dag.Everywhere start good) :
    Ends (fun _ last => last.dag.Everywhere start good)
      (fun _ last => last.dag.Everywhere start good)
      ((target.selectFunction name order).run run) := by
  have ends : Ends (fun _ last => last.dag.Everywhere start good)
      (fun _ last => last.dag.Everywhere start good)
      ((target.selectNodes name order).run { run with session := run.session.begin name }) :=
    ends_selectNodes inherited emits isFirst held
  change Ends _ _ (target.selectFunction name order run)
  unfold selectFunction
  split <;>
    · rename_i ended
      rw [ended] at ends
      exact ends

end Target

end Selection

end DagSelect
