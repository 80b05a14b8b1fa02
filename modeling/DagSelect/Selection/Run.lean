/-
Module: DagSelect.Selection.Run
Purpose: Selecting the instructions of one function. The order lists operands before their users and
  is walked from its end, so a node is looked at after all its users, and a pattern of a user can
  still take it in. A node whose users have all taken it in dies.
Main exports: Failure, Run, Selecting, Target.selectNode, Target.selectFunction
-/
import DagSelect.Selection.Cover
import DagSelect.Session

namespace DagSelect

/-- Why a run ended early: the graph is declined, or a precondition is broken. -/
inductive Failure where
  | declined (error : SelectError)
  | fault (cause : Fault)
  deriving DecidableEq, Repr

/-- What a run works on. -/
structure Run where
  dag : Dag
  session : Session := {}
  /-- The records so far, in order. -/
  log : List LogRecord := []
  deriving DecidableEq, Repr, Inhabited

/-- A step of selection. What it did before a failure stays done. -/
abbrev Selecting := EStateM Failure Run

namespace Selecting

/-- Adds records to the log. -/
def report (records : List LogRecord) : Selecting Unit :=
  modify fun run => { run with log := run.log ++ records }

/-- Changes the session. -/
def record (change : Session → Session) : Selecting Unit :=
  modify fun run => { run with session := change run.session }

/-- Gives up with an error. -/
def decline {α : Type} (error : SelectError) : Selecting α :=
  throw (.declined error)

/-- Asks something that can fault. -/
def ask {α : Type} (answer : Except Fault α) : Selecting α :=
  match answer with
  | .ok a => pure a
  | .error cause => throw (.fault cause)

/-- Edits the graph. -/
def edit {α : Type} (edit : Edit α) : Selecting α := fun run =>
  match edit.run run.dag with
  | .ok a dag => .ok a { run with dag }
  | .error cause dag => .error (.fault cause) { run with dag }

/-- Records a node as it is now. -/
def reportNode (lead : String) (id : NodeId) : Selecting Unit := do
  let node ← ask ((← get).dag.fetch id)
  report [.trace (lead ++ node.describe id)]

end Selecting

namespace Target

variable {Features : Type}

/-- Turns a node into the instruction of the pattern that covers it. -/
def coverNode (target : Target Features) (id : NodeId) (node : Node) (op : GenericOp) :
    Selecting Unit := do
  let attempt := target.cover (← get).dag id op
  Selecting.report attempt.log
  match ← Selecting.ask attempt.result with
  | some (pattern, captures) =>
    let operands ← Selecting.edit (captures.mapM Capture.emit)
    Selecting.edit (Dag.morph id pattern.emit operands)
    Selecting.record (·.recordPattern pattern.name)
    Selecting.reportNode "=> " id
  | none => Selecting.decline (target.refusal id node)

/-- Brings one node into its final form. A node that has it already is left alone. -/
def selectNode (target : Target Features) (id : NodeId) : Selecting Unit := do
  let dag := (← get).dag
  let node ← Selecting.ask (dag.fetch id)
  if node.state ≠ .unvisited then
    return ()
  else
    Selecting.report [.trace ("Selecting: " ++ node.describe id)]
    match node.opcode with
    | .machine _ =>
      Selecting.report [.trace ("== " ++ node.describe id)]
      Selecting.edit (Dag.markSelected id)
      Selecting.record Session.recordPreselected
    | .generic op =>
      if node.uses = 0 ∧ ¬ dag.isRoot id then
        Selecting.report [.trace "  dead"]
        Selecting.edit (Dag.markDead id)
        Selecting.record Session.recordDead
      else if op.needsNoSelection then
        Selecting.edit (Dag.markSelected id)
        Selecting.record Session.recordPassthrough
      else
        target.coverNode id node op

/-- The first node that selection has not looked at. -/
def firstUnvisited (dag : Dag) : Option NodeId :=
  dag.ids.find? fun id => (dag.node? id).any fun node => node.state == .unvisited

/-- The record with which the selection of a graph begins. -/
def beginRecord (name : String) (dag : Dag) : LogRecord :=
  .debug s!"===== Instruction selection begins: {name} ({dag.size} nodes)"

/-- Selects all nodes of a graph. A node that the order names twice has its final form when its
second turn comes. -/
def selectNodes (target : Target Features) (name : String) (order : List NodeId) :
    Selecting Unit := do
  let dag := (← get).dag
  Selecting.report [beginRecord name dag]
  match order.find? fun id => !dag.contains id with
  | some id => Selecting.decline (.invalidOrder id)
  | none =>
    order.reverse.forM target.selectNode
    match firstUnvisited (← get).dag with
    | some id => Selecting.decline (.unvisited id)
    | none => Selecting.report [.debug s!"===== Instruction selection ends: {name}"]

/-- The name of a function that has none. -/
def anonymous : String := "<anonymous>"

/-- Selects the instructions of a function. The session counts the function if selection succeeds and
gives it up if the graph is declined; a fault leaves it started. -/
def selectFunction (target : Target Features) (name : String) (order : List NodeId) :
    Selecting Unit := fun run =>
  match (target.selectNodes name order).run { run with session := run.session.begin name } with
  | .ok _ run => .ok () { run with session := run.session.finish }
  | .error (.declined error) run =>
    .error (.declined error)
      { run with session := run.session.abort, log := run.log ++ run.session.abortLog }
  | .error (.fault cause) run => .error (.fault cause) run

end Target

end DagSelect
