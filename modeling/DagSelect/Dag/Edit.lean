/-
Module: DagSelect.Dag.Edit
Purpose: The edits of a graph. Each keeps the use counts in step with the edges it makes and removes.
  An edit that faults keeps what it had done up to the fault.
Main exports: Edit, Dag.addNode, Dag.addConstant, Dag.setRoot, Dag.morph, Dag.markSelected,
  Dag.markDead
-/
import DagSelect.Dag.Basic
import DagSelect.ValueType.Width

namespace DagSelect

/-- A computation that changes a graph and may fault. What it changed before a fault stays
changed. -/
abbrev Edit := EStateM Fault Dag

namespace Dag

/-! ### Single steps -/

/-- Replaces the node at a position. -/
def updateNode (id : NodeId) (change : Node → Node) : Edit Unit := do
  let dag ← get
  if dag.contains id then
    set { dag with nodes := dag.nodes.modify id change }
  else
    throw (.outOfBounds dag.size id)

/-- Refuses a value that cannot be an operand. -/
def checkOperand (value : Value) : Edit Unit := do
  (← get).checkValue value

/-- Counts one more edge to the node of a value. -/
def addUse (value : Value) : Edit Unit :=
  updateNode value.node fun node => { node with uses := node.uses + 1 }

/-- Counts one edge less to the node of a value. -/
def dropUse (value : Value) : Edit Unit := do
  let node ← (← get).fetch value.node
  if node.uses = 0 then throw (.useUnderflow value.node)
  updateNode value.node fun node => { node with uses := node.uses - 1 }

/-- Puts other operands in place of those of a node and gives back the old ones. No use is
counted. -/
def replaceOperands (id : NodeId) (operands : List Value) : Edit (List Value) := do
  let node ← (← get).fetch id
  updateNode id fun node => { node with operands := operands }
  return node.operands

/-- Puts a node behind the others and gives its position. -/
def append (node : Node) : Edit NodeId := do
  let dag ← get
  set { dag with nodes := dag.nodes ++ [node] }
  return dag.size

/-- Refuses a payload that an opcode does not take. Instructions take any. -/
def checkPayload (opcode : Opcode) (payload : Payload) : Except Fault Unit :=
  match opcode with
  | .generic op =>
    if op.payloadKind = payload.kind then .ok () else .error (.payloadMismatch op payload.kind)
  | .machine _ => .ok ()

/-! ### New nodes -/

/-- Adds an unvisited node. Its operands must be there already. -/
def addNode (opcode : Opcode) (results : List ValueType) (operands : List Value)
    (payload : Payload) : Edit NodeId := do
  if results.isEmpty then throw .noResults
  checkPayload opcode payload
  operands.forM checkOperand
  operands.forM addUse
  append { opcode, results, operands, payload, state := .unvisited, uses := 0 }

/-- Adds a generic node without payload. -/
def addGeneric (op : GenericOp) (results : List ValueType) (operands : List Value) :
    Edit NodeId :=
  addNode (.generic op) results operands .none

/-- Adds a generic node without operands. -/
def addLeaf (op : GenericOp) (type : ValueType) (payload : Payload) : Edit NodeId :=
  addNode (.generic op) [type] [] payload

/-- Adds the token that starts a chain. -/
def addEntryToken : Edit NodeId :=
  addGeneric .entryToken [.chain] []

/-- Adds a constant, sign-extended from the width of its type. -/
def addConstant (op : GenericOp) (value : Int) (type : ValueType) : Edit NodeId := do
  if !type.isScalarInteger then throw (.constantOfNonInteger type)
  let bits ← type.sizeInBits
  addLeaf op type (.constant (signExtend value bits))

/-! ### Changes of existing nodes -/

/-- Makes a value the root. -/
def setRoot (value : Value) : Edit Unit := do
  checkOperand value
  addUse value
  let dag ← get
  set { dag with root := some value }
  match dag.root with
  | some old => dropUse old
  | none => return ()

/-- Turns a node into an instruction. It keeps its result types and takes other operands. -/
def morph (id : NodeId) (op : MachineOp) (operands : List Value) : Edit Unit := do
  operands.forM fun value => do
    checkOperand value
    addUse value
  let old ← replaceOperands id operands
  old.forM dropUse
  updateNode id fun node =>
    { node with opcode := .machine op, payload := .none, state := .selected }

/-- Declares a node to be in its final form. -/
def markSelected (id : NodeId) : Edit Unit :=
  updateNode id fun node => { node with state := .selected }

/-- Declares a node without users dead, and releases its operands. -/
def markDead (id : NodeId) : Edit Unit := do
  let dag ← get
  let node ← dag.fetch id
  if node.uses ≠ 0 ∨ dag.isRoot id then throw (.stillInUse id)
  let operands ← replaceOperands id []
  operands.forM dropUse
  updateNode id fun node => { node with state := .dead }

end Dag

end DagSelect
