/-
Module: DagSelect.Dag.Basic
Purpose: The selection graph. Nodes stand in a list and are known by position; an operand names a
  node and one of its results. Every node counts the edges that point at it, and the root counts as
  one more.
Main exports: NodeState, Node, Dag, Dag.fetch, Dag.checkValue, Dag.valueType, Dag.constantValue,
  Dag.describe
-/
import DagSelect.Fault
import DagSelect.Payload

namespace DagSelect

/-- How far selection has come with a node. -/
inductive NodeState where
  /-- Not looked at yet. -/
  | unvisited
  /-- In its final form. -/
  | selected
  /-- Without users, and kept only so that the other nodes keep their positions. -/
  | dead
  deriving DecidableEq, Repr, Inhabited

/-- The printed name of a state. -/
def NodeState.name : NodeState → String
  | .unvisited => "Unvisited"
  | .selected => "Selected"
  | .dead => "Dead"

/-- One computation of the graph. -/
structure Node where
  opcode : Opcode
  results : List ValueType
  operands : List Value
  payload : Payload
  state : NodeState
  uses : Nat
  deriving DecidableEq, Repr

namespace Node

/-- Whether the node is dead. -/
def isDead (node : Node) : Bool :=
  node.state == .dead

/-- The operand at a position. -/
def operand (node : Node) (index : Nat) : Except Fault Value :=
  match node.operands[index]? with
  | some value => .ok value
  | none => .error (.outOfBounds node.operands.length index)

/-- The operands as they are written after the opcode. -/
def renderOperands (label : NodeId → String) (operands : List Value) : String :=
  if operands.isEmpty then ""
  else " " ++ String.intercalate ", " (operands.map (Value.renderWith label))

/-- One node as a line of text, under a naming of the nodes. -/
def render (label : NodeId → String) (id : NodeId) (node : Node) : String :=
  label id ++ ": " ++ String.intercalate "," (node.results.map ValueType.name) ++ " = " ++
    node.opcode.name ++ node.payload.render ++ renderOperands label node.operands

/-- One node as a line of text, with the positions that the nodes have in the graph. -/
def describe (id : NodeId) (node : Node) : String :=
  node.render NodeId.label id

end Node

/-- A selection graph. The root is the value that the whole computation is for. -/
structure Dag where
  nodes : List Node := []
  root : Option Value := none
  deriving DecidableEq, Repr, Inhabited

namespace Dag

/-- The number of nodes, dead ones included. -/
def size (dag : Dag) : Nat :=
  dag.nodes.length

/-- The positions of all nodes, in order. -/
def ids (dag : Dag) : List NodeId :=
  List.range dag.size

/-- Whether there is a node at a position. -/
def contains (dag : Dag) (id : NodeId) : Bool :=
  decide (id < dag.size)

/-- The node at a position. -/
def node? (dag : Dag) (id : NodeId) : Option Node :=
  dag.nodes[id]?

/-- The node at a position that must be one. -/
def fetch (dag : Dag) (id : NodeId) : Except Fault Node :=
  match dag.node? id with
  | some node => .ok node
  | none => .error (.outOfBounds dag.size id)

/-- The operands of a node, and none for a position without a node. -/
def operandsOf (dag : Dag) (id : NodeId) : List Value :=
  match dag.node? id with
  | some node => node.operands
  | none => []

/-- Whether the root is a result of a node. -/
def isRoot (dag : Dag) (id : NodeId) : Bool :=
  dag.root.any fun root => root.node == id

/-- Whether a value may be used as an operand: its node must be there and have that result. -/
def checkValue (dag : Dag) (value : Value) : Except Fault Unit :=
  match dag.node? value.node with
  | none => .error (.noSuchNode value)
  | some node =>
    if value.result < node.results.length then .ok ()
    else .error (.noSuchResult value node.results.length)

/-- The type of a value. -/
def valueType (dag : Dag) (value : Value) : Except Fault ValueType := do
  let node ← dag.fetch value.node
  match node.results[value.result]? with
  | some type => .ok type
  | none => .error (.outOfBounds node.results.length value.result)

/-- The number that a generic or target constant holds. -/
def constantValue (dag : Dag) (value : Value) : Except Fault (Option Int) := do
  let node ← dag.fetch value.node
  match node.opcode, node.payload with
  | .generic .constant, .constant number => return some number
  | .generic .targetConstant, .constant number => return some number
  | _, _ => return none

end Dag

end DagSelect
