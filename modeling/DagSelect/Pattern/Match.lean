/-
Module: DagSelect.Pattern.Match
Purpose: Matching a pattern against a node. A match reads the graph and gives the operands of the
  instruction in order; making those that are new is left to the selector.
Main exports: Matcher.attempt, Matcher.attemptAll, Pattern.matchNode
-/
import DagSelect.Pattern.Attempt
import DagSelect.Pattern.Basic

namespace DagSelect

namespace Attempt

/-- Folds a value as an absolute address. -/
def absolute (dag : Dag) (types : AddressTypes) (value : Value) : Attempt Displacement :=
  let result := foldAbsolute dag types value
  match result with
  | .ok (some displacement) => { result, log := displacement.log value }
  | _ => { result }

/-- Folds a value as a based address. -/
def based (dag : Dag) (types : AddressTypes) (value : Value) : Attempt BasedAddress :=
  let result := foldBased dag types value
  match result with
  | .ok (some address) => { result, log := address.log value }
  | _ => { result }

end Attempt

/-- The operand that the base of an address becomes. -/
def AddressBase.capture (types : AddressTypes) : AddressBase → Capture
  | .register value => .value value
  | .frame index => .frame index types.pointer

namespace Matcher

/-- Whether a node can be taken into an instruction at an operand: it is the first result that is
used, the node is still generic and untouched, and nothing else uses it. -/
def absorbs (op : GenericOp) (arity : Nat) (value : Value) (node : Node) : Bool :=
  value.result == 0 && node.opcode == .generic op && node.state == .unvisited && node.uses == 1 &&
    node.operands.length == arity

mutual

/-- Matches one operand. -/
def attempt (dag : Dag) (types : AddressTypes) : Matcher → Value → Attempt (List Capture)
  | .chain, value => do
    let type ← .ask (dag.valueType value)
    .require (type == .chain)
    return [.value value]
  | .reg, value => do
    let type ← .ask (dag.valueType value)
    .require (type != .chain)
    return [.value value]
  | .imm, value => do
    let node ← .ask (dag.fetch value.node)
    match node.opcode, node.payload with
    | .generic .constant, .constant number =>
      return [.constant number (← .ask (dag.valueType value))]
    | _, _ => .failure
  | .exactly number, value => do
    let node ← .ask (dag.fetch value.node)
    .require (node.opcode == .generic .constant && node.payload == .constant number)
    return []
  | .mem, value => do
    let displacement ← .absolute dag types value
    return [.displacement displacement]
  | .off, value => do
    let address ← .based dag types value
    return [address.base.capture types, .displacement address.displacement]
  | .node op operands, value => do
    let node ← .ask (dag.fetch value.node)
    .require (absorbs op operands.length value node)
    attemptAll dag types operands node.operands

/-- Matches operands one after another. -/
def attemptAll (dag : Dag) (types : AddressTypes) :
    List Matcher → List Value → Attempt (List Capture)
  | [], _ => .success []
  | _ :: _, [] => .success []
  | matcher :: matchers, value :: values => do
    let first ← attempt dag types matcher value
    let rest ← attemptAll dag types matchers values
    return first ++ rest

end

end Matcher

namespace TypeTest

/-- Whether a node has the type that is asked for. A test of an operand that is not there fails. -/
def holds (test : TypeTest) (dag : Dag) (node : Node) : Except Fault Bool :=
  match test with
  | .any => .ok true
  | .result type =>
    match node.results with
    | first :: _ => .ok (first == .simple type)
    | [] => .error (.outOfBounds 0 0)
  | .operand index type =>
    match node.operands[index]? with
    | some value => do return (← dag.valueType value) == .simple type
    | none => .ok false

end TypeTest

namespace Pattern

variable {Features : Type}

/-- Matches a pattern against a node. The guard of the pattern is the caller's business. -/
def matchNode (pattern : Pattern Features) (dag : Dag) (types : AddressTypes) (id : NodeId) :
    Attempt (List Capture) := do
  let node ← .ask (dag.fetch id)
  .require (node.opcode == .generic pattern.op && node.operands.length == pattern.operands.length)
  .require (← .ask (pattern.typeTest.holds dag node))
  let own ← match pattern.root with
    | some matcher => matcher.attempt dag types { node := id }
    | none => .success []
  let rest ← Matcher.attemptAll dag types pattern.operands node.operands
  return own ++ rest

end Pattern

end DagSelect
