/-
Module: DagSelect.Selection.Target
Purpose: What selection needs to know about a processor, and the ways in which it can decline a
  graph.
Main exports: SelectError, SelectError.message, Target
-/
import DagSelect.Pattern.Table

namespace DagSelect

/-- Why selection declines. -/
inductive SelectError where
  /-- No pattern matches a node. -/
  | noMatch (node : NodeId) (description : String)
  /-- No pattern matches a node, and the processor cannot hold one of its results. -/
  | illegalType (node : NodeId) (type : ValueType) (description : String)
  /-- The processor is known not to support an operation. -/
  | unimplemented (operation : String)
  /-- The order leaves a node out. -/
  | unvisited (node : NodeId)
  /-- The order names a node that is not there. -/
  | invalidOrder (node : NodeId)
  deriving DecidableEq, Repr

namespace SelectError

/-- The wording of an error. -/
def message : SelectError → String
  | .noMatch _ description => s!"Cannot select: {description}"
  | .illegalType _ type description =>
    s!"Cannot select: {description}: {type.name} is not a legal type for this target"
  | .unimplemented operation => s!"Unimplemented: {operation}"
  | .unvisited node => s!"Node {NodeId.label node} was never visited by the selection order"
  | .invalidOrder node => s!"Selection order refers to unknown node {NodeId.label node}"

/-- Whether the patterns do not cover the graph. -/
def isNoMatch : SelectError → Bool
  | .noMatch _ _ | .illegalType _ _ _ => true
  | _ => false

/-- Whether the processor lacks support. -/
def isUnimplemented : SelectError → Bool
  | .unimplemented _ => true
  | _ => false

end SelectError

/-- A processor as selection sees it. -/
structure Target (Features : Type) where
  /-- What the guards of the patterns look at. -/
  features : Features
  table : PatternTable Features
  addressTypes : AddressTypes
  /-- Whether a register can hold values of a type. -/
  isLegal : ValueType → Bool
  /-- Selects the operands of a memory reference in inline assembly, by value and constraint. -/
  asmOperand : Value → Char → Except SelectError (List Value) × List LogRecord

end DagSelect
