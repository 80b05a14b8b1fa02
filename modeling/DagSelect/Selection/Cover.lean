/-
Module: DagSelect.Selection.Cover
Purpose: Covering one node: the search for the first pattern that applies, and the leaves that the
  instruction needs for what it folds.
Main exports: Target.firstMatch, Target.cover, Capture.emit, Target.refusal
-/
import DagSelect.Dag.Edit
import DagSelect.Pattern.Match
import DagSelect.Selection.Target

namespace DagSelect

variable {Features : Type}

namespace Target

/-- The first pattern of a list that the processor has and that matches, with its operands. -/
def firstMatch (target : Target Features) (dag : Dag) (id : NodeId) :
    List (Pattern Features) → Attempt (Pattern Features × List Capture)
  | [] => .failure
  | pattern :: rest =>
    if pattern.guard.holds target.features then
      Attempt.orElse
        (do return (pattern, ← pattern.matchNode dag target.addressTypes id))
        fun _ => firstMatch target dag id rest
    else
      firstMatch target dag id rest

/-- The pattern that covers a node of an opcode, with the operands of the instruction. -/
def cover (target : Target Features) (dag : Dag) (id : NodeId) (op : GenericOp) :
    Attempt (Pattern Features × List Capture) :=
  target.firstMatch dag id (target.table.candidates op)

/-- The names of the patterns of a list that match a node, whatever the processor has. -/
def namesOfMatches (target : Target Features) (dag : Dag) (id : NodeId) :
    List (Pattern Features) → Attempt (List String)
  | [] => .success []
  | pattern :: rest => do
    let own ← Attempt.orElse
      (do let _ ← pattern.matchNode dag target.addressTypes id; return [pattern.name])
      fun _ => .success []
    return own ++ (← target.namesOfMatches dag id rest)

/-- The names of the patterns that match a node of an opcode, in the order of trial. -/
def matchingNames (target : Target Features) (dag : Dag) (id : NodeId) (op : GenericOp) :
    Attempt (List String) :=
  target.namesOfMatches dag id (target.table.candidates op)

/-- Why no pattern covers a node: the first sized result that no register holds, if there is one. -/
def refusal (target : Target Features) (id : NodeId) (node : Node) : SelectError :=
  match node.results.find? fun type => type.isSized && !target.isLegal type with
  | some type => .illegalType id type (node.describe id)
  | none => .noMatch id (node.describe id)

end Target

/-! ### Operands of the instruction -/

/-- Adds the leaf that carries the absolute part of an address. -/
def Displacement.emit : Displacement → Edit NodeId
  | .immediate value type => Dag.addConstant .targetConstant value (.simple type)
  | .global symbol offset type =>
    Dag.addLeaf .targetGlobalAddress (.simple type) (.global symbol offset)
  | .external symbol type => Dag.addLeaf .targetExternalSymbol (.simple type) (.external symbol)

/-- Declares a new leaf final and gives its value. -/
def Dag.asOperand (leaf : Edit NodeId) : Edit Value := do
  let id ← leaf
  Dag.markSelected id
  return { node := id }

/-- Makes an operand of the instruction: a value of the graph, or a new leaf. -/
def Capture.emit : Capture → Edit Value
  | .value source => return source
  | .constant number type => Dag.asOperand (Dag.addConstant .targetConstant number type)
  | .displacement part => Dag.asOperand part.emit
  | .frame index type =>
    Dag.asOperand (Dag.addLeaf .targetFrameIndex (.simple type) (.frameIndex index))

end DagSelect
