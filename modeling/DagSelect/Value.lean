/-
Module: DagSelect.Value
Purpose: Names of nodes and of their results. A node is known by its position in the graph and
  written `t3`; a value is one result of a node, written `t3` for the first and `t3:1` for a later.
Main exports: NodeId, NodeId.label, Value, Value.render
-/
namespace DagSelect

/-- The position of a node in its graph. -/
abbrev NodeId := Nat

/-- The written form of a node. -/
def NodeId.label (id : NodeId) : String :=
  s!"t{id}"

/-- One result of a node. -/
structure Value where
  node : NodeId
  result : Nat := 0
  deriving DecidableEq, Repr, Inhabited

/-- The written form of a value, under a naming of the nodes. -/
def Value.renderWith (label : NodeId → String) (value : Value) : String :=
  if value.result = 0 then label value.node else s!"{label value.node}:{value.result}"

/-- The written form of a value. -/
def Value.render (value : Value) : String :=
  value.renderWith NodeId.label

end DagSelect
