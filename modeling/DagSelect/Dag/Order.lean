/-
Module: DagSelect.Dag.Order
Purpose: An order of the nodes in which every operand stands before its users. Depth-first search
  from every node that is not dead, in the order of positions, lists a node when all its operands are
  listed. An edge back to a node that the search is still under is skipped, so the order is defined
  for graphs with cycles too.
Main exports: Walk, Dag.visit, Dag.topologicalOrder
-/
import DagSelect.Dag.Basic

namespace DagSelect

/-- The state of the search: the nodes that it has entered, and those that it has left, in order. -/
structure Walk where
  seen : List NodeId := []
  order : List NodeId := []
  deriving DecidableEq, Repr, Inhabited

namespace Dag

/-- Searches from a node, at most `depth` nodes deep. Every node on the way down is a new one, so
the number of nodes is depth enough. -/
def visit (dag : Dag) : Nat → NodeId → Walk → Walk
  | 0, _, walk => walk
  | depth + 1, id, walk =>
    if id ∈ walk.seen then walk
    else
      let below := (dag.operandsOf id).foldl (fun walk value => visit dag depth value.node walk)
        { walk with seen := id :: walk.seen }
      { below with order := below.order ++ [id] }

/-- The nodes at which the search starts. -/
def liveIds (dag : Dag) : List NodeId :=
  dag.ids.filter fun id => (dag.node? id).any fun node => !node.isDead

/-- The nodes that are not dead and all that they depend on, every operand before its users. -/
def topologicalOrder (dag : Dag) : List NodeId :=
  (dag.liveIds.foldl (fun walk id => visit dag dag.size id walk) {}).order

end Dag

end DagSelect
