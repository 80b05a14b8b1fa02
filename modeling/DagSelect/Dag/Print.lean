/-
Module: DagSelect.Dag.Print
Purpose: The written form of a graph: one line per node, numbered in dependency order, and a last
  line that names the root.
Main exports: Dag.printedLabel, Dag.print
-/
import DagSelect.Dag.Order

namespace DagSelect.Dag

/-- The number that stands for a node outside the printed order. -/
def unprintedNumber : Nat := twoPow 32 - 1

/-- The name of a node in print: its place in the printed order. -/
def printedLabel (order : List NodeId) (id : NodeId) : String :=
  NodeId.label ((order.idxOf? id).getD unprintedNumber)

/-- The line of a node. -/
def printNode (dag : Dag) (order : List NodeId) (id : NodeId) : String :=
  match dag.node? id with
  | some node => node.render (printedLabel order) id ++ "\n"
  | none => ""

/-- The line of the root. -/
def printRoot (dag : Dag) (order : List NodeId) : String :=
  match dag.root with
  | some root => "root " ++ root.renderWith (printedLabel order) ++ "\n"
  | none => ""

/-- The written form of a graph. -/
def print (dag : Dag) : String :=
  let order := dag.topologicalOrder
  String.join (order.map (dag.printNode order)) ++ dag.printRoot order

end DagSelect.Dag
