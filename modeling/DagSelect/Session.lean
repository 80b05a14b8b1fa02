/-
Module: DagSelect.Session
Purpose: What selection did over the functions that it was given: how many nodes went which way, how
  often each pattern was used, and which function is being selected.
Main exports: Stats, Stats.render, Session
-/
import DagSelect.Log
import DagSelect.Sort

namespace DagSelect

/-- The counts of a session. -/
structure Stats where
  functionsSelected : Nat := 0
  /-- Nodes that a pattern covered. -/
  nodesSelected : Nat := 0
  /-- Nodes that were instructions already. -/
  nodesPreselected : Nat := 0
  /-- Nodes that need no selection. -/
  nodesPassedThrough : Nat := 0
  /-- Nodes without users. -/
  nodesDead : Nat := 0
  /-- How often each pattern was used. No name occurs twice. -/
  hits : List (String × Nat) := []
  deriving DecidableEq, Repr, Inhabited

namespace Stats

/-- Counts one more for a name. -/
def countHit (name : String) : List (String × Nat) → List (String × Nat)
  | [] => [(name, 1)]
  | (other, count) :: rest =>
    if other = name then (other, count + 1) :: rest else (other, count) :: countHit name rest

/-- The order of the report: by falling count, and by name among equal counts. -/
def hitBefore (a b : String × Nat) : Bool :=
  decide (b.2 < a.2) || (a.2 == b.2 && decide (a.1 ≤ b.1))

/-- The hits in the order of the report. -/
def sortedHits (stats : Stats) : List (String × Nat) :=
  sortBy hitBefore stats.hits

/-- The lines of the report on patterns, and none if no pattern was used. -/
def renderHits (stats : Stats) : List String :=
  if stats.hits.isEmpty then []
  else "  Pattern breakdown:" :: stats.sortedHits.map fun hit => s!"    {hit.1}: {hit.2}"

/-- The report of a session. -/
def render (stats : Stats) : String :=
  let lines := [
    "Instruction Selection Statistics:",
    s!"  Functions selected: {stats.functionsSelected}",
    s!"  Nodes selected: {stats.nodesSelected}",
    s!"  Nodes pre-selected: {stats.nodesPreselected}",
    s!"  Nodes passed through: {stats.nodesPassedThrough}",
    s!"  Dead nodes: {stats.nodesDead}"] ++ stats.renderHits
  String.join (lines.map fun line => line ++ "\n")

end Stats

/-- The record of what selection did. -/
structure Session where
  stats : Stats := {}
  /-- The function that is being selected. -/
  current : Option String := none
  deriving DecidableEq, Repr, Inhabited

namespace Session

/-- Starts a function. -/
def begin (session : Session) (name : String) : Session :=
  { session with current := some name }

/-- Ends a function; it counts if one was started. -/
def finish (session : Session) : Session :=
  match session.current with
  | some _ =>
    { stats := { session.stats with functionsSelected := session.stats.functionsSelected + 1 },
      current := none }
  | none => session

/-- Gives a function up. -/
def abort (session : Session) : Session :=
  { session with current := none }

/-- The record of giving a function up, if one was started. -/
def abortLog (session : Session) : List LogRecord :=
  match session.current with
  | some name => [.debug s!"Selection of {name} aborted"]
  | none => []

/-- Records a node that a pattern covered. -/
def recordPattern (session : Session) (name : String) : Session :=
  { session with
    stats := { session.stats with
      nodesSelected := session.stats.nodesSelected + 1,
      hits := Stats.countHit name session.stats.hits } }

/-- Records a node that was an instruction already. -/
def recordPreselected (session : Session) : Session :=
  { session with
    stats := { session.stats with nodesPreselected := session.stats.nodesPreselected + 1 } }

/-- Records a node that needs no selection. -/
def recordPassthrough (session : Session) : Session :=
  { session with
    stats := { session.stats with nodesPassedThrough := session.stats.nodesPassedThrough + 1 } }

/-- Records a node without users. -/
def recordDead (session : Session) : Session :=
  { session with stats := { session.stats with nodesDead := session.stats.nodesDead + 1 } }

end Session

end DagSelect
