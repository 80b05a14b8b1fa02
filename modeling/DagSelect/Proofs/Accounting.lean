/-
Module: DagSelect.Proofs.Accounting
Purpose: The counts of a session. Whatever calls and runs a session has seen, the hits of all
  patterns add up to the nodes that patterns covered. A run counts every node that had not had its
  turn once: each turn is recorded in one count, and by comparing the two graphs one can see in
  which. Nothing is asked of the graph, of the order or of the patterns.
Main exports: SessionCall, Way, Stats.Balanced, Recorded, Recorded.balanced, Way.Taken, Dag.went,
  Dag.unvisitedCount, Target.Steps.counts, Target.Steps.accounted, statistics_account
-/
import DagSelect.Proofs.Reached
import DagSelect.Proofs.Step
import Mathlib.Algebra.GroupWithZero.Nat

namespace DagSelect

/-! ### Calls of a session -/

/-- The ways in which selection can deal with a node. -/
inductive Way where
  /-- A pattern covers it. -/
  | selected
  /-- It was an instruction already. -/
  | preselected
  /-- It needs no selection. -/
  | passed
  /-- It has no users. -/
  | dead
  deriving DecidableEq, Repr

/-- How many nodes went a way, as counted. -/
def Stats.nodes (stats : Stats) : Way → Nat
  | .selected => stats.nodesSelected
  | .preselected => stats.nodesPreselected
  | .passed => stats.nodesPassedThrough
  | .dead => stats.nodesDead

/-- How many nodes were counted. -/
def Stats.allNodes (stats : Stats) : Nat :=
  stats.nodesSelected + stats.nodesPreselected + stats.nodesPassedThrough + stats.nodesDead

/-- A call on a session. -/
inductive SessionCall where
  | begin (name : String)
  | finish
  | abort
  | recordPattern (name : String)
  | recordPreselected
  | recordPassthrough
  | recordDead

namespace SessionCall

/-- What a call does to the session. -/
def apply : SessionCall → Session → Session
  | .begin name, session => session.begin name
  | .finish, session => session.finish
  | .abort, session => session.abort
  | .recordPattern name, session => session.recordPattern name
  | .recordPreselected, session => session.recordPreselected
  | .recordPassthrough, session => session.recordPassthrough
  | .recordDead, session => session.recordDead

/-- The way that a call records. -/
def way? : SessionCall → Option Way
  | .recordPattern _ => some .selected
  | .recordPreselected => some .preselected
  | .recordPassthrough => some .passed
  | .recordDead => some .dead
  | _ => none

variable {call : SessionCall} {session : Session} {way : Way}

/-- A record adds one to the count of its way and nothing to the others. -/
theorem nodes_apply (records : call.way? = some way) (other : Way) :
    (call.apply session).stats.nodes other =
      session.stats.nodes other + if other = way then 1 else 0 := by
  cases call with
  | begin | finish | abort => cases records
  | recordPattern | recordPreselected | recordPassthrough | recordDead =>
      cases records
      cases other <;> rfl

theorem allNodes_apply (records : call.way? = some way) :
    (call.apply session).stats.allNodes = session.stats.allNodes + 1 := by
  cases call with
  | begin | finish | abort => cases records
  | recordPattern | recordPreselected | recordPassthrough | recordDead =>
      simp only [apply, Session.recordPattern, Session.recordPreselected,
        Session.recordPassthrough, Session.recordDead, Stats.allNodes]
      omega

/-- A record neither starts nor ends a function. -/
theorem function_apply (records : call.way? = some way) :
    (call.apply session).current = session.current ∧
      (call.apply session).stats.functionsSelected = session.stats.functionsSelected := by
  cases call with
  | begin | finish | abort => cases records
  | recordPattern | recordPreselected | recordPassthrough | recordDead => exact ⟨rfl, rfl⟩

end SessionCall

/-! ### Hits -/

namespace Stats

variable {name : String} {hits : List (String × Nat)}

theorem sum_countHit :
    ((countHit name hits).map Prod.snd).sum = (hits.map Prod.snd).sum + 1 := by
  induction hits with
  | nil => rfl
  | cons hit rest inductionHypothesis =>
      unfold countHit
      split
      · simp only [List.map_cons, List.sum_cons]
        omega
      · simp only [List.map_cons, List.sum_cons, inductionHypothesis]
        omega

theorem mem_countHit {other : String} :
    other ∈ (countHit name hits).map Prod.fst ↔ other = name ∨ other ∈ hits.map Prod.fst := by
  induction hits with
  | nil => simp [countHit]
  | cons hit rest inductionHypothesis =>
      unfold countHit
      split
      · rename_i same
        simp [same]
      · simp only [List.map_cons, List.mem_cons, inductionHypothesis]
        exact or_left_comm

theorem nodup_countHit (distinct : (hits.map Prod.fst).Nodup) :
    ((countHit name hits).map Prod.fst).Nodup := by
  induction hits with
  | nil => exact List.pairwise_singleton _ name
  | cons hit rest inductionHypothesis =>
      obtain ⟨isNew, restDistinct⟩ := List.nodup_cons.mp distinct
      unfold countHit
      split
      · exact distinct
      · rename_i different
        refine List.nodup_cons.mpr ⟨?_, inductionHypothesis restDistinct⟩
        rw [mem_countHit]
        exact not_or.mpr ⟨different, isNew⟩

/-- Every pattern has one count, and the counts add up to the nodes that patterns covered. -/
structure Balanced (stats : Stats) : Prop where
  distinct : (stats.hits.map Prod.fst).Nodup
  sum : (stats.hits.map Prod.snd).sum = stats.nodesSelected

end Stats

/-- Every call keeps the hits balanced. -/
theorem SessionCall.balanced {session : Session} (balanced : session.stats.Balanced)
    (call : SessionCall) : (call.apply session).stats.Balanced := by
  cases call with
  | recordPattern name =>
      refine ⟨Stats.nodup_countHit balanced.distinct, ?_⟩
      exact Stats.sum_countHit.trans (congrArg (· + 1) balanced.sum)
  | finish =>
      change session.finish.stats.Balanced
      unfold Session.finish
      split
      · exact ⟨balanced.distinct, balanced.sum⟩
      · exact balanced
  | begin | abort | recordPreselected | recordPassthrough | recordDead =>
      exact ⟨balanced.distinct, balanced.sum⟩

/-! ### Records of a turn -/

/-- Whether a node that was one thing and has become another went a way. -/
def Way.Taken : Way → Node → Node → Prop
  | .selected, old, new => old.opcode.isMachine = false ∧ new.opcode.isMachine = true
  | .preselected, old, new =>
    old.opcode.isMachine = true ∧ old.state = .unvisited ∧ new.state = .selected
  | .passed, old, new =>
    old.opcode.isMachine = false ∧ old.state = .unvisited ∧
      new.opcode.isMachine = false ∧ new.state = .selected
  | .dead, old, new => old.state ≠ .dead ∧ new.state = .dead

instance Way.decidableTaken : (way : Way) → (old new : Node) → Decidable (way.Taken old new)
  | .selected, _, _ => inferInstanceAs (Decidable (_ ∧ _))
  | .preselected, _, _ => inferInstanceAs (Decidable (_ ∧ _ ∧ _))
  | .passed, _, _ => inferInstanceAs (Decidable (_ ∧ _ ∧ _ ∧ _))
  | .dead, _, _ => inferInstanceAs (Decidable (_ ∧ _))

/-- A node that has not changed has gone no way. -/
theorem Way.not_taken_self (way : Way) (node : Node) : ¬ way.Taken node node := by
  cases way <;> simp +contextual [Way.Taken]

namespace Target

variable {Features : Type} {target : Target Features} {id : NodeId} {before middle after last : Run}
  {ids : List NodeId}

/-- A turn makes one record, of the way that the node went. -/
theorem Becomes.exists_call {dag : Dag} {node : Node} {change : Node → Node} {leaves : List Node}
    {record : Session → Session} (becomes : target.Becomes dag id node change leaves record)
    (unvisited : node.state = .unvisited) :
    ∃ call way, record = SessionCall.apply call ∧ call.way? = some way ∧
      ∀ other : Way, other.Taken node.shape (change node.shape) ↔ other = way := by
  cases becomes with
  | accepted machine =>
      refine ⟨.recordPreselected, .preselected, rfl, rfl, fun other => ?_⟩
      cases other <;> simp [Way.Taken, Node.finished, machine, unvisited, Opcode.isMachine]
  | discarded generic =>
      refine ⟨.recordDead, .dead, rfl, rfl, fun other => ?_⟩
      cases other <;> simp [Way.Taken, Node.discarded, generic, unvisited, Opcode.isMachine]
  | passed generic =>
      refine ⟨.recordPassthrough, .passed, rfl, rfl, fun other => ?_⟩
      cases other <;> simp [Way.Taken, Node.finished, generic, unvisited, Opcode.isMachine]
  | @covered op pattern own rest generic =>
      refine ⟨.recordPattern pattern.name, .selected, rfl, rfl, fun other => ?_⟩
      cases other <;> simp [Way.Taken, Node.morphed, generic, unvisited, Opcode.isMachine]

/-- What every record keeps, a run keeps. -/
theorem Steps.of_calls (Kept : Session → Prop)
    (step : ∀ {session : Session} {call : SessionCall} {way : Way}, call.way? = some way →
      Kept session → Kept (call.apply session))
    (steps : target.Steps ids before after) (start : Kept before.session) : Kept after.session := by
  induction steps with
  | nil => exact start
  | cons turn _ inductionHypothesis =>
      apply inductionHypothesis
      cases turn with
      | kept _ _ _ same => exact same ▸ start
      | turned _ unvisited becomes _ session =>
          obtain ⟨call, way, rfl, records, _⟩ := becomes.exists_call unvisited
          rw [session]
          exact step records start

end Target

/-! ### Positions that meet a condition -/

/-- Two conditions that agree but for one position. -/
theorem countP_range_eq_add {p q : Nat → Bool} {id bound : Nat} (inside : id < bound)
    (agree : ∀ other, other ≠ id → p other = q other) (off : q id = false) :
    (List.range bound).countP p = (List.range bound).countP q + (p id).toNat := by
  have split := List.perm_cons_erase (List.mem_range.mpr inside)
  have rest : ((List.range bound).erase id).countP p = ((List.range bound).erase id).countP q := by
    apply List.countP_congr
    intro other later
    rw [agree other (List.nodup_range.mem_erase_iff.mp later).1]
  rw [split.countP_eq p, split.countP_eq q, List.countP_cons, List.countP_cons, rest, off]
  cases p id <;> rfl

/-- Positions past the end count for nothing. -/
theorem countP_range_of_le {p : Nat → Bool} {size bound : Nat} (large : size ≤ bound)
    (past : ∀ other, size ≤ other → p other = false) :
    (List.range bound).countP p = (List.range size).countP p := by
  obtain ⟨more, rfl⟩ := Nat.exists_eq_add_of_le large
  rw [List.range_add, List.countP_append, Nat.add_eq_left, List.countP_eq_zero]
  intro other member
  obtain ⟨offset, _, rfl⟩ := List.mem_map.mp member
  rw [past _ (Nat.le_add_right _ _)]
  exact Bool.false_ne_true

/-! ### Counting nodes -/

namespace Dag

/-- Whether the node at a position has not had its turn. -/
def isUnvisitedAt (dag : Dag) (id : NodeId) : Bool :=
  (dag.node? id).any fun node => node.state == .unvisited

/-- How many nodes have not had their turn. -/
def unvisitedCount (dag : Dag) : Nat :=
  dag.ids.countP dag.isUnvisitedAt

/-- Whether the node at a position went a way between two graphs. -/
def goes (before after : Dag) (way : Way) (id : NodeId) : Bool :=
  (before.node? id).any fun old => (after.node? id).any fun new => decide (way.Taken old new)

/-- How many nodes went a way between two graphs. -/
def went (before after : Dag) (way : Way) : Nat :=
  before.ids.countP (before.goes after way)

variable {dag before after : Dag} {id : NodeId} {way : Way}

theorem isUnvisitedAt_iff :
    dag.isUnvisitedAt id = true ↔
      ∃ node, dag.shape.node? id = some node ∧ node.state = .unvisited := by
  simp [isUnvisitedAt, Option.any_eq_true]

theorem goes_iff :
    before.goes after way id = true ↔ ∃ old new, before.shape.node? id = some old ∧
      after.shape.node? id = some new ∧ way.Taken old new := by
  have sameWay : ∀ old new : Node, way.Taken old.shape new.shape ↔ way.Taken old new := by
    intro old new
    cases way <;> exact Iff.rfl
  simp [goes, Option.any_eq_true, sameWay]

/-- A node that is the same in both graphs went no way. -/
theorem goes_of_same (same : before.shape.node? id = after.shape.node? id) :
    before.goes after way id = false := by
  by_contra moved
  obtain ⟨old, new, oldThere, newThere, taken⟩ := goes_iff.mp (eq_true_of_ne_false moved)
  cases (oldThere.symm.trans same).trans newThere
  exact way.not_taken_self _ taken

/-- A node that was not there went no way. -/
theorem goes_of_none (nothing : before.shape.node? id = none) :
    before.goes after way id = false := by
  by_contra moved
  obtain ⟨_, _, there, _⟩ := goes_iff.mp (eq_true_of_ne_false moved)
  cases nothing.symm.trans there

theorem isUnvisitedAt_of_visited {node : Node} (there : dag.shape.node? id = some node)
    (visited : node.state ≠ .unvisited) : dag.isUnvisitedAt id = false := by
  by_contra waits
  obtain ⟨found, isThere, unvisited⟩ := isUnvisitedAt_iff.mp (eq_true_of_ne_false waits)
  cases there.symm.trans isThere
  exact visited unvisited

theorem isUnvisitedAt_of_none (nothing : dag.shape.node? id = none) :
    dag.isUnvisitedAt id = false := by
  by_contra waits
  obtain ⟨_, there, _⟩ := isUnvisitedAt_iff.mp (eq_true_of_ne_false waits)
  cases nothing.symm.trans there

/-- There is no node past the end. -/
theorem shape_node?_of_size_le (outside : dag.size ≤ id) : dag.shape.node? id = none :=
  List.getElem?_eq_none (Nat.le_trans (Nat.le_of_eq dag.size_shape) outside)

end Dag

namespace Target

variable {Features : Type} {target : Target Features} {id : NodeId}
  {first before middle after last : Run} {ids : List NodeId} {way : Way} {bound : Nat}

/-- A turn moves a node from those that will have gone a way to those that are counted for it. The
other nodes are as they were, or have been added in their final form. -/
theorem Step.counts (step : target.Step id before middle) (steps : target.Steps ids middle last)
    (large : last.dag.size ≤ bound) :
    middle.session.stats.nodes way + (List.range bound).countP (middle.dag.goes last.dag way) =
      before.session.stats.nodes way +
        (List.range bound).countP (before.dag.goes last.dag way) := by
  cases step with
  | kept _ _ sameDag sameSession => rw [sameDag, sameSession]
  | @turned node change leaves _ found unvisited becomes shape session =>
      have changed := node?_of_turned found shape
      have final := steps.visited changed (becomes.visited _)
      have inside : id < bound := by
        have there := Dag.lt_size_of_node? final
        rw [Dag.size_shape] at there
        exact Nat.lt_of_lt_of_le there large
      obtain ⟨call, taken, rfl, records, goes⟩ := becomes.exists_call unvisited
      have stays : middle.dag.goes last.dag way id = false :=
        Dag.goes_of_same (changed.trans final.symm)
      have agree : ∀ other, other ≠ id →
          before.dag.goes last.dag way other = middle.dag.goes last.dag way other := by
        intro other different
        rcases node?_other_of_turned shape different with same | ⟨nothing, leaf, isNew, there⟩
        · rw [Bool.eq_iff_iff, Dag.goes_iff, Dag.goes_iff, same]
        · obtain ⟨_, _, _, _, rfl⟩ := becomes.leaf leaf isNew
          have still := steps.visited there (by simp [Node.leaf])
          rw [Dag.goes_of_none nothing, Dag.goes_of_same (there.trans still.symm)]
      have own : before.dag.goes last.dag way id = decide (way = taken) := by
        rw [Bool.eq_iff_iff, Dag.goes_iff, Dag.shape_found found, final, decide_eq_true_iff,
          ← goes way]
        simp
      rw [countP_range_eq_add inside agree stays, session, SessionCall.nodes_apply records, own]
      by_cases isWay : way = taken
      · simp only [isWay, if_true, decide_true, Bool.toNat_true]
        omega
      · simp only [isWay, if_false, decide_false, Bool.toNat_false, Nat.add_zero]

/-- A turn moves a node from those that have not had their turn to those that are counted. -/
theorem Step.accounted (step : target.Step id before after) (large : after.dag.size ≤ bound) :
    after.session.stats.allNodes + (List.range bound).countP after.dag.isUnvisitedAt =
      before.session.stats.allNodes + (List.range bound).countP before.dag.isUnvisitedAt := by
  have grows := step.size_le
  cases step with
  | kept _ _ sameDag sameSession => rw [sameDag, sameSession]
  | @turned node change leaves _ found unvisited becomes shape session =>
      have inside : id < bound :=
        Nat.lt_of_lt_of_le (Dag.lt_size_of_node? found) (Nat.le_trans grows large)
      obtain ⟨call, taken, rfl, records, _⟩ := becomes.exists_call unvisited
      have done : after.dag.isUnvisitedAt id = false :=
        Dag.isUnvisitedAt_of_visited (node?_of_turned found shape) (becomes.visited _)
      have agree : ∀ other, other ≠ id →
          before.dag.isUnvisitedAt other = after.dag.isUnvisitedAt other := by
        intro other different
        rcases node?_other_of_turned shape different with same | ⟨nothing, leaf, isNew, there⟩
        · rw [Bool.eq_iff_iff, Dag.isUnvisitedAt_iff, Dag.isUnvisitedAt_iff, same]
        · obtain ⟨_, _, _, _, rfl⟩ := becomes.leaf leaf isNew
          rw [Dag.isUnvisitedAt_of_none nothing,
            Dag.isUnvisitedAt_of_visited there (by simp [Node.leaf])]
      have own : before.dag.isUnvisitedAt id = true :=
        Dag.isUnvisitedAt_iff.mpr ⟨_, Dag.shape_found found, unvisited⟩
      rw [countP_range_eq_add inside agree done, session,
        SessionCall.allNodes_apply records, own, Bool.toNat_true]
      omega

/-- Along the turns, the count of a way and the nodes that are still to go it have one sum. -/
theorem Steps.counts_and_goes (steps : target.Steps ids first last) (way : Way) :
    last.session.stats.nodes way + (List.range last.dag.size).countP (last.dag.goes last.dag way) =
      first.session.stats.nodes way +
        (List.range last.dag.size).countP (first.dag.goes last.dag way) := by
  induction steps with
  | nil => rfl
  | cons step rest inductionHypothesis =>
      exact inductionHypothesis.trans (step.counts rest (Nat.le_refl _))

/-- Over a run, the count of a way grows by the nodes that went it. -/
theorem Steps.counts (steps : target.Steps ids first last) (way : Way) :
    last.session.stats.nodes way =
      first.session.stats.nodes way + first.dag.went last.dag way := by
  have none : (List.range last.dag.size).countP (last.dag.goes last.dag way) = 0 := by
    rw [List.countP_eq_zero]
    intro id _
    rw [Dag.goes_of_same rfl]
    exact Bool.false_ne_true
  have sum := steps.counts_and_goes way
  rw [none, Nat.add_zero, countP_range_of_le steps.size_le
    fun other past => Dag.goes_of_none (Dag.shape_node?_of_size_le past)] at sum
  exact sum

/-- Over a run, the nodes that are counted and those that have not had their turn have one sum. -/
theorem Steps.accounted (steps : target.Steps ids first last) :
    last.session.stats.allNodes + last.dag.unvisitedCount =
      first.session.stats.allNodes + first.dag.unvisitedCount := by
  induction steps with
  | nil => rfl
  | @cons _ _ before after _ step _ inductionHypothesis =>
      have sum := step.accounted (Nat.le_refl after.dag.size)
      rw [countP_range_of_le step.size_le
        fun other past => Dag.isUnvisitedAt_of_none (Dag.shape_node?_of_size_le past)] at sum
      exact inductionHypothesis.trans sum

/-- No record of a run starts or ends a function. -/
theorem Steps.function (steps : target.Steps ids first last) :
    last.session.current = first.session.current ∧
      last.session.stats.functionsSelected = first.session.stats.functionsSelected := by
  refine steps.of_calls (fun session => session.current = first.session.current ∧
    session.stats.functionsSelected = first.session.stats.functionsSelected) ?_ ⟨rfl, rfl⟩
  intro session call way records ⟨current, functions⟩
  obtain ⟨sameCurrent, sameFunctions⟩ := call.function_apply records
  exact ⟨sameCurrent.trans current, sameFunctions.trans functions⟩

theorem Steps.balanced (steps : target.Steps ids first last)
    (balanced : first.session.stats.Balanced) : last.session.stats.Balanced :=
  steps.of_calls (fun session => session.stats.Balanced)
    (fun _ balanced => SessionCall.balanced balanced _) balanced

end Target

/-! ### Sessions -/

/-- The sessions that come from a new one by calls and by runs that return. -/
inductive Recorded : Session → Prop where
  | new : Recorded {}
  | called {session : Session} (recorded : Recorded session) (call : SessionCall) :
      Recorded (call.apply session)
  | selected {Features : Type} {before after : Run} (recorded : Recorded before.session)
      (target : Target Features) (name : String) (order : List NodeId)
      (result : (target.selectFunction name order).run before = .ok () after) :
      Recorded after.session
  | declined {Features : Type} {before after : Run} {error : SelectError}
      (recorded : Recorded before.session) (target : Target Features) (name : String)
      (order : List NodeId)
      (result : (target.selectFunction name order).run before = .error (.declined error) after) :
      Recorded after.session

/-- The hits of a recorded session add up to the nodes that patterns covered. -/
theorem Recorded.balanced {session : Session} (recorded : Recorded session) :
    session.stats.Balanced := by
  induction recorded with
  | new => exact ⟨List.nodup_nil, rfl⟩
  | called _ call inductionHypothesis => exact SessionCall.balanced inductionHypothesis call
  | @selected _ before after _ target name order result inductionHypothesis =>
      obtain ⟨first, last, _, firstSession, steps, _, _, lastSession⟩ :=
        (target.selectFunction_steps name order before).of_ok result
      have begun : first.session.stats.Balanced := by
        rw [firstSession]
        exact SessionCall.balanced inductionHypothesis (.begin name)
      rw [lastSession]
      exact SessionCall.balanced (steps.balanced begun) .finish
  | @declined _ before after error _ target name order result inductionHypothesis =>
      obtain ⟨visited, first, last, _, firstSession, _, steps, _, lastSession⟩ :=
        (target.selectFunction_steps name order before).of_error result error rfl
      have begun : first.session.stats.Balanced := by
        rw [firstSession]
        exact SessionCall.balanced inductionHypothesis (.begin name)
      rw [lastSession]
      exact SessionCall.balanced (steps.balanced begun) .abort

/-- The end of a function that was started counts it, and no node. -/
theorem Session.finish_of_current {session : Session} {name : String}
    (current : session.current = some name) :
    session.finish.stats =
        { session.stats with functionsSelected := session.stats.functionsSelected + 1 } ∧
      session.finish.current = none := by
  simp [Session.finish, current]

/-- In a session that comes from a new one by calls and runs, the hits of all patterns add up to the
nodes that patterns covered. Each run counts every node that went a way, and only those, for that
way. A run that succeeds counts all nodes that had not had their turn and one function; one that
declines counts no function. No function is being selected after either. -/
theorem statistics_account :
    (∀ session, Recorded session → (session.stats.hits.map Prod.fst).Nodup ∧
      (session.stats.hits.map Prod.snd).sum = session.stats.nodesSelected) ∧
    ∀ {Features : Type} (target : Target Features) (name : String) (order : List NodeId)
      (run after : Run),
      ((target.selectFunction name order).run run = .ok () after →
        (∀ way, after.session.stats.nodes way =
          run.session.stats.nodes way + run.dag.went after.dag way) ∧
        after.session.stats.allNodes = run.session.stats.allNodes + run.dag.unvisitedCount ∧
        after.session.stats.functionsSelected = run.session.stats.functionsSelected + 1 ∧
        after.session.current = none) ∧
      (∀ error, (target.selectFunction name order).run run = .error (.declined error) after →
        (∀ way, after.session.stats.nodes way =
          run.session.stats.nodes way + run.dag.went after.dag way) ∧
        after.session.stats.functionsSelected = run.session.stats.functionsSelected ∧
        after.session.current = none) := by
  refine ⟨fun session recorded => ⟨recorded.balanced.distinct, recorded.balanced.sum⟩, ?_⟩
  intro Features target name order run after
  have ends := target.selectFunction_steps name order run
  constructor
  · intro selects
    obtain ⟨first, last, firstDag, firstSession, steps, finished, lastDag, lastSession⟩ :=
      ends.of_ok selects
    have started : last.session.current = some name := by
      rw [steps.function.1, firstSession]
      rfl
    obtain ⟨stats, current⟩ := Session.finish_of_current started
    have noneWaits : last.dag.unvisitedCount = 0 := by
      rw [Dag.unvisitedCount, List.countP_eq_zero]
      intro id _ waits
      obtain ⟨node, there, unvisited⟩ := Option.any_eq_true _ _ |>.mp waits
      exact finished id node there (eq_of_beq unvisited)
    have all := steps.accounted
    rw [noneWaits, Nat.add_zero, firstDag, firstSession] at all
    refine ⟨fun way => ?_, ?_, ?_, ?_⟩
    · have counts := steps.counts way
      rw [firstDag, firstSession] at counts
      rw [lastSession, lastDag, stats]
      exact counts
    · rw [lastSession, stats]
      exact all
    · rw [lastSession, stats, steps.function.2, firstSession]
      rfl
    · rw [lastSession]
      exact current
  · intro error declines
    obtain ⟨visited, first, last, firstDag, firstSession, _, steps, lastDag, lastSession⟩ :=
      ends.of_error declines error rfl
    refine ⟨fun way => ?_, ?_, ?_⟩
    · have counts := steps.counts way
      rw [firstDag, firstSession] at counts
      rw [lastSession, lastDag]
      exact counts
    · have functions := steps.function.2
      rw [firstSession] at functions
      rw [lastSession]
      exact functions
    · rw [lastSession]
      rfl

/-- The return has its turn in a run that declines, and the other nodes in one that succeeds. -/
theorem selects_doubledConstant_twice :
    Ends (fun _ _ => False)
      (fun failure middle => failure = .declined (.unvisited 0) ∧
        middle.session.stats.allNodes = 1 ∧ middle.dag.unvisitedCount = 3 ∧
        Ends (fun _ after => middle.dag.went after.dag .selected = 2) (fun _ _ => False)
          ((Z80.Processor.plain.target.selectFunction "doubled" [0, 1, 2, 3]).run middle))
      ((Z80.Processor.plain.target.selectFunction "doubled" [3]).run
        { dag := doubledConstant }) := by
  decide +kernel

/-- Over the two runs, every node of the graph is counted once and the function is counted once. -/
theorem statistics_doubledConstant :
    ∃ middle after : Run,
      (Z80.Processor.plain.target.selectFunction "doubled" [3]).run { dag := doubledConstant } =
        .error (.declined (.unvisited 0)) middle ∧
      (Z80.Processor.plain.target.selectFunction "doubled" [0, 1, 2, 3]).run middle =
        .ok () after ∧
      Recorded after.session ∧
      (after.session.stats.hits.map Prod.snd).sum = after.session.stats.nodesSelected ∧
      after.session.stats.allNodes = doubledConstant.size ∧
      after.session.stats.nodesSelected = middle.session.stats.nodesSelected + 2 ∧
      middle.session.stats.functionsSelected = 0 ∧ after.session.stats.functionsSelected = 1 ∧
      middle.session.current = none ∧ after.session.current = none := by
  obtain ⟨_, middle, declines, rfl, one, three, finishes⟩ :=
    selects_doubledConstant_twice.exists_error
  obtain ⟨_, after, selects, sum⟩ := finishes.exists_ok
  have recorded : Recorded after.session :=
    .selected (.declined .new _ _ _ declines) _ _ _ selects
  obtain ⟨hits, runs⟩ := statistics_account
  obtain ⟨_, noFunction, middleCurrent⟩ := (runs _ _ _ _ middle).2 _ declines
  obtain ⟨ways, all, oneFunction, current⟩ := (runs _ _ _ _ after).1 selects
  refine ⟨middle, after, declines, selects, recorded, (hits _ recorded).2, ?_, ?_, noFunction, ?_,
    middleCurrent, current⟩
  · rw [all, one, three]
    rfl
  · have selected := ways .selected
    rw [sum] at selected
    exact selected
  · rw [oneFunction, noFunction]

end DagSelect
