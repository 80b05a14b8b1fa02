/-
Module: DagSelect.Proofs.Acyclicity
Purpose: Selection makes no cycles. A node that is covered takes over operands of what it folds, so
  an edge between two nodes that were there may stand for a longer path of the graph that selection
  began with, but never for anything else; and leaves that were added have no operands. Nothing is
  asked of the use counts, nor of the order.
Main exports: Dag.Shortens, Dag.Shortens.transGen, Dag.Shortens.acyclic,
  Dag.Shortens.step, Target.Steps.shortens, Z80.acyclic_of_selectFunction
-/
import DagSelect.Proofs.Reading
import DagSelect.Proofs.Step
import DagSelect.Proofs.Turn
import DagSelect.Proofs.Z80.Availability
import DagSelect.Proofs.Z80.Table

namespace DagSelect

/-- A graph that was read has no cycles, since operands are named before they are used. -/
theorem LabelledDag.Drafted.acyclic {graph : LabelledDag} {machine : String → Option MachineOp}
    (drafted : graph.Drafted machine) : graph.dag.Acyclic := by
  have ranked : graph.dag.Ranked id := by
    rintro user _ ⟨value, member, rfl⟩
    exact drafted.earlier user value member
  exact ranked.acyclic

/-! ### Edges of one turn -/

namespace Target

variable {Features : Type} {target : Target Features} {dag : Dag} {id user operand : NodeId}
  {node : Node} {change : Node → Node} {leaves : List Node} {record : Session → Session}
  {before after : Run}

/-- The operands of a node after its turn were beneath it, or are new leaves. -/
theorem Becomes.beneath (becomes : target.Becomes dag id node change leaves record)
    (folds : target.Folds) (found : dag.node? id = some node) {value : Value}
    (member : value ∈ (change node.shape).operands) :
    dag.Beneath id value ∨ dag.size ≤ value.node := by
  cases becomes with
  | accepted => exact Or.inl (.of_mem (Dag.mem_operandsOf.mpr ⟨node, found, member⟩))
  | discarded => cases member
  | passed => exact Or.inl (.of_mem (Dag.mem_operandsOf.mpr ⟨node, found, member⟩))
  | covered _ _ _ finds covers _ =>
      obtain ⟨listed, _⟩ := cover_finds finds
      exact (Capture.mem_place_cases member).imp (covers.beneath (folds _ listed)) And.left

/-- An edge after a step was there, or leads from the node whose turn it was to something that was
beneath it or to a new leaf. -/
theorem Step.depends_cases (step : target.Step id before after) (folds : target.Folds)
    (edge : after.dag.Depends user operand) :
    before.dag.Depends user operand ∨
    (∃ node, user = id ∧ before.dag.node? id = some node ∧ node.state = .unvisited ∧
      (Relation.TransGen before.dag.Depends id operand ∨ before.dag.size ≤ operand)) := by
  cases step with
  | kept _ _ same _ => exact Or.inl (same ▸ edge)
  | @turned node change leaves _ found unvisited becomes shape _ =>
      rw [← Dag.depends_shape, shape] at edge
      rcases Dag.depends_update_cases edge with ⟨same, old, oldFound, value, member, rfl⟩ |
        ⟨_, edge⟩
      · rw [Dag.node?_extend _ (Dag.shape_found found)] at oldFound
        cases oldFound
        exact Or.inr ⟨node, same, found, unvisited,
          (becomes.beneath folds found member).imp_left Dag.Beneath.transGen⟩
      · rcases Dag.depends_extend_cases edge with stayed | ⟨leaf, isNew, _, member, _⟩
        · exact Or.inl (Dag.depends_shape.mp stayed)
        · obtain ⟨_, _, _, _, rfl⟩ := becomes.leaf leaf isNew
          cases member

end Target

/-! ### Edges of a run -/

/-- The graph has come out of another one by turns of its nodes. What was added has had its turn and
has no operands, and an edge between two of the first nodes was a path. -/
structure Dag.Shortens (input dag : Dag) : Prop where
  grown : input.size ≤ dag.size
  added : ∀ id node, input.size ≤ id → dag.shape.node? id = some node → node.state ≠ .unvisited
  users : ∀ user operand, dag.Depends user operand → user < input.size
  paths : ∀ user operand, dag.Depends user operand → operand < input.size →
    Relation.TransGen input.Depends user operand

namespace Dag.Shortens

variable {Features : Type} {target : Target Features} {input dag : Dag} {id user operand : NodeId}
  {before after : Run}

theorem refl (dag : Dag) : dag.Shortens dag where
  grown := Nat.le_refl _
  added id node outside found := by
    have inside := lt_size_of_node? found
    rw [size_shape] at inside
    exact absurd inside (Nat.not_lt.mpr outside)
  users user operand edge := by
    obtain ⟨value, member, _⟩ := edge
    obtain ⟨node, found, _⟩ := mem_operandsOf.mp member
    exact lt_size_of_node? found
  paths user operand edge _ := .single edge

/-- A path was a path as well: all nodes on the way have operands, so they were there. -/
theorem transGen (shortens : input.Shortens dag) (path : Relation.TransGen dag.Depends user operand)
    (there : operand < input.size) : Relation.TransGen input.Depends user operand := by
  induction path with
  | single edge => exact shortens.paths _ _ edge there
  | tail _ edge inductionHypothesis =>
      exact (inductionHypothesis (shortens.users _ _ edge)).trans (shortens.paths _ _ edge there)

/-- A cycle runs through nodes that were there, so it was a cycle before. -/
theorem acyclic (shortens : input.Shortens dag) (acyclic : input.Acyclic) : dag.Acyclic := by
  intro id cycle
  obtain ⟨_, edge, _⟩ := Relation.TransGen.head'_iff.mp cycle
  exact acyclic id (shortens.transGen cycle (shortens.users _ _ edge))

theorem step (shortens : input.Shortens before.dag) (folds : target.Folds)
    (step : target.Step id before after) : input.Shortens after.dag := by
  have edges : ∀ user operand, after.dag.Depends user operand →
      user < input.size ∧
        (operand < input.size → Relation.TransGen input.Depends user operand) := by
    intro user operand edge
    rcases step.depends_cases folds edge with stayed | ⟨node, rfl, found, unvisited, origin⟩
    · exact ⟨shortens.users _ _ stayed, shortens.paths _ _ stayed⟩
    · constructor
      · by_contra outside
        exact shortens.added _ _ (Nat.not_lt.mp outside) (shape_found found) unvisited
      · intro there
        rcases origin with path | behind
        · exact shortens.transGen path there
        · exact absurd there (Nat.not_lt.mpr (Nat.le_trans shortens.grown behind))
  refine ⟨Nat.le_trans shortens.grown step.size_le, ?_, fun _ _ edge => (edges _ _ edge).1,
    fun _ _ edge => (edges _ _ edge).2⟩
  intro other node outside found isUnvisited
  exact shortens.added other node outside (step.unvisited found isUnvisited) isUnvisited

end Dag.Shortens

theorem Target.Steps.shortens {Features : Type} {target : Target Features} {ids : List NodeId}
    {first last : Run} {input : Dag} (steps : target.Steps ids first last) (folds : target.Folds)
    (shortens : input.Shortens first.dag) : input.Shortens last.dag := by
  induction steps with
  | nil => exact shortens
  | cons step _ inductionHypothesis => exact inductionHypothesis (shortens.step folds step)

namespace Z80

/-- Selection keeps a graph without cycles free of them, for every graph, every order and every
outcome; and every edge that it leaves between two nodes of the graph stands for a path of operands
that led from the one to the other. -/
theorem acyclic_of_selectFunction (processor : Processor) {name : String} {order : List NodeId}
    {run after : Run} (acyclic : run.dag.Acyclic)
    (ended : (processor.target.selectFunction name order).run run = .ok () after ∨
      ∃ error, (processor.target.selectFunction name order).run run =
        .error (.declined error) after) :
    after.dag.Acyclic ∧
    ∀ user operand, user < run.dag.size → operand < run.dag.size →
      after.dag.Depends user operand → Relation.TransGen run.dag.Depends user operand := by
  obtain ⟨_, first, last, firstDag, lastDag, steps⟩ := Target.exists_steps_of_selectFunction ended
  have shortens : run.dag.Shortens after.dag := by
    rw [lastDag]
    exact steps.shortens (target_folds processor) (firstDag ▸ Dag.Shortens.refl run.dag)
  exact ⟨shortens.acyclic acyclic, fun user operand _ there edge => shortens.paths _ _ edge there⟩

/-- The instruction uses the loaded byte itself, which was an operand of the shift that it took
in. -/
theorem selects_shiftInOneGraph_depends :
    Ends (fun _ run => (⟨2, 0⟩ : Value) ∈ run.dag.operandsOf 5) (fun _ _ => False)
      ((Processor.undocumented.target.selectFunction "shift" shiftInOneGraph.order).run
        { dag := shiftInOneGraph.dag }) := by
  decide +kernel

/-- There was no such edge, but a path through the shift. -/
theorem path_shiftInOneGraph :
    ∃ after : Run,
      (Processor.undocumented.target.selectFunction "shift" shiftInOneGraph.order).run
        { dag := shiftInOneGraph.dag } = .ok () after ∧
      after.dag.Acyclic ∧ after.dag.Depends 5 2 ∧
      (∀ value ∈ shiftInOneGraph.dag.operandsOf 5, value.node ≠ 2) ∧
      Relation.TransGen shiftInOneGraph.dag.Depends 5 2 := by
  obtain ⟨_, after, selects, uses⟩ := selects_shiftInOneGraph_depends.exists_ok
  obtain ⟨drafted, _⟩ := readDag_drafted readDag_shiftInOneText
  obtain ⟨acyclic, paths⟩ :=
    acyclic_of_selectFunction Processor.undocumented drafted.acyclic (Or.inl selects)
  have edge : after.dag.Depends 5 2 := ⟨⟨2, 0⟩, uses, rfl⟩
  exact ⟨after, selects, acyclic, edge, by decide, paths 5 2 (by decide) (by decide) edge⟩

end Z80

end DagSelect
