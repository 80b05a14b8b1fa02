/-
Module: DagSelect.Proofs.Stage
Purpose: A run in a dependency order, between two turns. The nodes that are waiting are as they were
  and use only each other, so a match sees the same of them in the input and in every graph on the
  way. Two processors that select the same input can be compared turn by turn: if the first one
  succeeds and never leaves the second one stuck, the second one succeeds as well.
Main exports: Stage, Stage.start, Stage.visit, Stage.alike, Stage.not_mem_of_depends,
  Target.Visit.of_machine, Target.Visit.of_generic, Target.not_stuck_of_covered,
  Target.exists_ok_of_simulation
-/
import DagSelect.Proofs.Advance
import DagSelect.Proofs.Liveness
import DagSelect.Proofs.View

namespace DagSelect

/-- A graph on the way from an input, with the nodes that wait for their turn. Every node that has
had its turn ranks above those that wait. -/
structure Stage (input : Dag) (position : NodeId → Nat) (waiting : List NodeId) (dag : Dag) :
    Prop where
  sorted : input.Ranked (rankBy input.size position)
  counted : dag.Counted
  tended : Tended input (rankBy input.size position) waiting dag
  advances : input.Advances dag
  root : dag.root = input.root
  inside : ∀ id ∈ waiting, id < input.size
  falling : waiting.Pairwise fun first later =>
    rankBy input.size position later < rankBy input.size position first
  above : ∀ id ∈ waiting, ∀ other < input.size, other ∉ waiting →
    rankBy input.size position id < rankBy input.size position other

namespace Stage

variable {input dag : Dag} {position : NodeId → Nat} {waiting : List NodeId} {id : NodeId}

/-- Before the first turn every node waits. -/
theorem start {order : List NodeId} (counted : input.Counted) (full : input.Full)
    (untouched : ∀ id node, input.node? id = some node → node.state = .unvisited)
    (isOrder : input.IsDependencyOrder order) :
    Stage input order.idxOf order.reverse input where
  sorted := counted.ranked isOrder.sorted
  counted := counted
  tended := .start counted isOrder
  advances := .refl untouched full
  root := rfl
  inside _ member := isOrder.lt_size (List.mem_reverse.mp member)
  falling := isOrder.falling
  above _ _ _ inside absent :=
    absurd (List.mem_reverse.mpr (isOrder.mem inside)) absent

/-- A node that waits is the one of the input. -/
theorem exists_found (stage : Stage input position waiting dag) (member : id ∈ waiting) :
    ∃ node, dag.node? id = some node ∧
      ∃ uses, input.node? id = some { node with uses := uses } := by
  obtain ⟨node, found⟩ := Dag.exists_node?_of_lt
    (Nat.lt_of_lt_of_le (stage.inside id member) stage.tended.grown)
  exact ⟨node, found, stage.tended.exists_input member found⟩

/-- A node that waits has not had its turn. -/
theorem unvisited {node : Node}
    (untouched : ∀ id node, input.node? id = some node → node.state = .unvisited)
    (stage : Stage input position waiting dag) (member : id ∈ waiting)
    (found : dag.node? id = some node) : node.state = .unvisited := by
  obtain ⟨_, inputFound⟩ := stage.tended.exists_input member found
  have state := untouched id _ inputFound
  exact state

/-- What a node that waits uses waits as well. -/
theorem mem_of_depends (stage : Stage input position waiting dag) (member : id ∈ waiting)
    {operand : NodeId} (edge : dag.Depends id operand) (inside : operand < input.size) :
    operand ∈ waiting := by
  by_contra absent
  have lower := stage.tended.ranked id operand edge
  exact Nat.lt_asymm lower (stage.above id member operand inside absent)

/-- What ranks above the node whose turn it is has had its turn. -/
theorem not_mem_of_lt {other : NodeId} (stage : Stage input position (id :: waiting) dag)
    (higher : rankBy input.size position id < rankBy input.size position other) :
    other ∉ id :: waiting := by
  obtain ⟨later, _⟩ := List.pairwise_cons.mp stage.falling
  intro member
  rcases List.mem_cons.mp member with rfl | member
  · exact Nat.lt_irrefl _ higher
  · exact Nat.lt_asymm higher (later other member)

/-- The users of the node whose turn it is have had theirs. -/
theorem not_mem_of_depends {user : NodeId} (stage : Stage input position (id :: waiting) dag)
    (edge : dag.Depends user id) : user ∉ id :: waiting :=
  stage.not_mem_of_lt (stage.tended.ranked user id edge)

/-- Nodes that were added have no operands. -/
theorem lt_size_of_depends {user operand : NodeId} (stage : Stage input position waiting dag)
    (edge : dag.Depends user operand) : user < input.size := by
  have higher := stage.tended.ranked user operand edge
  by_contra behind
  rw [rankBy, rankBy, if_neg behind] at higher
  exact Nat.not_lt_zero _ higher

/-- An operand of a node that waits is the one of the input. -/
theorem operandsOf_eq (stage : Stage input position waiting dag) (member : id ∈ waiting) :
    dag.operandsOf id = input.operandsOf id := by
  rw [← Dag.operandsOf_shape, ← Dag.operandsOf_shape input]
  simp only [Dag.operandsOf, stage.tended.unchanged id member]

/-- A match sees the same of a node that waits as in the input. -/
theorem alike (stage : Stage input position waiting dag) (inputCounted : input.Counted) :
    Dag.Alike (· ∈ waiting) input dag where
  nodes id member := by
    obtain ⟨node, found⟩ := Dag.exists_node?_of_lt (stage.inside id member)
    refine ⟨node.shape, Dag.shape_found found, ?_⟩
    rw [stage.tended.unchanged id member]
    exact Dag.shape_found found
  operands id member value listed := by
    apply stage.mem_of_depends member
    · exact ⟨value, by rwa [stage.operandsOf_eq member], rfl⟩
    · exact (inputCounted.operands id value listed).lt_size

/-- A match sees the same of a node that waits in any two graphs on the way. -/
theorem alike_both {other : Dag} {position' : NodeId → Nat}
    (stage : Stage input position waiting dag) (otherStage : Stage input position' waiting other)
    (inputCounted : input.Counted) : Dag.Alike (· ∈ waiting) dag other where
  nodes id member := by
    obtain ⟨node, inputFound, found⟩ := (stage.alike inputCounted).nodes id member
    refine ⟨node, found, ?_⟩
    rw [otherStage.tended.unchanged id member]
    exact inputFound
  operands id member value listed := by
    rw [stage.operandsOf_eq member] at listed
    exact (stage.alike inputCounted).operands id member value listed

variable {Features : Type} {target : Target Features} {before after : Run}

/-- The turn of a node that waits changes something. -/
theorem turn (untouched : ∀ id node, input.node? id = some node → node.state = .unvisited)
    (stage : Stage input position (id :: waiting) before.dag)
    (visit : target.Visit id before after) :
    ∃ node changed leaves, Turn before.dag after.dag id node changed leaves := by
  rcases visit.turn with ⟨_, node, found, visited⟩ | ⟨node, changed, leaves, turn, _⟩
  · exact absurd (stage.unvisited untouched List.mem_cons_self found) visited
  · exact ⟨node, changed, leaves, turn⟩

/-- One turn leads to the next stage. -/
theorem visit (folds : target.Folds)
    (untouched : ∀ id node, input.node? id = some node → node.state = .unvisited)
    (stage : Stage input position (id :: waiting) before.dag) (visit : target.Visit id before after)
    (counted : after.dag.Counted) : Stage input position waiting after.dag := by
  obtain ⟨later, falling⟩ := List.pairwise_cons.mp stage.falling
  obtain ⟨node, changed, leaves, turn⟩ := stage.turn untouched visit
  constructor
  · exact stage.sorted
  · exact counted
  · exact stage.tended.visit folds untouched stage.inside later visit
  · exact stage.advances.turn turn
  · exact turn.root.trans stage.root
  · exact fun other member => stage.inside other (List.mem_cons_of_mem _ member)
  · exact falling
  · intro other member visited inside absent
    by_cases same : visited = id
    · rw [same]
      exact later other member
    · apply stage.above other (List.mem_cons_of_mem _ member) visited inside
      simp [same, absent]

end Stage

/-! ### The turn of a node that waits -/

namespace Target.Visit

variable {Features : Type} {target : Target Features} {id : NodeId} {before after : Run}
  {node : Node}

/-- An instruction stays as it is. -/
theorem of_machine {op : MachineOp} (visit : target.Visit id before after)
    (found : before.dag.node? id = some node) (unvisited : node.state = .unvisited)
    (machine : node.opcode = .machine op) :
    after.dag.shape = before.dag.shape.update id Node.finished ∧
      after.session = before.session.recordPreselected := by
  cases visit with
  | kept found' visited _ _ =>
      cases found'.symm.trans found
      exact absurd unvisited visited
  | accepted _ _ _ shape session => exact ⟨shape, session⟩
  | discarded found' _ generic _ _ _ =>
      cases found'.symm.trans found
      cases generic.symm.trans machine
  | passed found' _ generic _ _ _ _ =>
      cases found'.symm.trans found
      cases generic.symm.trans machine
  | covered found' _ generic _ _ _ _ _ _ _ =>
      cases found'.symm.trans found
      cases generic.symm.trans machine

/-- A generic node dies if nothing points at it, stays as it is if it needs no selection, and
becomes the instruction of the pattern that covers it otherwise. -/
theorem of_generic {op : GenericOp} (visit : target.Visit id before after)
    (found : before.dag.node? id = some node) (unvisited : node.state = .unvisited)
    (generic : node.opcode = .generic op) :
    (¬ before.dag.Pointed id ∧ after.dag.shape = before.dag.shape.update id Node.discarded ∧
      after.session = before.session.recordDead) ∨
    (before.dag.Pointed id ∧ op.needsNoSelection = true ∧
      after.dag.shape = before.dag.shape.update id Node.finished ∧
      after.session = before.session.recordPassthrough) ∨
    (before.dag.Pointed id ∧ op.needsNoSelection = false ∧
      ∃ (pattern : Pattern Features) (own rest : List Capture),
        (target.cover before.dag id op).Finds (pattern, own ++ rest) ∧
        pattern.Covers before.dag target.addressTypes id node own rest ∧
        (∀ capture ∈ own ++ rest, capture.Makes) ∧
        after.dag.shape = (before.dag.shape.extend (Capture.leaves (own ++ rest))).update id
          (Node.morphed pattern.emit (Capture.place before.dag.size (own ++ rest))) ∧
        after.session = before.session.recordPattern pattern.name) := by
  cases visit with
  | kept found' visited _ _ =>
      cases found'.symm.trans found
      exact absurd unvisited visited
  | accepted found' _ machine _ _ =>
      cases found'.symm.trans found
      cases generic.symm.trans machine
  | discarded _ _ _ unused shape session => exact Or.inl ⟨unused, shape, session⟩
  | passed found' _ generic' used needsNone shape session =>
      cases found'.symm.trans found
      cases generic.symm.trans generic'
      exact Or.inr (Or.inl ⟨used, needsNone, shape, session⟩)
  | covered found' _ generic' used needs finds covers makes shape session =>
      cases found'.symm.trans found
      cases generic.symm.trans generic'
      exact Or.inr (Or.inr ⟨used, needs, _, _, _, finds, covers, makes, shape, session⟩)

end Target.Visit

namespace Target

variable {Features : Type} {target : Target Features} {dag : Dag} {id : NodeId}

/-- A node whose operands can all be made does not stop selection, if it is covered as soon as it
has to be. -/
theorem not_stuck_of_covered {known : Value → Prop}
    (answers : dag.Answers target.addressTypes (fun _ => False) known)
    (isKnown : known { node := id }) (inside : id < dag.size)
    (covered : ∀ node op, dag.node? id = some node → node.opcode = .generic op →
      op.needsNoSelection = false → dag.Pointed id →
      ∃ pattern captures, (target.cover dag id op).Finds (pattern, captures) ∧
        ∀ capture ∈ captures, capture.Makes) :
    (∀ node op, ¬ target.Refuses id dag node op) ∧ ∀ cause, ¬ target.Breaks id dag cause := by
  constructor
  · intro node op refuses
    obtain ⟨_, _, finds, _⟩ :=
      covered node op refuses.found refuses.generic refuses.needs refuses.used
    cases finds.symm.trans refuses.uncovered
  · intro cause breaks
    cases breaks with
    | missing failed =>
        obtain ⟨node, found⟩ := Dag.exists_node?_of_lt inside
        rw [Dag.fetch_eq_ok_iff.mpr found] at failed
        cases failed
    | matching found generic needs failed =>
        exact confined_firstMatch answers isKnown _ cause failed
    | emitting found unvisited generic used needs finds covers captured faults =>
        obtain ⟨_, _, finds', makes⟩ := covered _ _ found generic needs used
        cases Option.some.inj (Except.ok.inj (finds.symm.trans finds'))
        obtain ⟨type, isConstant, noInteger, _⟩ := faults
        have integer := makes _ captured type isConstant
        exact absurd (noInteger.symm.trans integer) Bool.false_ne_true

/-- If the search does not break off and a pattern that the processor has matches, something is
found. -/
theorem exists_finds {known : Value → Prop} {pattern : Pattern Features} {captures : List Capture}
    (answers : dag.Answers target.addressTypes (fun _ => False) known)
    (isKnown : known { node := id }) (listed : pattern ∈ target.table.patterns)
    (guarded : pattern.guard.holds target.features = true)
    (matched : (pattern.matchNode dag target.addressTypes id).Finds captures) :
    ∃ found captures', (target.cover dag id pattern.op).Finds (found, captures') := by
  have notNone : (target.cover dag id pattern.op).result ≠ .ok none :=
    firstMatch_ne_none (PatternTable.mem_candidates_iff.mpr ⟨listed, rfl⟩) guarded matched
  obtain ⟨answer, found⟩ :=
    (confined_firstMatch answers isKnown (target.table.candidates pattern.op)).exists_ok
  cases answer with
  | none => exact absurd found notNone
  | some answer => exact ⟨answer.1, answer.2, found⟩

/-- The turns of two lists, one after the other. -/
theorem Visits.of_append {ids rest : List NodeId} {first last : Run}
    (visits : target.Visits (ids ++ rest) first last) :
    ∃ middle, target.Visits ids first middle ∧ target.Visits rest middle last := by
  induction ids generalizing first with
  | nil => exact ⟨first, .nil, visits⟩
  | cons id ids inductionHypothesis =>
      cases visits with
      | cons visit counted visits =>
          obtain ⟨middle, before, after⟩ := inductionHypothesis visits
          exact ⟨middle, .cons visit counted before, after⟩

section Simulation

variable {first second : Target Features}

/-- What two turns of a node keep, two runs over the same nodes keep. -/
theorem related_of_visits {related : List NodeId → Dag → Dag → Prop}
    (step : ∀ {id rest before after before' after'}, related (id :: rest) before.dag before'.dag →
      first.Visit id before after → after.dag.Counted → second.Visit id before' after' →
      after'.dag.Counted → related rest after.dag after'.dag)
    {ids rest : List NodeId} {start stop start' stop' : Run}
    (begins : related (ids ++ rest) start.dag start'.dag) (visits : first.Visits ids start stop)
    (visits' : second.Visits ids start' stop') : related rest stop.dag stop'.dag := by
  induction visits generalizing start' with
  | nil =>
      cases visits'
      exact begins
  | cons visit counted _ inductionHypothesis =>
      cases visits' with
      | cons visit' counted' visits' =>
          exact inductionHypothesis (step begins visit counted visit' counted') visits'

/-- If the first processor succeeds and the second one is never stuck where the first one is not,
the second one succeeds, and the two results are related. -/
theorem exists_ok_of_simulation (related : List NodeId → Dag → Dag → Prop) {order : List NodeId}
    {run after : Run} {name : String}
    (selects : (first.selectFunction name order).run run = .ok () after) (run' : Run)
    (name' : String) (counted : run.dag.Counted) (sameDag : run'.dag = run.dag)
    (lists : ∀ id, id ∈ order ↔ id < run.dag.size)
    (begins : related order.reverse run.dag run'.dag)
    (step : ∀ {id rest before after before' after'}, related (id :: rest) before.dag before'.dag →
      first.Visit id before after → after.dag.Counted → second.Visit id before' after' →
      after'.dag.Counted → related rest after.dag after'.dag)
    (unstuck : ∀ {id rest before after dag}, related (id :: rest) before.dag dag →
      first.Visit id before after →
      (∀ node op, ¬ second.Refuses id dag node op) ∧ ∀ cause, ¬ second.Breaks id dag cause) :
    ∃ after', (second.selectFunction name' order).run run' = .ok () after' ∧
      related [] after.dag after'.dag := by
  obtain ⟨start, stop, startDag, _, _, ⟨_, visits, _⟩, stopDag, _⟩ :=
    (first.selectFunction_ends name order run counted).of_ok selects
  have counted' : run'.dag.Counted := sameDag ▸ counted
  have begins' : ∀ {start' : Run}, start'.dag = run'.dag →
      related order.reverse start.dag start'.dag := by
    intro start' same
    rw [startDag, same]
    exact begins
  obtain ⟨after', selects'⟩ : ∃ after', (second.selectFunction name' order).run run' =
      .ok () after' := by
    apply exists_ok_of_turns counted' (sameDag ▸ lists)
    intro visited id rest start' last startDag' split _ visits' _
    rw [split] at visits
    obtain ⟨middle, earlier, later⟩ := visits.of_append
    have reached := related_of_visits step (split ▸ begins' startDag') earlier visits'
    cases later with
    | cons visit counted'' _ => exact unstuck reached visit
  obtain ⟨start', stop', startDag', _, _, ⟨_, visits', _⟩, stopDag', _⟩ :=
    (second.selectFunction_ends name' order run' counted').of_ok selects'
  refine ⟨after', selects', ?_⟩
  rw [stopDag, stopDag']
  exact related_of_visits step (by simpa using begins' startDag') visits visits'

end Simulation

end Target

end DagSelect
