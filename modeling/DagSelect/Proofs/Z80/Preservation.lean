/-
Module: DagSelect.Proofs.Z80.Preservation
Purpose: Selection preserves meaning. A turn changes no datum of a value that was there: a node that
  takes its final form as it is has the same operands, a node that a pattern covers becomes an
  instruction that gives the same data, and new leaves get values of their own. So along a whole
  run, whatever the order, what is not dead evaluates to what it evaluated to in the graph that was
  read.
Main exports: extendAssignment, Interprets.turn, Interprets.covered, Interprets.visit, Preserves,
  Preserves.visits, eval_of_selectFunction
-/
import DagSelect.Proofs.Z80.Interpretation

namespace DagSelect

open Z80

variable {Token : Type} {processor : Processor} {environment : Environment Token}
  {assignment : Value → Datum Token}

/-! ### One turn -/

/-- The data of a graph with new leaves: what was there keeps its datum, and a leaf has the datum
that it stands for. -/
def extendAssignment (processor : Processor) (environment : Environment Token)
    (assignment : Value → Datum Token) (size : Nat) (after : Dag) (value : Value) : Datum Token :=
  if value.node < size then assignment value
  else match after.shape.node? value.node with
    | some leaf => nodeMeaning processor environment leaf [] [] value.result
    | none => assignment value

theorem extendAssignment_of_lt {size : Nat} {after : Dag} {value : Value}
    (inside : value.node < size) :
    extendAssignment processor environment assignment size after value = assignment value :=
  if_pos inside

theorem extendAssignment_leaf {size : Nat} {after : Dag} {value : Value} {leaf : Node}
    (behind : size ≤ value.node) (found : after.shape.node? value.node = some leaf) :
    extendAssignment processor environment assignment size after value =
      nodeMeaning processor environment leaf [] [] value.result := by
  rw [extendAssignment, if_neg (Nat.not_lt.mpr behind), found]

section Turn

variable {before after : Dag} {id : NodeId} {node changed : Node} {leaves : List Node}

/-- The operands of a node that was there keep their data. -/
theorem map_extendAssignment (counted : before.Counted) {other : NodeId} {found : Node}
    (there : before.shape.node? other = some found) :
    found.operands.map
        (extendAssignment processor environment assignment before.size after) =
      found.operands.map assignment :=
  List.map_congr_left fun _ member =>
    extendAssignment_of_lt (counted.resolves_of_mem there member).lt_size

/-- If the node of a turn gives what it gave, or is dead, the data of all values stay. -/
theorem Interprets.turn (interprets : Interprets processor environment before assignment)
    (turn : Turn before after id node changed leaves) (counted : after.Counted)
    (same : changed.state ≠ .dead → ∀ index, index < node.results.length →
      nodeMeaning processor environment changed (changed.operands.map after.typeOf)
          (changed.operands.map
            (extendAssignment processor environment assignment before.size after)) index =
        assignment ⟨id, index⟩) :
    Interprets processor environment after
      (extendAssignment processor environment assignment before.size after) where
  counted := counted
  settled := interprets.settled.turn turn
  typed := interprets.typed.turn interprets.counted turn
  solves := by
    intro other found there alive index bound
    rcases turn.node?_cases there with ⟨rfl, rfl⟩ | ⟨_, stayed⟩ | ⟨behind, member⟩
    · rw [extendAssignment_of_lt (Dag.lt_size_of_node? turn.found)]
      exact (same alive index (turn.results ▸ bound)).symm
    · have inside : other < before.size := by
        rw [← Dag.size_shape]
        exact Dag.lt_size_of_node? stayed
      rw [extendAssignment_of_lt inside, turn.map_typeOf interprets.counted stayed,
        map_extendAssignment interprets.counted stayed]
      exact interprets.solves other found stayed alive index bound
    · rw [extendAssignment_leaf behind there]
      obtain ⟨_, _, _, _, rfl⟩ := turn.areLeaves found member
      rfl

/-- A node that takes its final form as it is keeps its operands. -/
theorem Interprets.finished (interprets : Interprets processor environment before assignment)
    (turn : Turn before after id node node.shape.finished []) (counted : after.Counted) :
    Interprets processor environment after
      (extendAssignment processor environment assignment before.size after) := by
  refine interprets.turn turn counted fun _ index bound => ?_
  have nodeFound := Dag.shape_found turn.found
  have alive : node.shape.state ≠ .dead := by simp [turn.unvisited]
  rw [interprets.solves id node.shape nodeFound alive index bound,
    ← turn.map_typeOf interprets.counted nodeFound,
    ← map_extendAssignment interprets.counted nodeFound]
  rfl

/-- The new leaves stand behind the others in their order. -/
theorem Turn.node?_leaf (turn : Turn before after id node changed leaves) {offset : Nat}
    {leaf : Node} (there : leaves[offset]? = some leaf) :
    after.shape.node? (before.size + offset) = some leaf := by
  have different : before.size + offset ≠ id :=
    Nat.ne_of_gt (Nat.lt_of_lt_of_le (Dag.lt_size_of_node? turn.found) (Nat.le_add_right _ _))
  have behind : before.shape.size ≤ before.size + offset := by
    rw [Dag.size_shape]
    exact Nat.le_add_right _ _
  rw [turn.shape, Dag.node?_update_of_ne _ different,
    Dag.node?_extend_of_le before.shape leaves behind, Dag.size_shape, Nat.add_sub_cancel_left]
  exact there

/-- The instruction that a node becomes gives what the node gave. -/
theorem Interprets.covered {pattern : Pattern Processor} {own rest : List Capture}
    (interprets : Interprets processor environment before assignment)
    (covers : pattern.Covers before processor.addressTypes id node own rest)
    (listed : pattern ∈ patterns) (guard : pattern.guard.holds processor = true)
    (turn : Turn before after id node
      (node.shape.morphed pattern.emit (Capture.place before.size (own ++ rest)))
      (Capture.leaves (own ++ rest))) (counted : after.Counted) :
    Interprets processor environment after
      (extendAssignment processor environment assignment before.size after) := by
  refine interprets.turn turn counted fun _ index bound => ?_
  have data : (Capture.place before.size (own ++ rest)).map
        (extendAssignment processor environment assignment before.size after) =
      own.map (Capture.datum environment assignment) ++
        rest.map (Capture.datum environment assignment) := by
    rw [← List.map_append]
    refine Capture.map_place processor ?_ ?_
    · intro source captured
      have resolves := (covers.handedOn captured).resolves interprets.counted
      exact extendAssignment_of_lt resolves.lt_size
    · intro offset leaf there
      exact extendAssignment_leaf (Nat.le_add_right _ _) (turn.node?_leaf there)
  have alive : node.state ≠ .dead := by simp [turn.unvisited]
  have live : before.Live { node := id } :=
    ⟨node, covers.found, alive, Nat.lt_of_le_of_lt (Nat.zero_le _) bound⟩
  have agrees := interprets.solves id node.shape (Dag.shape_found covers.found) alive index bound
  have sound := patterns_sound processor pattern listed Token environment _ _ _ _ _ _
    (covers.covering interprets guard live) index bound
  simp only [nodeMeaning, Node.shape_opcode, covers.opcode] at agrees
  rw [agrees]
  simp only [nodeMeaning, Node.morphed, data]
  exact sound

end Turn

/-! ### One visit -/

/-- A visit keeps the data of all values that were there. -/
theorem Interprets.visit {id : NodeId} {before after : Run}
    (interprets : Interprets processor environment before.dag assignment)
    (visit : processor.target.Visit id before after) (counted : after.dag.Counted) :
    ∃ extended, Interprets processor environment after.dag extended ∧
      ∀ value, value.node < before.dag.size → extended value = assignment value := by
  cases visit with
  | kept found visited dag session =>
      exact ⟨assignment, dag ▸ interprets, fun _ _ => rfl⟩
  | @accepted node op found unvisited machine shape session =>
      have final : node.opcode.isFinal = true ∧ node.opcode.isMachine = true := by
        rw [machine]
        exact ⟨rfl, rfl⟩
      have turn := Turn.finished found unvisited final.1 (Or.inr final.2) shape
      exact ⟨_, interprets.finished turn counted, fun _ => extendAssignment_of_lt⟩
  | discarded found unvisited generic unused shape session =>
      have turn := Turn.discarded found unvisited unused shape
      exact ⟨_, interprets.turn turn counted (fun alive => absurd rfl alive),
        fun _ => extendAssignment_of_lt⟩
  | @passed node op found unvisited generic used needsNone shape session =>
      have final : node.opcode.isFinal = true := by
        rw [generic]
        exact needsNone
      have turn := Turn.finished found unvisited final (Or.inl used) shape
      exact ⟨_, interprets.finished turn counted, fun _ => extendAssignment_of_lt⟩
  | covered found unvisited generic used needs finds covers makes shape session =>
      obtain ⟨listed, _, guard, _⟩ := Target.cover_finds finds
      have turn := Turn.covered covers unvisited used shape
      exact ⟨_, interprets.covered covers listed guard turn counted,
        fun _ => extendAssignment_of_lt⟩

/-! ### A run -/

/-- What a run keeps of the graph that it began with: the data and the result types of all values,
and operands of lower rank than their users, where new leaves rank lowest. -/
structure Preserves (processor : Processor) (environment : Environment Token) (input : Dag)
    (assignment : Value → Datum Token) (dag : Dag) : Prop where
  interprets : ∃ extended, Interprets processor environment dag extended ∧
    ∀ value, value.node < input.size → extended value = assignment value
  results : ∀ id node, input.shape.node? id = some node →
    ∃ kept, dag.shape.node? id = some kept ∧ kept.results = node.results
  ranked : dag.Ranked (rankBy input.size fun id => id)

namespace Preserves

variable {input dag : Dag}

theorem size_le (preserves : Preserves processor environment input assignment dag) :
    input.size ≤ dag.size := by
  by_contra smaller
  obtain ⟨node, found⟩ := Dag.exists_node?_of_lt (Nat.not_le.mp smaller)
  obtain ⟨kept, keptFound, _⟩ := preserves.results dag.size node.shape (Dag.shape_found found)
  have inside := Dag.lt_size_of_node? keptFound
  rw [Dag.size_shape] at inside
  exact Nat.lt_irrefl _ inside

/-- A visit of a node of the input keeps what is kept. -/
theorem visit {id : NodeId} {before after : Run} (inside : id < input.size)
    (preserves : Preserves processor environment input assignment before.dag)
    (visit : processor.target.Visit id before after) (counted : after.dag.Counted) :
    Preserves processor environment input assignment after.dag := by
  obtain ⟨extended, interprets, agrees⟩ := preserves.interprets
  obtain ⟨further, interprets', agrees'⟩ := interprets.visit visit counted
  have data : ∃ extended, Interprets processor environment after.dag extended ∧
      ∀ value, value.node < input.size → extended value = assignment value := by
    refine ⟨further, interprets', fun value old => ?_⟩
    rw [agrees' value (Nat.lt_of_lt_of_le old preserves.size_le), agrees value old]
  rcases visit.turn with ⟨same, _⟩ | ⟨node, changed, leaves, turn, below⟩
  · exact ⟨data, same ▸ preserves.results, same ▸ preserves.ranked⟩
  · refine ⟨data, ?_, ?_⟩
    · intro other otherNode there
      obtain ⟨kept, keptFound, keptResults⟩ := preserves.results other otherNode there
      by_cases isTurn : other = id
      · subst isTurn
        cases (Dag.shape_found turn.found).symm.trans keptFound
        exact ⟨changed, turn.node?_self, turn.results.trans keptResults⟩
      · exact ⟨kept, turn.node?_other isTurn keptFound, keptResults⟩
    · exact preserves.ranked.turn turn (below (target_folds processor)) fun other behind =>
        rankBy_lt inside (Nat.le_trans preserves.size_le behind)

/-- So does a run. -/
theorem visits {ids : List NodeId} {first last : Run} (inside : ∀ id ∈ ids, id < input.size)
    (visits : processor.target.Visits ids first last)
    (preserves : Preserves processor environment input assignment first.dag) :
    Preserves processor environment input assignment last.dag := by
  induction visits with
  | nil => exact preserves
  | cons turn counted _ inductionHypothesis =>
      refine inductionHypothesis (fun id member => inside id (List.mem_cons_of_mem _ member)) ?_
      exact preserves.visit (inside _ List.mem_cons_self) turn counted

/-- What is live evaluates to the datum that it had in the input. -/
theorem eval_eq (preserves : Preserves processor environment input assignment dag) {value : Value}
    (old : value.node < input.size) (live : dag.Live value) :
    dag.eval processor environment value = some (assignment value) := by
  obtain ⟨extended, interprets, agrees⟩ := preserves.interprets
  obtain ⟨node, found, alive, bound⟩ := live
  have shallow : rankBy input.size (fun id => id) value.node < dag.size + 1 := by
    rw [rankBy, if_pos old]
    exact Nat.succ_lt_succ (Nat.lt_of_lt_of_le old preserves.size_le)
  rw [← agrees value old]
  exact evalAt_eq_of_solves interprets.solves preserves.ranked interprets.counted
    interprets.settled shallow found alive bound

end Preserves

/-- A well-typed graph that was read has an assignment, and preserves it. -/
theorem LabelledDag.Drafted.preserves {graph : LabelledDag}
    {machine : String → Option MachineOp} (drafted : graph.Drafted machine)
    (wellTyped : graph.dag.isWellTyped (.simple processor.pointerType) = true)
    (environment : Environment Token) :
    ∃ assignment, Preserves processor environment graph.dag assignment graph.dag := by
  have ranked : graph.dag.Ranked (rankBy graph.dag.size fun id => id) := by
    refine drafted.counted.ranked ?_
    rintro user operand ⟨value, member, rfl⟩
    exact drafted.earlier user value member
  have bounded : ∀ id, rankBy graph.dag.size (fun id => id) id < graph.dag.size + 1 := by
    intro id
    unfold rankBy
    split
    · exact Nat.succ_lt_succ ‹_›
    · exact Nat.succ_pos _
  obtain ⟨assignment, solves⟩ := exists_solves ranked drafted.counted bounded
  have interprets : Interprets processor environment graph.dag assignment :=
    ⟨drafted.counted, Dag.settled_of_unvisited drafted.unvisited, drafted.typed wellTyped, solves⟩
  exact ⟨assignment, ⟨assignment, interprets, fun _ _ => rfl⟩,
    fun _ node found => ⟨node, found, rfl⟩, ranked⟩

/-- Selection preserves meaning. In a graph that was read and is well typed, whatever the order and
whatever the environment, the root evaluates to the same datum before and after selection, and so
does every value of the input whose node is not dead in the end. This also holds of the graph in
which selection leaves off when it declines. -/
theorem eval_of_selectFunction (processor : Processor) {machine : String → Option MachineOp}
    {text : String} {context context' : TypeContext} {graph : LabelledDag}
    (read : (readDag machine text).run context = .ok graph context')
    (wellTyped : graph.dag.isWellTyped (.simple processor.pointerType) = true)
    {name : String} {order : List NodeId} {session : Session} {log : List LogRecord} {after : Run}
    (ended : (processor.target.selectFunction name order).run ⟨graph.dag, session, log⟩ =
        .ok () after ∨
      ∃ error, (processor.target.selectFunction name order).run ⟨graph.dag, session, log⟩ =
        .error (.declined error) after)
    (environment : Environment Token) :
    (∃ root datum, graph.dag.root = some root ∧ after.dag.root = some root ∧
      graph.dag.eval processor environment root = some datum ∧
      after.dag.eval processor environment root = some datum) ∧
    ∀ id input node, graph.dag.node? id = some input → after.dag.node? id = some node →
      node.state ≠ .dead → node.results = input.results ∧
      ∀ index, index < input.results.length → ∃ datum,
        graph.dag.eval processor environment ⟨id, index⟩ = some datum ∧
        after.dag.eval processor environment ⟨id, index⟩ = some datum := by
  obtain ⟨drafted, root, rooted⟩ := readDag_drafted read
  obtain ⟨first, last, visited, firstDag, lastDag, inside, visits⟩ :=
    Target.exists_visits_of_selectFunction drafted.counted ended
  replace firstDag : first.dag = graph.dag := firstDag
  obtain ⟨assignment, before⟩ := drafted.preserves wellTyped environment
  have preserves : Preserves processor environment graph.dag assignment after.dag := by
    rw [lastDag]
    exact Preserves.visits (firstDag ▸ inside) visits (firstDag ▸ before)
  have inputLive : ∀ id input index, graph.dag.node? id = some input →
      index < input.results.length → graph.dag.Live ⟨id, index⟩ := by
    intro id input index found bound
    exact ⟨input, found, by simp [drafted.unvisited id input found], bound⟩
  constructor
  · have lastRoot : after.dag.root = some root := by
      rw [lastDag, visits.root (firstDag ▸ drafted.counted), firstDag]
      exact rooted
    obtain ⟨extended, interprets, _⟩ := preserves.interprets
    have rootLive : after.dag.Live root :=
      interprets.live_of_pointed (interprets.counted.root root lastRoot)
        (Or.inr (Dag.isRoot_eq_true_iff.mpr ⟨root, lastRoot, rfl⟩))
    obtain ⟨input, found, bound⟩ := drafted.counted.root root rooted
    have inside := Dag.lt_size_of_node? found
    exact ⟨root, assignment root, rooted, lastRoot,
      before.eval_eq inside (inputLive root.node input root.result found bound),
      preserves.eval_eq inside rootLive⟩
  · intro id input node found afterFound alive
    have inside := Dag.lt_size_of_node? found
    obtain ⟨kept, keptFound, results⟩ := preserves.results id input.shape (Dag.shape_found found)
    cases (Dag.shape_found afterFound).symm.trans keptFound
    refine ⟨results, fun index bound => ⟨assignment ⟨id, index⟩, ?_, ?_⟩⟩
    · exact before.eval_eq inside (inputLive id input index found bound)
    · refine preserves.eval_eq inside ⟨node, afterFound, alive, ?_⟩
      rw [← Node.shape_results, results]
      exact bound

/-- Bytes in memory hold the number 41, and a return gives its value. -/
def fortyOneEnvironment : Environment Unit where
  register _ := 0
  symbol _ := 0
  external _ := 0
  frame _ := 0
  entry := ()
  load _ _ index := if index = 0 then .int 41 else .token ()
  store _ _ _ := .token ()
  apply _ data _ := data.getD 1 (.token ())

/-- Selection from the operands to their users. -/
theorem selects_incrementGraph_upwards :
    Ends (fun _ _ => True) (fun _ _ => False)
      ((Processor.plain.target.selectFunction "increment" [8, 7, 6, 5, 4, 3, 2, 1, 0]).run
        { dag := incrementGraph.dag }) := by
  decide +kernel

/-- The instructions return the number that the graph returns. -/
theorem eval_incrementGraph :
    ∃ after : Run,
      (Processor.plain.target.selectFunction "increment" [8, 7, 6, 5, 4, 3, 2, 1, 0]).run
        { dag := incrementGraph.dag } = .ok () after ∧
      after.dag.eval Processor.plain fortyOneEnvironment ⟨8, 0⟩ = some (.int 42) := by
  obtain ⟨_, after, selects, _⟩ := selects_incrementGraph_upwards.exists_ok
  obtain ⟨⟨root, datum, rooted, _, graphEval, afterEval⟩, _⟩ :=
    eval_of_selectFunction Processor.plain readDag_incrementText (by decide) (Or.inl selects)
      fortyOneEnvironment
  cases rooted
  have number : incrementGraph.dag.eval Processor.plain fortyOneEnvironment ⟨8, 0⟩ =
      some (.int 42) := by decide +kernel
  exact ⟨after, selects, afterEval.trans (graphEval.symm.trans number)⟩

end DagSelect
