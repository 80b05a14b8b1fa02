/-
Module: DagSelect.Proofs.Reselection
Purpose: Selecting what was selected changes nothing. After a successful selection every node that is
  not dead is an instruction, or needs no selection and is pointed at. A copy of such a graph is
  selected again by confirming its nodes one after another: none is covered by a pattern, and none
  dies. So the text stays the same, and the session counts every node once.
Main exports: Dag.Final, Dag.Ready, Dag.Confirmed, Target.Visits.confirms, Target.exists_confirmed,
  Dag.Confirmed.print_eq, Tended.final, Dag.Renumbered.ready, Z80.reselection_of_print
-/
import DagSelect.Proofs.Advance
import DagSelect.Proofs.Z80.RoundTrip

namespace DagSelect

/-- Nothing is left to select: what is not dead is an instruction, or needs no selection and is
pointed at. -/
def Dag.Final (dag : Dag) : Prop :=
  ∀ id node, dag.shape.node? id = some node → node.state ≠ .dead →
    node.opcode.isMachine = true ∨ node.opcode.isFinal = true ∧ dag.Pointed id

/-- Selection has not begun, and nothing is left to select. -/
structure Dag.Ready (dag : Dag) : Prop where
  counted : dag.Counted
  untouched : ∀ id node, dag.node? id = some node → node.state = .unvisited
  isFinal : dag.Final

/-- The nodes of a graph as they were, but for the states of those that selection confirmed. -/
structure Dag.Confirmed (input dag : Dag) : Prop where
  root : dag.root = input.root
  size : dag.size = input.size
  nodes : ∀ id node, input.shape.node? id = some node →
    ∃ state, state ≠ .dead ∧ dag.shape.node? id = some { node with state }

namespace Dag.Confirmed

variable {input dag : Dag} {id : NodeId}

theorem refl (ready : input.Ready) : input.Confirmed input where
  root := rfl
  size := rfl
  nodes id node found := by
    obtain ⟨uses, there⟩ := exists_uses_of_shape found
    have state := ready.untouched id _ there
    exact ⟨.unvisited, by decide, by rw [found, ← state]⟩

theorem exists_input (confirmed : input.Confirmed dag) {node : Node}
    (found : dag.shape.node? id = some node) :
    node.state ≠ .dead ∧ ∃ state, input.shape.node? id = some { node with state } := by
  have inside := lt_size_of_node? found
  rw [size_shape, confirmed.size] at inside
  obtain ⟨old, oldFound⟩ := exists_node?_of_lt inside
  obtain ⟨state, notDead, there⟩ := confirmed.nodes id _ (shape_found oldFound)
  cases there.symm.trans found
  exact ⟨notDead, old.state, shape_found oldFound⟩

theorem depends_iff (confirmed : input.Confirmed dag) {user operand : NodeId} :
    dag.Depends user operand ↔ input.Depends user operand := by
  have shaped : input.shape.Depends user operand ↔ input.Depends user operand := depends_shape
  rw [← depends_shape, ← shaped]
  constructor
  · rintro ⟨value, member, same⟩
    obtain ⟨node, found, listed⟩ := mem_operandsOf.mp member
    obtain ⟨_, _, there⟩ := confirmed.exists_input found
    exact ⟨value, mem_operandsOf.mpr ⟨_, there, listed⟩, same⟩
  · rintro ⟨value, member, same⟩
    obtain ⟨node, found, listed⟩ := mem_operandsOf.mp member
    obtain ⟨_, _, there⟩ := confirmed.nodes user node found
    exact ⟨value, mem_operandsOf.mpr ⟨_, there, listed⟩, same⟩

theorem pointed (confirmed : input.Confirmed dag) (pointed : input.Pointed id) : dag.Pointed id := by
  rcases pointed with ⟨user, edge⟩ | isRoot
  · exact Or.inl ⟨user, confirmed.depends_iff.mpr edge⟩
  · right
    rw [isRoot_eq_true_iff] at isRoot ⊢
    rwa [confirmed.root]

/-- A node is an instruction, as it was, or it needs no selection and is used. -/
theorem form (confirmed : input.Confirmed dag) (ready : input.Ready) {node : Node}
    (found : dag.node? id = some node) :
    (input.node? id).map Node.opcode = some node.opcode ∧
      (node.opcode.isMachine = true ∨ node.opcode.isFinal = true ∧ dag.Pointed id) := by
  obtain ⟨_, state, there⟩ := confirmed.exists_input (shape_found found)
  obtain ⟨uses, inputFound⟩ := exists_uses_of_shape there
  have notDead : state ≠ .dead := by
    rw [show state = .unvisited from ready.untouched id _ inputFound]
    decide
  refine ⟨by rw [inputFound]; rfl, ?_⟩
  rcases ready.isFinal id _ there notDead with machine | ⟨opcode, used⟩
  · exact Or.inl machine
  · exact Or.inr ⟨opcode, confirmed.pointed used⟩

theorem generic (confirmed : input.Confirmed dag) (ready : input.Ready) {node : Node}
    {op : GenericOp} (found : dag.node? id = some node) (isGeneric : node.opcode = .generic op) :
    op.needsNoSelection = true ∧ dag.Pointed id := by
  obtain ⟨_, form⟩ := confirmed.form ready found
  rw [isGeneric] at form
  rcases form with impossible | final
  · cases impossible
  · exact final

/-- Confirming one more node. -/
theorem update {after : Dag} (confirmed : input.Confirmed dag)
    (shape : after.shape = dag.shape.update id Node.finished) : input.Confirmed after where
  root := by rw [← root_shape, shape, root_update, root_shape, confirmed.root]
  size := by rw [← size_shape, shape, size_update, size_shape, confirmed.size]
  nodes other node found := by
    obtain ⟨state, notDead, there⟩ := confirmed.nodes other node found
    rw [shape, node?_update, there]
    by_cases same : other = id
    · exact ⟨.selected, by decide, by rw [if_pos same]; rfl⟩
    · exact ⟨state, notDead, by rw [if_neg same]⟩

end Dag.Confirmed

/-! ### Runs -/

/-- The counts after nodes were confirmed, instructions and others. -/
def Stats.confirm (stats : Stats) (instructions others : Nat) : Stats :=
  { stats with
    nodesPreselected := stats.nodesPreselected + instructions
    nodesPassedThrough := stats.nodesPassedThrough + others }

theorem Stats.confirm_confirm (stats : Stats) (instructions others more moreOthers : Nat) :
    (stats.confirm instructions others).confirm more moreOthers =
      stats.confirm (more + instructions) (moreOthers + others) := by
  simp only [confirm, Nat.add_assoc, Nat.add_comm more, Nat.add_comm moreOthers]

/-- Whether the node is an instruction of the graph. -/
def Dag.isInstruction (dag : Dag) (id : NodeId) : Bool :=
  (dag.node? id).any fun node => node.opcode.isMachine

theorem Dag.isInstruction_eq {dag : Dag} {id : NodeId} {opcode : Opcode}
    (found : (dag.node? id).map Node.opcode = some opcode) :
    dag.isInstruction id = opcode.isMachine := by
  obtain ⟨node, there, rfl⟩ := Option.map_eq_some_iff.mp found
  rw [isInstruction, there]
  rfl

namespace Target

variable {Features : Type} {target : Target Features} {input : Dag} {id : NodeId}
  {before after first last : Run} {ids : List NodeId}

/-- The turn of a node confirms it, and counts it as an instruction or as another node. -/
theorem Visit.confirms (ready : input.Ready) (confirmed : input.Confirmed before.dag) {node : Node}
    (found : before.dag.node? id = some node) (unvisited : node.state = .unvisited)
    (visit : target.Visit id before after) :
    after.dag.shape = before.dag.shape.update id Node.finished ∧
      after.session = { before.session with
        stats := before.session.stats.confirm (if input.isInstruction id then 1 else 0)
          (if !input.isInstruction id then 1 else 0) } := by
  rw [Dag.isInstruction_eq (confirmed.form ready found).1]
  cases visit with
  | kept there visited =>
      cases found.symm.trans there
      exact absurd unvisited visited
  | accepted there _ machine shape session =>
      cases found.symm.trans there
      rw [machine]
      exact ⟨shape, session⟩
  | discarded there _ generic unused =>
      exact absurd (confirmed.generic ready there generic).2 unused
  | passed there _ generic _ _ shape session =>
      cases found.symm.trans there
      rw [generic]
      exact ⟨shape, session⟩
  | covered there _ generic _ needs =>
      cases needs.symm.trans (confirmed.generic ready there generic).1

/-- A run over different nodes that were not touched yet confirms them all. -/
theorem Visits.confirms (ready : input.Ready) (visits : target.Visits ids first last)
    (confirmed : input.Confirmed first.dag) (distinct : ids.Nodup)
    (waiting : ∀ id ∈ ids, ∃ node, first.dag.node? id = some node ∧ node.state = .unvisited) :
    input.Confirmed last.dag ∧
      last.session = { first.session with
        stats := first.session.stats.confirm (ids.countP input.isInstruction)
          (ids.countP fun id => !input.isInstruction id) } := by
  induction visits with
  | nil => exact ⟨confirmed, rfl⟩
  | @cons id rest before middle after visit _ _ inductionHypothesis =>
      rw [List.nodup_cons] at distinct
      rw [List.forall_mem_cons] at waiting
      obtain ⟨⟨node, found, unvisited⟩, later⟩ := waiting
      obtain ⟨shape, session⟩ := visit.confirms ready confirmed found unvisited
      -- The turn touches one node, and the list names it only once.
      have stillWaiting : ∀ other ∈ rest, ∃ node, middle.dag.node? other = some node ∧
          node.state = .unvisited := by
        intro other member
        obtain ⟨otherNode, otherFound, state⟩ := later other member
        have different : other ≠ id := by
          rintro rfl
          exact distinct.1 member
        have there := Dag.shape_found otherFound
        rw [← Dag.node?_update_of_ne _ different, ← shape] at there
        obtain ⟨uses, there⟩ := Dag.exists_uses_of_shape there
        exact ⟨_, there, state⟩
      obtain ⟨lastConfirmed, lastSession⟩ :=
        inductionHypothesis (confirmed.update shape) distinct.2 stillWaiting
      refine ⟨lastConfirmed, ?_⟩
      rw [lastSession, session, Stats.confirm_confirm, List.countP_cons, List.countP_cons]

/-- Selection neither declines a node nor breaks off at it, for no node needs a pattern. -/
theorem not_stuck (ready : input.Ready) (confirmed : input.Confirmed last.dag)
    (inside : id < input.size) :
    (∀ node op, ¬ target.Refuses id last.dag node op) ∧
      ∀ cause, ¬ target.Breaks id last.dag cause := by
  constructor
  · intro node op refuses
    cases refuses.needs.symm.trans (confirmed.generic ready refuses.found refuses.generic).1
  · intro cause breaks
    cases breaks with
    | missing failed =>
        rw [← confirmed.size] at inside
        obtain ⟨node, found⟩ := Dag.exists_node?_of_lt inside
        cases (Dag.fetch_eq_ok_iff.mpr found).symm.trans failed
    | matching found generic needs _ =>
        cases needs.symm.trans (confirmed.generic ready found generic).1
    | emitting found _ generic _ needs =>
        cases needs.symm.trans (confirmed.generic ready found generic).1

end Target

theorem Dag.countP_ids (dag : Dag) (test : Node → Bool) :
    (dag.ids.countP fun id => (dag.node? id).any test) = dag.nodes.countP test := by
  have counts : ∀ nodes : List Node,
      ((List.range nodes.length).countP fun id => nodes[id]?.any test) = nodes.countP test := by
    intro nodes
    induction nodes with
    | nil => rfl
    | cons node rest inductionHypothesis =>
        rw [List.length_cons, List.range_succ_eq_map, List.countP_cons, List.countP_map,
          List.countP_cons, ← inductionHypothesis]
        rfl
  exact counts dag.nodes

theorem Dag.countP_isInstruction (dag : Dag) :
    dag.ids.countP dag.isInstruction = dag.nodes.countP fun node => node.opcode.isMachine :=
  dag.countP_ids _

theorem Dag.countP_not_isInstruction (dag : Dag) :
    (dag.ids.countP fun id => !dag.isInstruction id) =
      dag.nodes.countP fun node => !node.opcode.isMachine := by
  rw [← dag.countP_ids]
  refine List.countP_congr fun id member => ?_
  obtain ⟨node, found⟩ := exists_node?_of_lt (List.mem_range.mp member)
  simp [isInstruction, found]

/-- Selecting a graph in which nothing is left to select confirms all its nodes. -/
theorem Target.exists_confirmed {Features : Type} (target : Target Features) {input : Dag}
    (ready : input.Ready) {order : List NodeId} (lists : order.Perm input.ids) (name : String)
    (log : List LogRecord) :
    ∃ after, (target.selectFunction name order).run ⟨input, {}, log⟩ = .ok () after ∧
      input.Confirmed after.dag ∧ after.dag.Counted ∧
      after.session.stats =
        { functionsSelected := 1
          nodesPreselected := input.nodes.countP fun node => node.opcode.isMachine
          nodesPassedThrough := input.nodes.countP fun node => !node.opcode.isMachine } := by
  have listed : order.reverse.Perm input.ids := order.reverse_perm.trans lists
  have distinct : order.reverse.Nodup := listed.nodup_iff.mpr List.nodup_range
  have waiting : ∀ {first : Run}, first.dag = input → ∀ id ∈ order.reverse, ∃ node,
      first.dag.node? id = some node ∧ node.state = .unvisited := by
    rintro first rfl id member
    have inside : id < first.dag.size :=
      List.mem_range.mp (listed.mem_iff.mp member)
    obtain ⟨node, found⟩ := Dag.exists_node?_of_lt inside
    exact ⟨node, found, ready.untouched id node found⟩
  have selects : ∃ after, (target.selectFunction name order).run ⟨input, {}, log⟩ = .ok () after := by
    refine Target.exists_ok_of_turns ready.counted (fun id => ?_) ?_
    · rw [lists.mem_iff]
      exact List.mem_range
    · intro visited id rest first last firstDag split inside visits _
      refine Target.not_stuck ready ?_ inside
      rw [split] at distinct
      have firstWaiting := waiting firstDag
      rw [split] at firstWaiting
      exact (visits.confirms ready (firstDag ▸ .refl ready) (List.nodup_append.mp distinct).1
        fun other member => firstWaiting other (List.mem_append_left _ member)).1
  obtain ⟨after, selects⟩ := selects
  obtain ⟨first, last, firstDag, firstSession, counted, ⟨_, visits, _⟩, lastDag, lastSession⟩ :=
    (target.selectFunction_ends name order _ ready.counted).of_ok selects
  obtain ⟨confirmed, session⟩ :=
    visits.confirms ready (firstDag ▸ .refl ready) distinct (waiting firstDag)
  refine ⟨after, selects, lastDag ▸ confirmed, lastDag ▸ counted, ?_⟩
  rw [lastSession, session, firstSession, listed.countP_eq, listed.countP_eq,
    input.countP_isInstruction, input.countP_not_isInstruction]
  simp only [Session.finish, Session.begin, Stats.confirm, Nat.zero_add]

/-! ### Texts -/

/-- A graph that was read is printed in the order of its lines. -/
theorem LabelledDag.Drafted.topologicalOrder {graph : LabelledDag}
    {machine : String → Option MachineOp} (drafted : graph.Drafted machine) :
    graph.dag.topologicalOrder = graph.dag.ids := by
  apply Dag.topologicalOrder_eq_ids
  · rintro user operand ⟨value, member, rfl⟩
    exact drafted.earlier user value member
  · intro id inside
    obtain ⟨node, found⟩ := Dag.exists_node?_of_lt inside
    exact Dag.alive_of_unvisited found (drafted.unvisited id node found)

namespace Dag.Confirmed

variable {input dag : Dag}

theorem alive (confirmed : input.Confirmed dag) {id : NodeId} (inside : id < dag.size) :
    dag.Alive id := by
  obtain ⟨node, found⟩ := exists_node?_of_lt inside
  exact ⟨node, found, (confirmed.exists_input (shape_found found)).1⟩

theorem copies (confirmed : input.Confirmed dag)
    (untouched : ∀ id node, input.node? id = some node → node.state = .unvisited) :
    List.Forall₂ Node.Copies input.nodes dag.nodes := by
  refine List.forall₂_iff_get.mpr ⟨confirmed.size.symm, fun id inInput inDag => ?_⟩
  have found : input.node? id = some input.nodes[id] := List.getElem?_eq_getElem inInput
  have there : dag.node? id = some dag.nodes[id] := List.getElem?_eq_getElem inDag
  obtain ⟨state, _, confirmedThere⟩ := confirmed.nodes id _ (shape_found found)
  have same := Option.some.inj ((shape_found there).symm.trans confirmedThere)
  exact {
    opcode := (congrArg Node.opcode same).symm
    results := (congrArg (fun node : Node => node.results.map ValueType.name) same).symm
    operands := (congrArg Node.operands same).symm
    payload := (congrArg Node.payload same).symm
    unvisited := untouched id _ found }

/-- Confirming the nodes of a graph that was read does not change its text. -/
theorem print_eq {graph : LabelledDag} {machine : String → Option MachineOp}
    (drafted : graph.Drafted machine) (rooted : ∃ root, graph.dag.root = some root)
    (confirmed : graph.dag.Confirmed dag) (counted : dag.Counted) :
    dag.print = graph.dag.print := by
  obtain ⟨root, isRoot⟩ := rooted
  have isOrder : dag.topologicalOrder = dag.ids := by
    refine topologicalOrder_eq_ids ?_ fun id => confirmed.alive
    intro user operand edge
    obtain ⟨value, member, rfl⟩ := confirmed.depends_iff.mp edge
    exact drafted.earlier user value member
  rw [counted.print_eq isOrder (confirmed.root.trans isRoot),
    drafted.counted.print_eq drafted.topologicalOrder isRoot,
    Node.describeFrom_congr (confirmed.copies drafted.unvisited)]

end Dag.Confirmed

/-! ### What selection leaves -/

/-- If nothing is waiting any more, nothing is left to select. -/
theorem Tended.final {input dag : Dag} {rank : NodeId → Nat} (tended : Tended input rank [] dag)
    (settled : dag.Settled)
    (complete : ∀ id node, dag.node? id = some node → node.state ≠ .unvisited)
    (instructions : ∀ id, input.HasInstruction id → dag.HasInstruction id) : dag.Final := by
  intro id node found notDead
  obtain ⟨uses, there⟩ := Dag.exists_uses_of_shape found
  have selected : node.state = .selected := by
    have visited := complete id _ there
    cases state : node.state with
    | unvisited => exact absurd state visited
    | selected => rfl
    | dead => exact absurd state notDead
  have isFinal := settled.selected id node found selected
  rcases tended.held id node found List.not_mem_nil notDead with isRoot | instruction | ⟨user, _, edge⟩
  · exact Or.inr ⟨isFinal, Or.inr isRoot⟩
  · obtain ⟨other, otherFound, machine⟩ := instructions id instruction
    cases there.symm.trans otherFound
    exact Or.inl machine
  · exact Or.inr ⟨isFinal, Or.inl ⟨user, edge⟩⟩

/-- Instructions stay instructions. -/
theorem Target.Visits.instructions {Features : Type} {target : Target Features} {ids : List NodeId}
    {first last : Run} (visits : target.Visits ids first last) (counted : first.dag.Counted) :
    ∀ id, first.dag.HasInstruction id → last.dag.HasInstruction id := by
  refine visits.of_turns (fun dag => ∀ id, first.dag.HasInstruction id → dag.HasInstruction id) ?_
    counted fun _ has => has
  intro before after id node changed leaves _ kept turn other instruction
  obtain ⟨found, there, machine⟩ := kept other instruction
  by_cases isTurn : other = id
  · subst isTurn
    cases turn.found.symm.trans there
    obtain ⟨uses, now⟩ := Dag.exists_uses_of_shape turn.node?_self
    refine ⟨_, now, ?_⟩
    cases opcode : changed.opcode with
    | machine op => rfl
    | generic op =>
        rw [(turn.generic op opcode).1] at machine
        cases machine
  · have stayed := turn.node?_other isTurn (Dag.shape_found there)
    obtain ⟨uses, now⟩ := Dag.exists_uses_of_shape stayed
    exact ⟨_, now, machine⟩

namespace Dag.Renumbered

variable {dag copy : Dag} {order : List NodeId} {id : NodeId}

/-- A listed node has its copy in its place. -/
theorem exists_copy (renumbered : dag.Renumbered order copy) (member : id ∈ order) :
    ∃ node copied, dag.node? id = some node ∧ copy.node? (order.idxOf id) = some copied ∧
      copied.Copies (node.renumber order) := by
  have inOrder := List.idxOf_lt_length_of_mem member
  have inCopy : order.idxOf id < copy.nodes.length :=
    Nat.lt_of_lt_of_eq inOrder renumbered.nodes.length_eq
  have pair := renumbered.nodes.get inOrder inCopy
  rw [List.get_eq_getElem, List.getElem_idxOf] at pair
  obtain ⟨node, found, copies⟩ := pair
  exact ⟨node, _, found, List.getElem?_eq_getElem inCopy, copies⟩

/-- A node of the copy stands in the place of a listed node. -/
theorem exists_original (renumbered : dag.Renumbered order copy) (distinct : order.Nodup)
    {copied : Node} (found : copy.node? id = some copied) :
    ∃ original node, original ∈ order ∧ order.idxOf original = id ∧
      dag.node? original = some node ∧ copied.Copies (node.renumber order) := by
  obtain ⟨inCopy, rfl⟩ := List.getElem?_eq_some_iff.mp found
  have inOrder : id < order.length := Nat.lt_of_lt_of_eq inCopy renumbered.nodes.length_eq.symm
  obtain ⟨node, there, copies⟩ := renumbered.nodes.get inOrder inCopy
  exact ⟨order[id], node, List.getElem_mem inOrder, distinct.idxOf_getElem id inOrder, there, copies⟩

/-- What is pointed at is pointed at in the copy, by the copies of what points at it. -/
theorem pointed (renumbered : dag.Renumbered order copy)
    (users : ∀ user operand, dag.Depends user operand → user ∈ order) (pointed : dag.Pointed id) :
    copy.Pointed (order.idxOf id) := by
  rcases pointed with ⟨user, edge⟩ | isRoot
  · obtain ⟨node, copied, found, there, copies⟩ := renumbered.exists_copy (users user id edge)
    obtain ⟨value, member, rfl⟩ := edge
    obtain ⟨other, otherFound, listed⟩ := mem_operandsOf.mp member
    cases found.symm.trans otherFound
    refine Or.inl ⟨order.idxOf user, value.renumber order, mem_operandsOf.mpr ⟨copied, there, ?_⟩, rfl⟩
    rw [copies.operands]
    exact List.mem_map_of_mem listed
  · obtain ⟨root, rooted, rfl⟩ := isRoot_eq_true_iff.mp isRoot
    refine Or.inr (isRoot_eq_true_iff.mpr ⟨root.renumber order, ?_, rfl⟩)
    rw [renumbered.root, rooted]
    rfl

/-- If nothing is left to select, the copy is ready. -/
theorem ready (renumbered : dag.Renumbered order copy) (distinct : order.Nodup)
    (listed : ∀ id, id ∈ order ↔ dag.Alive id) (settled : dag.Settled) (isFinal : dag.Final) :
    copy.Ready where
  counted := renumbered.counted
  untouched id copied found := by
    obtain ⟨_, _, _, _, _, copies⟩ := renumbered.exists_original distinct found
    exact copies.unvisited
  isFinal id copied found notDead := by
    obtain ⟨uses, there⟩ := exists_uses_of_shape found
    obtain ⟨original, node, member, rfl, originalFound, copies⟩ :=
      renumbered.exists_original distinct there
    have opcode : copied.opcode = node.opcode := copies.opcode
    obtain ⟨other, otherFound, alive⟩ := (listed original).mp member
    cases originalFound.symm.trans otherFound
    have users : ∀ user operand, dag.Depends user operand → user ∈ order := by
      intro user operand edge
      exact (listed user).mpr (settled.exists_of_depends edge)
    rw [opcode]
    rcases isFinal original _ (shape_found originalFound) alive with machine | ⟨needsNone, used⟩
    · exact Or.inl machine
    · exact Or.inr ⟨needsNone, renumbered.pointed users used⟩

end Dag.Renumbered

/-- A successful selection in the order of the lines leaves nothing to select. -/
theorem LabelledDag.Drafted.final {Features : Type} {target : Target Features}
    {machine : String → Option MachineOp} {graph : LabelledDag} {first last : Run}
    (drafted : graph.Drafted machine) (folds : target.Folds) (firstDag : first.dag = graph.dag)
    (selects : target.Selects graph.order first last) : last.dag.Settled ∧ last.dag.Final := by
  have isOrder := drafted.isDependencyOrder
  have counted := firstDag ▸ drafted.counted
  have settled := selects.visits.settled counted (firstDag ▸ drafted.unvisited)
  have start : Tended graph.dag (rankBy graph.dag.size graph.order.idxOf) graph.order.reverse
      first.dag := by
    rw [firstDag]
    exact Tended.start drafted.counted isOrder
  have tended := start.visits folds drafted.unvisited selects.visits
    (fun id member => isOrder.lt_size (List.mem_reverse.mp member)) isOrder.falling
  refine ⟨settled, tended.final settled selects.complete ?_⟩
  intro id instruction
  exact selects.visits.instructions counted id (firstDag ▸ instruction)

namespace Z80

/-- Selection takes its symbols from the input. -/
theorem SignFree.visits {graph : LabelledDag} (drafted : graph.Drafted machineOp?)
    (signFree : SignFree graph.dag) {processor : Processor} {ids : List NodeId} {first last : Run}
    (firstDag : first.dag = graph.dag) (visits : processor.target.Visits ids first last) :
    SignFree last.dag := by
  have symbols : ∀ id node, graph.dag.node? id = some node →
      ∀ symbol offset, node.payload = .global symbol offset → Payload.Unsigned symbol := by
    intro id node found symbol offset carries
    have notDead : node.state ≠ .dead := by
      rw [drafted.unvisited id node found]
      decide
    refine signFree node (Dag.mem_nodes_iff.mpr ⟨id, found⟩) notDead symbol ?_
    rw [carries]
    rfl
  have writable : last.dag.Writable machineOp? Payload.Unsigned :=
    visits.writable (target_spells processor)
      (firstDag ▸ drafted.writable (fun _ _ => spelled_of_machineOp?) symbols)
  intro node member _ symbol carries
  obtain ⟨id, found⟩ := Dag.mem_nodes_iff.mp member
  cases payload : node.payload with
  | global _ offset =>
      rw [payload] at carries
      cases carries
      exact (writable id node found).symbol symbol offset payload
  | _ =>
      rw [payload] at carries
      cases carries

/-- Selecting what was selected changes nothing. Take a graph that was read, without signs in its
global symbols, and select it in the order of its lines. If that succeeds, its text is read again, and
selecting the copy in the order of its lines, for whatever processor, succeeds too and leaves the
text as it is. No pattern is used and no node dies: every instruction counts as one already, and
every other node as one that needs no selection. -/
theorem reselection_of_print (processor next : Processor) {text : String}
    {context context' : TypeContext} {graph : LabelledDag}
    (read : (readDag machineOp? text).run context = .ok graph context')
    (signFree : SignFree graph.dag) {name : String} {session : Session} {log : List LogRecord}
    {after : Run}
    (selects : (processor.target.selectFunction name graph.order).run ⟨graph.dag, session, log⟩ =
      .ok () after)
    (fresh : TypeContext) (nextName : String) (nextLog : List LogRecord) :
    ∃ copy fresh' last,
      (readDag machineOp? after.dag.print).run fresh = .ok copy fresh' ∧
      after.dag.Renumbered after.dag.topologicalOrder copy.dag ∧
      (next.target.selectFunction nextName copy.order).run ⟨copy.dag, {}, nextLog⟩ = .ok () last ∧
      last.dag.print = after.dag.print ∧
      last.session.stats =
        { functionsSelected := 1
          nodesSelected := 0
          nodesPreselected := copy.dag.nodes.countP fun node => node.opcode.isMachine
          nodesPassedThrough := copy.dag.nodes.countP fun node => !node.opcode.isMachine
          nodesDead := 0
          hits := [] } := by
  obtain ⟨drafted, rooted⟩ := readDag_drafted read
  obtain ⟨first, last, firstDag, _, _, turns, lastDag, _⟩ :=
    (processor.target.selectFunction_ends name graph.order _ drafted.counted).of_ok selects
  have afterSignFree : SignFree after.dag :=
    lastDag ▸ signFree.visits drafted firstDag turns.visits
  obtain ⟨settled, isFinal⟩ := drafted.final (target_folds processor) firstDag turns
  rw [← lastDag] at settled isFinal
  have printable := Outcome.printable drafted rooted (.selected (Or.inl selects)) afterSignFree
  obtain ⟨_, listable⟩ := printable.listable
  obtain ⟨distinct, listed, _⟩ := Dag.topologicalOrder_good listable
  obtain ⟨copy, fresh', copyRead, renumbered⟩ := printable.exists_readDag fresh
  obtain ⟨copyDrafted, copyRooted⟩ := readDag_drafted copyRead
  obtain ⟨again, reselects, confirmed, counted, stats⟩ :=
    next.target.exists_confirmed (renumbered.ready distinct listed settled isFinal)
      copyDrafted.isDependencyOrder.lists nextName nextLog
  refine ⟨copy, fresh', again, copyRead, renumbered, reselects, ?_, stats⟩
  rw [confirmed.print_eq copyDrafted copyRooted counted, renumbered.print_eq printable]

/-- A processor with wide pointers. -/
def Processor.wide : Processor where
  triple := { arch := .ez80 }
  mode := .bits24
  undocOps := false
  z180Ops := false
  ez80Ops := true
  ez80_of_bits24 := fun _ => rfl

/-- What was selected for the plainest processor is left alone by one with wide pointers. -/
theorem reselection_incrementGraph :
    SignFree incrementGraph.dag ∧ ∃ after copy context last,
      (Processor.plain.target.selectFunction "increment" incrementGraph.order).run
        { dag := incrementGraph.dag } = .ok () after ∧
      (readDag machineOp? selectedIncrementText).run {} = .ok copy context ∧
      (Processor.wide.target.selectFunction "again" copy.order).run { dag := copy.dag } =
        .ok () last ∧
      last.dag.print = selectedIncrementText ∧ last.session.stats.hits = [] := by
  have signFree : SignFree incrementGraph.dag := by decide
  obtain ⟨_, after, selects, text, _⟩ := print_selected_incrementGraph.exists_ok
  obtain ⟨copy, context, last, read, _, reselects, lastText, stats⟩ :=
    reselection_of_print .plain .wide readDag_incrementText signFree selects {} "again" []
  rw [text] at read lastText
  exact ⟨signFree, after, copy, context, last, selects, read, reselects, lastText,
    congrArg Stats.hits stats⟩

end Z80

end DagSelect
