/-
Module: DagSelect.Proofs.Frame
Purpose: What selection leaves alone, and what it adds. The root, all result types and every node
  that does not come up stay as they are. The only new nodes are finished leaves, and a leaf belongs
  to the one instruction that it was made for: what a pattern hands on to another instruction are
  operands of generic nodes, and only instructions have new leaves as operands.
Main exports: Dag.Keeps, Target.Visits.keeps, Turn.useCount, Capture.slots_place_of_leaf,
  Dag.Rewritten, Dag.Grafts, Dag.Grafts.turn, Dag.Grafts.visit, Target.Visits.grafts,
  Z80.frame_of_selectFunction
-/
import DagSelect.Proofs.Foresight
import DagSelect.Proofs.Z80.OrderIndependence
import DagSelect.Proofs.Z80.RoundTrip

namespace DagSelect

/-! ### What was there -/

/-- What a graph on its way through selection still has from the graph that selection began with. A
node that has not had its turn by now had not had it then. -/
structure Dag.Keeps (input dag : Dag) : Prop where
  root : dag.root = input.root
  results : ∀ id node, input.shape.node? id = some node →
    ∃ now, dag.shape.node? id = some now ∧ now.results = node.results
  visited : ∀ id node, input.shape.node? id = some node → node.state ≠ .unvisited →
    dag.shape.node? id = some node
  waiting : ∀ id node, dag.shape.node? id = some node → node.state = .unvisited →
    input.shape.node? id = some node

namespace Dag.Keeps

variable {input before after : Dag} {id : NodeId} {node changed : Node} {leaves : List Node}

theorem refl (dag : Dag) : dag.Keeps dag where
  root := rfl
  results _ node found := ⟨node, found, rfl⟩
  visited _ _ found _ := found
  waiting _ _ found _ := found

theorem turn (keeps : input.Keeps before) (turn : Turn before after id node changed leaves) :
    input.Keeps after where
  root := turn.root.trans keeps.root
  results other found inputFound := by
    obtain ⟨now, there, results⟩ := keeps.results other found inputFound
    obtain ⟨later, laterFound, same⟩ := turn.exists_results there
    exact ⟨later, laterFound, same.trans results⟩
  visited other found inputFound state := by
    have there := keeps.visited other found inputFound state
    refine turn.node?_other ?_ there
    rintro rfl
    cases (shape_found turn.found).symm.trans there
    exact state turn.unvisited
  waiting other found there state := by
    rcases turn.node?_cases there with ⟨_, rfl⟩ | ⟨_, stayed⟩ | ⟨_, leaf⟩
    · exact absurd state turn.visited
    · exact keeps.waiting other found stayed state
    · obtain ⟨_, _, _, _, rfl⟩ := turn.areLeaves found leaf
      cases state

/-- A node whose turn it is was there. -/
theorem start (keeps : input.Keeps before) (turn : Turn before after id node changed leaves) :
    input.shape.node? id = some node.shape :=
  keeps.waiting id node.shape (shape_found turn.found) turn.unvisited

end Dag.Keeps

theorem Target.Visits.keeps {Features : Type} {target : Target Features} {ids : List NodeId}
    {input : Dag} {first last : Run} (visits : target.Visits ids first last)
    (counted : first.dag.Counted) (keeps : input.Keeps first.dag) : input.Keeps last.dag :=
  visits.of_turns (fun dag => input.Keeps dag) (fun _ keeps turn => keeps.turn turn) counted keeps

/-! ### Edges of a turn, counted -/

namespace Dag

variable {dag : Dag} {id : NodeId}

theorem slots_eq_zero {values : List Value} (apart : ∀ value ∈ values, value.node ≠ id) :
    slots id values = 0 := by
  by_contra some
  obtain ⟨value, member, named⟩ := slots_pos_iff.mp (Nat.pos_of_ne_zero some)
  exact apart value member named

/-- Nothing points past the end of a graph. -/
theorem Counted.useCount_eq_zero (counted : dag.Counted) (outside : dag.size ≤ id) :
    dag.useCount id = 0 := by
  by_contra some
  rcases useCount_pos_iff.mp (Nat.pos_of_ne_zero some) with ⟨user, value, member, rfl⟩ | isRoot
  · exact Nat.not_lt.mpr outside (counted.operands user value member).lt_size
  · obtain ⟨value, root, rfl⟩ := isRoot_eq_true_iff.mp isRoot
    exact Nat.not_lt.mpr outside (counted.root value root).lt_size

/-- Another node in place of one moves edges from the operands of the old to those of the new. -/
theorem slots_update_const (other : NodeId) {node : Node} (changed : Node)
    (found : dag.node? id = some node) :
    slots other (dag.update id fun _ => changed).operandSlots + slots other node.operands =
      slots other dag.operandSlots + slots other changed.operands := by
  have twoSteps : (dag.update id fun _ => changed) =
      (dag.update id fun node => { node with operands := changed.operands }).update id
        fun node => { changed with operands := node.operands } := by
    rw [update_update]
    rfl
  rw [twoSteps, operandSlots_update]
  · exact slots_replace other changed.operands found
  · exact fun _ => rfl

end Dag

/-- A turn moves edges from the operands that the node had to those that it gets. -/
theorem Turn.useCount {before after : Dag} {id : NodeId} {node changed : Node}
    {leaves : List Node} (turn : Turn before after id node changed leaves) (other : NodeId) :
    after.useCount other + Dag.slots other node.operands =
      before.useCount other + Dag.slots other changed.operands := by
  have noOperands : leaves.flatMap Node.operands = [] := by
    rw [List.flatMap_eq_nil_iff]
    intro leaf member
    obtain ⟨_, _, _, _, rfl⟩ := turn.areLeaves leaf member
    rfl
  have moved := Dag.slots_update_const other changed
    (Dag.node?_extend leaves (Dag.shape_found turn.found))
  rw [← turn.shape, Dag.operandSlots_shape, Dag.operandSlots_extend, noOperands, List.append_nil,
    Dag.operandSlots_shape, Node.shape_operands] at moved
  rw [Dag.useCount, Dag.useCount, turn.isRoot]
  omega

/-- A new leaf is one operand of the instruction, if the values that are captured name other
nodes. -/
theorem Capture.slots_place_of_leaf {captures : List Capture} {next id : Nat} (behind : next ≤ id)
    (inside : id < next + (leaves captures).length)
    (apart : ∀ source, Capture.value source ∈ captures → source.node ≠ id) :
    Dag.slots id (place next captures) = 1 := by
  induction captures generalizing next with
  | nil => exact absurd inside (Nat.not_lt.mpr behind)
  | cons capture rest inductionHypothesis =>
      have restApart : ∀ source, Capture.value source ∈ rest → source.node ≠ id :=
        fun source captured => apart source (List.mem_cons_of_mem _ captured)
      rw [leaves_cons, List.length_append, ← Nat.add_assoc] at inside
      rw [place_cons, Dag.slots_append]
      cases isLeaf : capture.leaf? with
      | none =>
          have noLeaf : leaves [capture] = [] := by simp [leaves, isLeaf]
          rw [noLeaf] at inside ⊢
          have first : Dag.slots id (place next [capture]) = 0 := by
            apply Dag.slots_eq_zero
            intro value member
            rcases mem_place_cases member with captured | ⟨lower, upper, _⟩
            · exact apart value (by simp [List.mem_singleton.mp captured])
            · rw [noLeaf] at upper
              exact absurd upper (Nat.not_lt.mpr lower)
          rw [first, Nat.zero_add]
          exact inductionHypothesis behind inside restApart
      | some leaf =>
          have oneLeaf : leaves [capture] = [leaf] := by simp [leaves, isLeaf]
          rw [oneLeaf] at inside ⊢
          rw [place_of_leaf next isLeaf]
          rcases Nat.eq_or_lt_of_le behind with rfl | past
          · -- All later leaves have later positions.
            have later : Dag.slots next (place (next + 1) rest) = 0 := by
              apply Dag.slots_eq_zero
              intro value member
              rcases mem_place_cases member with captured | ⟨past, _⟩
              · exact restApart value captured
              · exact Nat.ne_of_gt past
            simp [Dag.slots_singleton, later]
          · have other : Dag.slots id [{ node := next }] = 0 := by
              simp [Dag.slots_singleton, Nat.ne_of_lt past]
            rw [other, Nat.zero_add]
            exact inductionHypothesis past inside restApart

/-- What a pattern hands on is an operand of a generic node. -/
theorem Pattern.Covers.source_generic {Features : Type} {pattern : Pattern Features} {dag : Dag}
    {types : AddressTypes} {id : NodeId} {node : Node} {own rest : List Capture} {source : Value}
    (covers : pattern.Covers dag types id node own rest) (flat : pattern.isFlat = true)
    (folds : pattern.Folds) (captured : Capture.value source ∈ own ++ rest) :
    ∃ user found op, dag.node? user = some found ∧ found.opcode = .generic op ∧
      source ∈ found.operands := by
  rcases covers.source_cases flat folds captured with
    member | ⟨value, _, _, _, inner, found, opens, member⟩
  · exact ⟨id, node, _, covers.found, covers.opcode, member⟩
  · rcases opens with isSum | ⟨op, _, _, opcode, _⟩
    · exact ⟨value.node, inner, _, found, isSum, member⟩
    · exact ⟨value.node, inner, op, found, opcode, member⟩

/-! ### What is added -/

/-- A generic node that had not had its turn is an instruction by now. -/
def Dag.Rewritten (input dag : Dag) (id : NodeId) : Prop :=
  ∃ node op changed instruction,
    input.shape.node? id = some node ∧ node.state = .unvisited ∧ node.opcode = .generic op ∧
    dag.shape.node? id = some changed ∧ changed.state = .selected ∧
    changed.opcode = .machine instruction

theorem Dag.Rewritten.turn {input before after : Dag} {id other : NodeId} {node changed : Node}
    {leaves : List Node} (rewritten : input.Rewritten before other)
    (turn : Turn before after id node changed leaves) : input.Rewritten after other := by
  obtain ⟨old, op, now, instruction, found, unvisited, generic, there, selected, machine⟩ :=
    rewritten
  refine ⟨old, op, now, instruction, found, unvisited, generic, turn.node?_other ?_ there, selected,
    machine⟩
  rintro rfl
  cases (Dag.shape_found turn.found).symm.trans there
  cases turn.unvisited.symm.trans selected

/-- The graph has come out of another one by turns of its nodes. What was added are finished leaves
for instructions. Each of them has one use, by a node that has become an instruction; no generic
node has one as an operand, so no pattern hands one on. -/
structure Dag.Grafts (input dag : Dag) : Prop where
  grown : input.size ≤ dag.size
  leaves : ∀ id node, input.size ≤ id → dag.shape.node? id = some node →
    ∃ op type payload, op.isTargetLeaf = true ∧ node = .leaf op type payload
  generic : ∀ id node op, dag.shape.node? id = some node → node.opcode = .generic op →
    ∀ value ∈ node.operands, value.node < input.size
  single : ∀ id, input.size ≤ id → id < dag.size → dag.useCount id = 1 ∧
    ∃ user, input.Rewritten dag user ∧ ({ node := id } : Value) ∈ dag.operandsOf user

namespace Dag.Grafts

variable {input before after : Dag} {id : NodeId} {node changed : Node} {leaves : List Node}

/-- Nothing was added yet. -/
theorem refl {dag : Dag} (counted : dag.Counted) : dag.Grafts dag where
  grown := Nat.le_refl _
  leaves id node outside found := by
    have inside := lt_size_of_node? found
    rw [size_shape] at inside
    exact absurd inside (Nat.not_lt.mpr outside)
  generic id node op found _ value member := by
    obtain ⟨uses, found⟩ := exists_uses_of_shape found
    exact (counted.operands id value (mem_operandsOf.mpr ⟨_, found, member⟩)).lt_size
  single id outside inside := absurd inside (Nat.not_lt.mpr outside)

/-- A turn keeps this, if it takes no use of an earlier leaf away and adds none, and if it uses new
leaves once, in an instruction. -/
theorem turn (grafts : input.Grafts before) (keeps : input.Keeps before) (counted : before.Counted)
    (turn : Turn before after id node changed leaves)
    (earlier : ∀ other, input.size ≤ other → other < before.size →
      slots other changed.operands = slots other node.operands)
    (new : ∀ other, before.size ≤ other → other < before.size + leaves.length →
      slots other changed.operands = 1 ∧ ({ node := other } : Value) ∈ changed.operands ∧
      (∃ op, node.opcode = .generic op) ∧ ∃ instruction, changed.opcode = .machine instruction) :
    input.Grafts after := by
  constructor
  · rw [turn.size]
    exact Nat.le_add_right_of_le grafts.grown
  · intro other found outside there
    rcases turn.node?_cases there with ⟨rfl, _⟩ | ⟨_, stayed⟩ | ⟨_, leaf⟩
    · have inside := lt_size_of_node? (keeps.start turn)
      rw [size_shape] at inside
      exact absurd inside (Nat.not_lt.mpr outside)
    · exact grafts.leaves other found outside stayed
    · exact turn.areLeaves found leaf
  · intro other found op there generic value member
    rcases turn.node?_cases there with ⟨_, rfl⟩ | ⟨_, stayed⟩ | ⟨_, leaf⟩
    · obtain ⟨wasGeneric, dead | ⟨operands, _⟩⟩ := turn.generic op generic
      · rcases turn.form with ⟨_, none, _⟩ | ⟨selected, _⟩
        · simp [none] at member
        · cases dead.symm.trans selected
      · rw [operands] at member
        exact grafts.generic id node.shape op (shape_found turn.found) wasGeneric value member
    · exact grafts.generic other found op stayed generic value member
    · obtain ⟨_, _, _, _, rfl⟩ := turn.areLeaves found leaf
      cases member
  · intro other outside inside
    have counts := turn.useCount other
    rcases Nat.lt_or_ge other before.size with old | isNew
    · obtain ⟨once, user, rewritten, member⟩ := grafts.single other outside old
      have same := earlier other outside old
      refine ⟨by omega, user, rewritten.turn turn, ?_⟩
      obtain ⟨_, _, now, _, _, _, _, there, selected, _⟩ := rewritten
      rw [← operandsOf_shape, mem_operandsOf] at member ⊢
      obtain ⟨userNode, found, listed⟩ := member
      cases there.symm.trans found
      refine ⟨now, turn.node?_other ?_ there, listed⟩
      rintro rfl
      cases (shape_found turn.found).symm.trans there
      cases turn.unvisited.symm.trans selected
    · rw [turn.size] at inside
      obtain ⟨once, member, ⟨op, generic⟩, instruction, machine⟩ := new other isNew inside
      have unnamed := counted.useCount_eq_zero isNew
      have notOld : slots other node.operands = 0 := by
        apply slots_eq_zero
        intro value listed
        have named := (counted.operands id value (mem_operandsOf.mpr ⟨node, turn.found, listed⟩))
        exact Nat.ne_of_lt (Nat.lt_of_lt_of_le named.lt_size isNew)
      refine ⟨by omega, id, ⟨node.shape, op, changed, instruction, keeps.start turn, turn.unvisited,
        generic, turn.node?_self, ?_, machine⟩, ?_⟩
      · rcases turn.form with ⟨_, none, _⟩ | ⟨selected, _⟩
        · simp [none] at member
        · exact selected
      · rw [← operandsOf_shape]
        exact mem_operandsOf.mpr ⟨changed, turn.node?_self, member⟩

/-- Leaves that were added are no operands of generic nodes. -/
theorem slots_eq_zero_of_generic {dag : Dag} (grafts : input.Grafts dag) {op : GenericOp}
    (found : dag.node? id = some node) (generic : node.opcode = .generic op) {other : NodeId}
    (outside : input.size ≤ other) : slots other node.operands = 0 := by
  apply slots_eq_zero
  intro value member
  have there := grafts.generic id node.shape op (shape_found found) generic value member
  exact Nat.ne_of_lt (Nat.lt_of_lt_of_le there outside)

/-- All that a pattern hands on was there when selection began. -/
theorem lt_of_captured {dag : Dag} (grafts : input.Grafts dag) {Features : Type}
    {target : Target Features} (shallow : target.Shallow) {pattern : Pattern Features}
    (listed : pattern ∈ target.table.patterns) {types : AddressTypes} {own rest : List Capture}
    (covers : pattern.Covers dag types id node own rest) {source : Value}
    (captured : Capture.value source ∈ own ++ rest) : source.node < input.size := by
  obtain ⟨user, found, op, there, generic, member⟩ :=
    covers.source_generic (shallow.flat pattern listed) (shallow.folds pattern listed) captured
  exact grafts.generic user found.shape op (shape_found there) generic source member

theorem visit {Features : Type} {target : Target Features} {before after : Run}
    (grafts : input.Grafts before.dag) (shallow : target.Shallow) (keeps : input.Keeps before.dag)
    (counted : before.dag.Counted) (visit : target.Visit id before after) :
    input.Grafts after.dag := by
  cases visit with
  | kept _ _ same _ => exact same ▸ grafts
  | @accepted node op found unvisited machine shape _ =>
      have final : node.opcode.isFinal = true := by
        rw [machine]
        rfl
      have isMachine : node.opcode.isMachine = true := by
        rw [machine]
        rfl
      exact grafts.turn keeps counted (.finished found unvisited final (Or.inr isMachine) shape)
        (fun _ _ _ => rfl) fun _ behind inside => absurd inside (Nat.not_lt.mpr behind)
  | discarded found unvisited generic unused shape _ =>
      refine grafts.turn keeps counted (.discarded found unvisited unused shape) ?_
        fun _ behind inside => absurd inside (Nat.not_lt.mpr behind)
      intro other outside _
      exact (grafts.slots_eq_zero_of_generic found generic outside).symm
  | @passed node op found unvisited generic used needsNone shape _ =>
      have final : node.opcode.isFinal = true := by
        rw [generic]
        exact needsNone
      exact grafts.turn keeps counted (.finished found unvisited final (Or.inl used) shape)
        (fun _ _ _ => rfl) fun _ behind inside => absurd inside (Nat.not_lt.mpr behind)
  | @covered node op pattern own rest found unvisited generic used _ finds covers _ shape _ =>
      obtain ⟨listed, _⟩ := Target.cover_finds finds
      have wasThere : ∀ source, Capture.value source ∈ own ++ rest → source.node < input.size :=
        fun _ => grafts.lt_of_captured shallow listed covers
      refine grafts.turn keeps counted (.covered covers unvisited used shape) ?_ ?_
      · intro other outside inside
        rw [grafts.slots_eq_zero_of_generic found generic outside]
        apply slots_eq_zero
        intro value member
        rcases Capture.mem_place_cases member with captured | ⟨behind, _⟩
        · exact Nat.ne_of_lt (Nat.lt_of_lt_of_le (wasThere value captured) outside)
        · exact Nat.ne_of_gt (Nat.lt_of_lt_of_le inside behind)
      · intro other behind inside
        have apart : ∀ source, Capture.value source ∈ own ++ rest → source.node ≠ other := by
          intro source captured
          have outside := Nat.le_trans grafts.grown behind
          exact Nat.ne_of_lt (Nat.lt_of_lt_of_le (wasThere source captured) outside)
        refine ⟨Capture.slots_place_of_leaf behind inside apart, ?_, ⟨op, generic⟩, _, rfl⟩
        obtain ⟨value, member, named⟩ := Capture.exists_mem_place behind inside
        rcases Capture.mem_place_cases member with captured | ⟨_, _, first⟩
        · exact absurd named (apart value captured)
        · obtain ⟨valueNode, valueResult⟩ := value
          cases named
          cases first
          exact member

end Dag.Grafts

theorem Target.Visits.grafts {Features : Type} {target : Target Features} {ids : List NodeId}
    {input : Dag} {first last : Run} (visits : target.Visits ids first last)
    (shallow : target.Shallow) (counted : first.dag.Counted) (keeps : input.Keeps first.dag)
    (grafts : input.Grafts first.dag) : input.Grafts last.dag := by
  induction visits with
  | nil => exact grafts
  | cons visit counted' _ inductionHypothesis =>
      refine inductionHypothesis counted' ?_ (grafts.visit shallow keeps counted visit)
      rcases visit.turn with ⟨same, _⟩ | ⟨_, _, _, turn, _⟩
      · exact same ▸ keeps
      · exact keeps.turn turn

/-! ### Whole runs -/

/-- Two nodes that differ in their use counts at most. -/
theorem Node.same_of_shape_eq {now node : Node} (same : now.shape = node.shape) :
    now.opcode = node.opcode ∧ now.operands = node.operands ∧ now.payload = node.payload ∧
      now.state = node.state := by
  have opcode := congrArg Node.opcode same
  have operands := congrArg Node.operands same
  have payload := congrArg Node.payload same
  have state := congrArg Node.state same
  exact ⟨opcode, operands, payload, state⟩

/-- A leaf that was added is an operand of one instruction, once, and not the root. -/
theorem Dag.Grafts.exists_user {input dag : Dag} {id : NodeId} (grafts : input.Grafts dag)
    (outside : input.size ≤ id) (inside : id < dag.size) :
    ∃ user, input.Rewritten dag user ∧ ({ node := id } : Value) ∈ dag.operandsOf user ∧
      slots id (dag.operandsOf user) = 1 ∧ (∀ other, dag.Depends other id → other = user) ∧
      dag.isRoot id = false := by
  obtain ⟨once, user, rewritten, member⟩ := grafts.single id outside inside
  exact ⟨user, rewritten, member, (useCount_eq_one_iff ⟨_, member, rfl⟩).mp once⟩

/-- A node that became an instruction has come up. -/
theorem Target.Visits.mem_of_rewritten {Features : Type} {target : Target Features}
    {ids : List NodeId} {first last : Run} (visits : target.Visits ids first last) {id : NodeId}
    (rewritten : first.dag.Rewritten last.dag id) : id ∈ ids := by
  obtain ⟨node, _, changed, _, found, unvisited, _, there, selected, _⟩ := rewritten
  by_contra absent
  cases (visits.unchanged found absent).symm.trans there
  cases unvisited.symm.trans selected

namespace Z80

theorem Outcome.counted {input dag : Dag} (counted : input.Counted) (outcome : Outcome input dag) :
    dag.Counted := by
  obtain ⟨_, _, first, last, rfl, rfl, _, visits⟩ := outcome.exists_visits counted
  exact visits.counted counted

/-- The counts are exact after any number of selections. -/
theorem counted_of_outcomes {input dag : Dag} (counted : input.Counted)
    (outcomes : Relation.ReflTransGen Outcome input dag) : dag.Counted := by
  induction outcomes with
  | refl => exact counted
  | tail _ outcome inductionHypothesis => exact outcome.counted inductionHypothesis

/-- What a selection leaves alone, and what it adds. Take a graph that was read, with any number of
selections behind it, and select it for any processor in any order. However selection ends, the root
and the result types of all nodes stay, and a node that had had its turn, or that is not in the
order, stays as it is but for its uses. Every node that was added is a finished leaf with one
result, and its one use is as an operand of a node that this selection has made an instruction. -/
theorem frame_of_selectFunction (processor : Processor) {machine : String → Option MachineOp}
    {text : String} {context context' : TypeContext} {graph : LabelledDag}
    (read : (readDag machine text).run context = .ok graph context') {name : String}
    {order : List NodeId} {run after : Run}
    (earlier : Relation.ReflTransGen Outcome graph.dag run.dag)
    (ended : (processor.target.selectFunction name order).run run = .ok () after ∨
      ∃ error, (processor.target.selectFunction name order).run run =
        .error (.declined error) after) :
    after.dag.root = run.dag.root ∧
    (∀ id node, run.dag.node? id = some node → ∃ now, after.dag.node? id = some now ∧
      now.results = node.results ∧
      (node.state ≠ .unvisited ∨ id ∉ order →
        now.opcode = node.opcode ∧ now.operands = node.operands ∧ now.payload = node.payload ∧
          now.state = node.state)) ∧
    ∀ id leaf, run.dag.size ≤ id → after.dag.node? id = some leaf →
      (∃ op type, op.isTargetLeaf = true ∧ leaf.opcode = .generic op ∧ leaf.results = [type]) ∧
      leaf.operands = [] ∧ leaf.state = .selected ∧ leaf.uses = 1 ∧
      ∃ user ∈ order, run.dag.Rewritten after.dag user ∧
        ({ node := id } : Value) ∈ after.dag.operandsOf user ∧
        Dag.slots id (after.dag.operandsOf user) = 1 ∧
        (∀ other, after.dag.Depends other id → other = user) ∧ after.dag.isRoot id = false := by
  have counted := counted_of_outcomes (readDag_drafted read).1.counted earlier
  obtain ⟨first, last, visited, firstDag, lastDag, listed, visits⟩ :=
    Target.exists_ordered_visits counted ended
  rw [lastDag]
  rw [← firstDag] at counted ⊢
  have keeps := visits.keeps counted (.refl first.dag)
  have grafts := visits.grafts (target_shallow processor) counted (.refl first.dag) (.refl counted)
  refine ⟨keeps.root, ?_, ?_⟩
  · intro id node found
    obtain ⟨now, there, results⟩ := keeps.results id node.shape (Dag.shape_found found)
    obtain ⟨uses, there⟩ := Dag.exists_uses_of_shape there
    refine ⟨_, there, results, fun untouched => Node.same_of_shape_eq ?_⟩
    have stays : last.dag.shape.node? id = some node.shape := by
      rcases untouched with wasVisited | absent
      · exact keeps.visited id node.shape (Dag.shape_found found) wasVisited
      · exact visits.unchanged (Dag.shape_found found) fun member => absent (listed id member).1
    exact Option.some.inj ((Dag.shape_found there).symm.trans stays)
  · intro id leaf outside found
    have inside := Dag.lt_size_of_node? found
    obtain ⟨op, type, payload, isLeaf, same⟩ :=
      grafts.leaves id leaf.shape outside (Dag.shape_found found)
    have once : leaf.uses = 1 := by
      rw [(visits.counted counted).uses id leaf found]
      exact (grafts.single id outside inside).1
    obtain ⟨user, rewritten, usedOnce⟩ := grafts.exists_user outside inside
    have member := visits.mem_of_rewritten rewritten
    exact ⟨⟨op, type, isLeaf, congrArg Node.opcode same, congrArg Node.results same⟩,
      congrArg Node.operands same, congrArg Node.state same, once, user, (listed user member).1,
      rewritten, usedOnce⟩

/-- The store is selected on its own, and then the whole graph. The store and the load have the same
displacement in their addresses. -/
theorem ends_incrementGraph_twice :
    Ends (fun _ _ => False)
      (fun error middle => error = .declined (.unvisited 0) ∧ middle.dag.size = 10 ∧
        (middle.dag.node? 7).map (fun node => (node.state, node.operands)) =
          some (.selected, [⟨4, 1⟩, ⟨6, 0⟩, ⟨1, 0⟩, ⟨9, 0⟩]) ∧
        (middle.dag.node? 9).map Node.payload = some (.constant (-3)) ∧
        Ends
          (fun _ after => (after.dag.node? 10).map Node.payload = some (.constant (-3)) ∧
            (⟨10, 0⟩ : Value) ∈ after.dag.operandsOf 4)
          (fun _ _ => False)
          ((Processor.plain.target.selectFunction "increment" incrementGraph.order).run middle))
      ((Processor.plain.target.selectFunction "increment" [7]).run
        { dag := incrementGraph.dag }) := by
  decide +kernel

/-- The second selection leaves the store as it is, and the load does not share the leaf of the
store, but gets one of its own. -/
theorem frame_incrementGraph :
    ∃ middle after : Run,
      (Processor.plain.target.selectFunction "increment" [7]).run { dag := incrementGraph.dag } =
        .error (.declined (.unvisited 0)) middle ∧
      (Processor.plain.target.selectFunction "increment" incrementGraph.order).run middle =
        .ok () after ∧
      after.dag.root = middle.dag.root ∧
      (∃ store, after.dag.node? 7 = some store ∧ store.state = .selected ∧
        store.operands = [⟨4, 1⟩, ⟨6, 0⟩, ⟨1, 0⟩, ⟨9, 0⟩]) ∧
      ∃ first second, middle.dag.node? 9 = some first ∧ after.dag.node? 10 = some second ∧
        second.payload = first.payload ∧ second.uses = 1 ∧ middle.dag.Rewritten after.dag 4 ∧
        ∀ other, after.dag.Depends other 10 → other = 4 := by
  obtain ⟨_, middle, declines, rfl, size, storeThere, firstThere, ends⟩ :=
    ends_incrementGraph_twice.exists_error
  obtain ⟨_, after, selects, secondThere, loads⟩ := ends.exists_ok
  obtain ⟨store, storeFound, same⟩ := Option.map_eq_some_iff.mp storeThere
  obtain ⟨first, firstFound, firstPayload⟩ := Option.map_eq_some_iff.mp firstThere
  obtain ⟨second, secondFound, secondPayload⟩ := Option.map_eq_some_iff.mp secondThere
  have earlier : Relation.ReflTransGen Outcome incrementGraph.dag middle.dag :=
    .single (.selected (Or.inr ⟨_, declines⟩))
  obtain ⟨root, frame, leaves⟩ :=
    frame_of_selectFunction .plain readDag_incrementText earlier (Or.inl selects)
  obtain ⟨selected, operands⟩ := Prod.mk.inj same
  have wasVisited : store.state ≠ .unvisited := by simp [selected]
  obtain ⟨now, nowFound, _, untouched⟩ := frame 7 store storeFound
  obtain ⟨_, sameOperands, _, sameState⟩ := untouched (Or.inl wasVisited)
  obtain ⟨_, _, _, once, user, _, rewritten, _, _, sole, _⟩ :=
    leaves 10 second (Nat.le_of_eq size) secondFound
  obtain rfl : 4 = user := sole 4 ⟨⟨10, 0⟩, loads, rfl⟩
  exact ⟨middle, after, declines, selects, root,
    ⟨now, nowFound, sameState.trans selected, sameOperands.trans operands⟩,
    first, second, firstFound, secondFound, secondPayload.trans firstPayload.symm, once, rewritten,
    sole⟩

end Z80

end DagSelect
