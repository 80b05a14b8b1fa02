/-
Module: DagSelect.Proofs.Fate
Purpose: What becomes of a node, said of the input alone. A node is wanted if the root, an
  instruction or the final form of a wanted node uses it; this and the pattern that covers it in the
  input decide its fate. Two results in which every node has met its fate agree, up to the positions
  of the new leaves, and so do the statistics.
Main exports: Fate, Target.Demanded, Target.Fated, Target.Fated.unique, Target.Formed,
  Target.Formed.depends_iff, Dag.Counterpart, Dag.SameForm, Target.Formed.exists_sameForm,
  Stats.tally, Fate.tally_foldl_perm
-/
import DagSelect.Proofs.Turn
import Mathlib.Data.List.Perm.Basic

namespace DagSelect

variable {Features : Type}

/-! ### Fates -/

/-- What becomes of a node. -/
inductive Fate (Features : Type) where
  /-- It is an instruction and stays one. -/
  | accepted
  /-- It dies. -/
  | discarded
  /-- It needs no selection. -/
  | passed
  /-- It becomes the instruction of a pattern. -/
  | covered (pattern : Pattern Features) (captures : List Capture)
  deriving Inhabited

namespace Fate

/-- The final form of a node, if the first new leaf goes to a given position. -/
def change (next : Nat) : Fate Features → Node → Node
  | .accepted => Node.finished
  | .discarded => Node.discarded
  | .passed => Node.finished
  | .covered pattern captures => Node.morphed pattern.emit (Capture.place next captures)

/-- The leaves that a node needs in its final form. -/
def leaves : Fate Features → List Node
  | .accepted => []
  | .discarded => []
  | .passed => []
  | .covered _ captures => Capture.leaves captures

/-- What the session records. -/
def record : Fate Features → Session → Session
  | .accepted => Session.recordPreselected
  | .discarded => Session.recordDead
  | .passed => Session.recordPassthrough
  | .covered pattern _ => (·.recordPattern pattern.name)

/-- The node uses a value of the input in its final form. -/
def Uses (node : Node) (value : Value) : Fate Features → Prop
  | .accepted => value ∈ node.operands
  | .discarded => False
  | .passed => value ∈ node.operands
  | .covered _ captures => Capture.value value ∈ captures

end Fate

namespace Target

variable {target : Target Features} {input dag : Dag} {id : NodeId} {node : Node}
  {fate fate' : Fate Features}

/-- The node is used by the root, by an instruction, or by a node that is wanted itself. -/
inductive Demanded (target : Target Features) (input : Dag) : NodeId → Prop where
  | root {value : Value} (root : input.root = some value) : Demanded target input value.node
  | instruction {user : NodeId} {node : Node} {op : MachineOp} {value : Value}
      (found : input.node? user = some node) (machine : node.opcode = .machine op)
      (member : value ∈ node.operands) : Demanded target input value.node
  | passed {user : NodeId} {node : Node} {op : GenericOp} {value : Value}
      (demanded : Demanded target input user) (found : input.node? user = some node)
      (generic : node.opcode = .generic op) (needsNone : op.needsNoSelection = true)
      (member : value ∈ node.operands) : Demanded target input value.node
  | covered {user : NodeId} {node : Node} {op : GenericOp} {pattern : Pattern Features}
      {captures : List Capture} {value : Value} (demanded : Demanded target input user)
      (found : input.node? user = some node) (generic : node.opcode = .generic op)
      (needs : op.needsNoSelection = false)
      (finds : (target.cover input user op).Finds (pattern, captures))
      (captured : Capture.value value ∈ captures) : Demanded target input value.node

/-- What becomes of a node of the input. -/
inductive Fated (target : Target Features) (input : Dag) (id : NodeId) : Fate Features → Prop where
  | accepted {node : Node} {op : MachineOp} (found : input.node? id = some node)
      (machine : node.opcode = .machine op) : Fated target input id .accepted
  | discarded {node : Node} {op : GenericOp} (found : input.node? id = some node)
      (generic : node.opcode = .generic op) (unwanted : ¬ target.Demanded input id) :
      Fated target input id .discarded
  | passed {node : Node} {op : GenericOp} (found : input.node? id = some node)
      (generic : node.opcode = .generic op) (demanded : target.Demanded input id)
      (needsNone : op.needsNoSelection = true) : Fated target input id .passed
  | covered {node : Node} {op : GenericOp} {pattern : Pattern Features} {captures : List Capture}
      (found : input.node? id = some node) (generic : node.opcode = .generic op)
      (demanded : target.Demanded input id) (needs : op.needsNoSelection = false)
      (finds : (target.cover input id op).Finds (pattern, captures))
      (makes : ∀ capture ∈ captures, capture.Makes) :
      Fated target input id (.covered pattern captures)

namespace Fated

/-- The fate of an instruction. -/
theorem of_machine {op : MachineOp} (fated : target.Fated input id fate)
    (found : input.node? id = some node) (machine : node.opcode = .machine op) :
    fate = .accepted := by
  cases fated with
  | accepted _ _ => rfl
  | discarded found' generic _ =>
      cases found'.symm.trans found
      cases generic.symm.trans machine
  | passed found' generic _ _ =>
      cases found'.symm.trans found
      cases generic.symm.trans machine
  | covered found' generic _ _ _ _ =>
      cases found'.symm.trans found
      cases generic.symm.trans machine

/-- The fate of a generic node. -/
theorem of_generic {op : GenericOp} (fated : target.Fated input id fate)
    (found : input.node? id = some node) (generic : node.opcode = .generic op) :
    (fate = .discarded ∧ ¬ target.Demanded input id) ∨
    (fate = .passed ∧ target.Demanded input id ∧ op.needsNoSelection = true) ∨
    ∃ pattern captures, fate = .covered pattern captures ∧ target.Demanded input id ∧
      op.needsNoSelection = false ∧ (target.cover input id op).Finds (pattern, captures) ∧
      ∀ capture ∈ captures, capture.Makes := by
  cases fated with
  | accepted found' machine =>
      cases found'.symm.trans found
      cases generic.symm.trans machine
  | discarded _ _ unwanted => exact Or.inl ⟨rfl, unwanted⟩
  | passed found' generic' demanded needsNone =>
      cases found'.symm.trans found
      cases generic.symm.trans generic'
      exact Or.inr (Or.inl ⟨rfl, demanded, needsNone⟩)
  | covered found' generic' demanded needs finds makes =>
      cases found'.symm.trans found
      cases generic.symm.trans generic'
      exact Or.inr (Or.inr ⟨_, _, rfl, demanded, needs, finds, makes⟩)

/-- A node has one fate. -/
theorem unique (fated : target.Fated input id fate) (fated' : target.Fated input id fate') :
    fate = fate' := by
  cases fated with
  | accepted found machine => exact (fated'.of_machine found machine).symm
  | discarded found generic unwanted =>
      rcases fated'.of_generic found generic with
        ⟨rfl, _⟩ | ⟨_, demanded, _⟩ | ⟨_, _, _, demanded, _⟩
      · rfl
      · exact absurd demanded unwanted
      · exact absurd demanded unwanted
  | passed found generic demanded needsNone =>
      rcases fated'.of_generic found generic with ⟨_, unwanted⟩ | ⟨rfl, _⟩ | ⟨_, _, _, _, needs, _⟩
      · exact absurd demanded unwanted
      · rfl
      · cases needs.symm.trans needsNone
  | covered found generic demanded needs finds makes =>
      rcases fated'.of_generic found generic with
        ⟨_, unwanted⟩ | ⟨_, _, needsNone⟩ | ⟨_, _, rfl, _, _, finds', _⟩
      · exact absurd demanded unwanted
      · cases needs.symm.trans needsNone
      · cases finds.symm.trans finds'
        rfl

theorem exists_node (fated : target.Fated input id fate) :
    ∃ node, input.node? id = some node := by
  cases fated with
  | accepted found _ => exact ⟨_, found⟩
  | discarded found _ _ => exact ⟨_, found⟩
  | passed found _ _ _ => exact ⟨_, found⟩
  | covered found _ _ _ _ _ => exact ⟨_, found⟩

/-- What a node uses in its final form is wanted. -/
theorem demanded_of_uses {value : Value} (fated : target.Fated input id fate)
    (found : input.node? id = some node) (uses : fate.Uses node value) :
    target.Demanded input value.node := by
  cases fated with
  | accepted found' machine =>
      cases found'.symm.trans found
      exact .instruction found machine uses
  | discarded _ _ _ => cases uses
  | passed found' generic demanded needsNone =>
      cases found'.symm.trans found
      exact .passed demanded found generic needsNone uses
  | covered found' generic demanded needs finds _ =>
      cases found'.symm.trans found
      exact .covered demanded found generic needs finds uses

end Fated

/-- A node is wanted because the root names it, or because a node above it uses it in its final
form. -/
theorem Demanded.exists_user (folds : target.Folds) (demanded : target.Demanded input id) :
    (∃ value, input.root = some value ∧ value.node = id) ∨
    ∃ user node value, input.node? user = some node ∧ input.Beneath user value ∧ value.node = id ∧
      ∀ fate, target.Fated input user fate → fate.Uses node value := by
  cases demanded with
  | root root => exact Or.inl ⟨_, root, rfl⟩
  | @instruction user node op value found machine member =>
      refine Or.inr ⟨user, node, value, found, ?_, rfl, fun fate fated => ?_⟩
      · exact .of_mem (Dag.mem_operandsOf.mpr ⟨node, found, member⟩)
      · rw [fated.of_machine found machine]
        exact member
  | @passed user node op value demanded found generic needsNone member =>
      refine Or.inr ⟨user, node, value, found, ?_, rfl, fun fate fated => ?_⟩
      · exact .of_mem (Dag.mem_operandsOf.mpr ⟨node, found, member⟩)
      · rcases fated.of_generic found generic with
          ⟨_, unwanted⟩ | ⟨rfl, _⟩ | ⟨_, _, _, _, needs, _⟩
        · exact absurd demanded unwanted
        · exact member
        · cases needs.symm.trans needsNone
  | @covered user node op pattern captures value demanded found generic needs finds captured =>
      refine Or.inr ⟨user, node, value, found, ?_, rfl, fun fate fated => ?_⟩
      · obtain ⟨listed, _, _, matched⟩ := cover_finds finds
        obtain ⟨_, own, rest, covers, rfl⟩ := Pattern.covers_of_finds matched
        exact covers.beneath (folds pattern listed) captured
      · rcases fated.of_generic found generic with
          ⟨_, unwanted⟩ | ⟨_, _, needsNone⟩ | ⟨_, _, rfl, _, _, finds', _⟩
        · exact absurd demanded unwanted
        · cases needs.symm.trans needsNone
        · cases finds.symm.trans finds'
          exact captured

/-! ### Nodes that have met their fate -/

/-- A node of a later graph is what its fate makes of it, and its new leaves are there. -/
structure Formed (target : Target Features) (input dag : Dag) (id : NodeId)
    (fate : Fate Features) : Prop where
  fated : target.Fated input id fate
  final : ∃ node next, input.node? id = some node ∧ input.size ≤ next ∧
    dag.shape.node? id = some (fate.change next node.shape) ∧
    ∀ offset leaf, fate.leaves[offset]? = some leaf → dag.shape.node? (next + offset) = some leaf

namespace Formed

/-- A node meets its fate in a turn. -/
theorem of_shape {before after : Dag} (fated : target.Fated input id fate)
    (found : input.node? id = some node) (there : before.shape.node? id = some node.shape)
    (grown : input.size ≤ before.size)
    (shape : after.shape = (before.shape.extend fate.leaves).update id (fate.change before.size)) :
    target.Formed input after id fate := by
  refine ⟨fated, node, before.size, found, grown, ?_, ?_⟩
  · rw [shape, Dag.node?_update_self, Dag.node?_extend _ there]
    rfl
  · intro offset leaf listed
    have different : before.size + offset ≠ id :=
      Nat.ne_of_gt (Nat.lt_of_lt_of_le (Dag.lt_size_of_node? found) (Nat.le_add_right_of_le grown))
    rw [shape, Dag.node?_update_of_ne _ different, Dag.node?_extend_of_le, Dag.size_shape,
      Nat.add_sub_cancel_left]
    · exact listed
    · rw [Dag.size_shape]
      exact Nat.le_add_right _ _

/-- The turn of another node of the input changes nothing. -/
theorem turn {before after : Dag} {other : NodeId} {otherNode changed : Node} {leaves : List Node}
    (formed : target.Formed input before id fate)
    (turn : Turn before after other otherNode changed leaves) (different : id ≠ other)
    (inside : other < input.size) : target.Formed input after id fate := by
  obtain ⟨node, next, found, behind, final, placed⟩ := formed.final
  refine ⟨formed.fated, node, next, found, behind, turn.node?_other different final, ?_⟩
  intro offset leaf listed
  apply turn.node?_other _ (placed offset leaf listed)
  exact Nat.ne_of_gt (Nat.lt_of_lt_of_le inside (Nat.le_add_right_of_le behind))

/-- A node uses what its fate says. -/
theorem depends_iff {other : NodeId} (formed : target.Formed input dag id fate)
    (found : input.node? id = some node) (inside : other < input.size) :
    dag.Depends id other ↔ ∃ value, fate.Uses node value ∧ value.node = other := by
  obtain ⟨node', next, found', behind, final, _⟩ := formed.final
  cases found'.symm.trans found
  rw [← Dag.depends_shape, Dag.Depends, Dag.operandsOf, final]
  cases fate with
  | accepted => rfl
  | discarded =>
      simp [Fate.change, Fate.Uses, Node.discarded]
  | passed => rfl
  | covered pattern captures =>
      constructor
      · rintro ⟨value, member, rfl⟩
        rcases Capture.mem_place_cases member with captured | ⟨past, _⟩
        · exact ⟨value, captured, rfl⟩
        · exact absurd (Nat.le_trans behind past) (Nat.not_le.mpr inside)
      · rintro ⟨value, captured, rfl⟩
        exact ⟨value, Capture.mem_place_of_value captured, rfl⟩

end Formed

end Target

/-! ### Results that agree -/

/-- An operand in one result and the operand in its place in another: both are the same value of the
input, or both are new leaves of the same form. -/
inductive Dag.Counterpart (input dag dag' : Dag) : Value → Value → Prop where
  | original {value : Value} (inside : value.node < input.size) :
      Counterpart input dag dag' value value
  | leaf {value value' : Value} {leaf leaf' : Node} (behind : input.size ≤ value.node)
      (behind' : input.size ≤ value'.node) (result : value.result = value'.result)
      (found : dag.node? value.node = some leaf) (found' : dag'.node? value'.node = some leaf')
      (opcode : leaf.opcode = leaf'.opcode) (results : leaf.results = leaf'.results)
      (payload : leaf.payload = leaf'.payload) : Counterpart input dag dag' value value'

/-- A node in one result and the same node in another. -/
structure Dag.SameForm (input dag dag' : Dag) (node node' : Node) : Prop where
  state : node.state = node'.state
  opcode : node.opcode = node'.opcode
  payload : node.payload = node'.payload
  results : node.results = node'.results
  operands : List.Forall₂ (Counterpart input dag dag') node.operands node'.operands

section Agreement

variable {target : Target Features} {input dag dag' : Dag} {id : NodeId} {fate : Fate Features}

theorem Dag.Counterpart.of_leaf {next next' : Nat} {leaf : Node} (behind : input.size ≤ next)
    (behind' : input.size ≤ next') (found : dag.shape.node? next = some leaf)
    (found' : dag'.shape.node? next' = some leaf) :
    Counterpart input dag dag' { node := next } { node := next' } := by
  obtain ⟨uses, found⟩ := exists_uses_of_shape found
  obtain ⟨uses', found'⟩ := exists_uses_of_shape found'
  exact .leaf behind behind' rfl found found' rfl rfl rfl

/-- The operands of an instruction agree, wherever its leaves are. -/
theorem Capture.forall₂_place {captures : List Capture} {next next' : Nat}
    (inside : ∀ value, Capture.value value ∈ captures → value.node < input.size)
    (behind : input.size ≤ next) (behind' : input.size ≤ next')
    (placed : ∀ offset leaf, (leaves captures)[offset]? = some leaf →
      dag.shape.node? (next + offset) = some leaf)
    (placed' : ∀ offset leaf, (leaves captures)[offset]? = some leaf →
      dag'.shape.node? (next' + offset) = some leaf) :
    List.Forall₂ (Dag.Counterpart input dag dag') (place next captures) (place next' captures) := by
  induction captures generalizing next next' with
  | nil => exact .nil
  | cons capture rest inductionHypothesis =>
      have later := fun value member => inside value (List.mem_cons_of_mem capture member)
      rw [place_cons next, place_cons next']
      rw [leaves_cons] at placed placed'
      cases isLeaf : capture.leaf? with
      | none =>
          have noLeaf : leaves [capture] = [] := by simp [leaves, isLeaf]
          rw [noLeaf] at placed placed' ⊢
          cases capture with
          | value source =>
              exact .cons (.original (inside source List.mem_cons_self))
                (inductionHypothesis later behind behind' placed placed')
          | _ => cases isLeaf
      | some leaf =>
          have oneLeaf : leaves [capture] = [leaf] := by simp [leaves, isLeaf]
          rw [oneLeaf] at placed placed' ⊢
          rw [place_of_leaf next isLeaf, place_of_leaf next' isLeaf]
          apply List.Forall₂.cons
          · exact .of_leaf behind behind' (placed 0 leaf rfl) (placed' 0 leaf rfl)
          · apply inductionHypothesis later (Nat.le_succ_of_le behind) (Nat.le_succ_of_le behind')
            · intro offset other listed
              rw [Nat.succ_add]
              exact placed (offset + 1) other listed
            · intro offset other listed
              rw [Nat.succ_add]
              exact placed' (offset + 1) other listed

/-- A node that has met its fate in two graphs has the same form in both. -/
theorem Target.Formed.exists_sameForm (counted : input.Counted)
    (formed : target.Formed input dag id fate) (formed' : target.Formed input dag' id fate) :
    ∃ node node', dag.node? id = some node ∧ dag'.node? id = some node' ∧
      Dag.SameForm input dag dag' node node' := by
  obtain ⟨node, next, found, behind, final, placed⟩ := formed.final
  obtain ⟨node', next', found', behind', final', placed'⟩ := formed'.final
  cases found'.symm.trans found
  obtain ⟨uses, there⟩ := Dag.exists_uses_of_shape final
  obtain ⟨uses', there'⟩ := Dag.exists_uses_of_shape final'
  have originals : List.Forall₂ (Dag.Counterpart input dag dag') node.operands node.operands := by
    rw [List.forall₂_same]
    intro value member
    apply Dag.Counterpart.original
    exact (counted.operands id value (Dag.mem_operandsOf.mpr ⟨node, found, member⟩)).lt_size
  refine ⟨_, _, there, there', ?_⟩
  cases formed.fated with
  | accepted _ _ => exact ⟨rfl, rfl, rfl, rfl, originals⟩
  | discarded _ _ _ => exact ⟨rfl, rfl, rfl, rfl, .nil⟩
  | passed _ _ _ _ => exact ⟨rfl, rfl, rfl, rfl, originals⟩
  | covered _ _ _ _ finds _ =>
      refine ⟨rfl, rfl, rfl, rfl, Capture.forall₂_place ?_ behind behind' placed placed'⟩
      intro value captured
      obtain ⟨_, _, _, matched⟩ := cover_finds finds
      obtain ⟨_, own, rest, covers, rfl⟩ := Pattern.covers_of_finds matched
      exact ((covers.handedOn captured).resolves counted).lt_size

end Agreement

/-! ### Statistics -/

/-- Statistics without the order in which the patterns are listed. -/
structure Tally where
  functionsSelected : Nat
  nodesSelected : Nat
  nodesPreselected : Nat
  nodesPassedThrough : Nat
  nodesDead : Nat
  hits : String → Option Nat

/-- The statistics without the order in which the patterns are listed. -/
def Stats.tally (stats : Stats) : Tally where
  functionsSelected := stats.functionsSelected
  nodesSelected := stats.nodesSelected
  nodesPreselected := stats.nodesPreselected
  nodesPassedThrough := stats.nodesPassedThrough
  nodesDead := stats.nodesDead
  hits name := stats.hits.lookup name

/-- The end of a function counts the same for sessions with the same tally. -/
theorem Session.tally_finish {first second : Session} (current : first.current = second.current)
    (same : first.stats.tally = second.stats.tally) :
    first.finish.stats.tally = second.finish.stats.tally := by
  unfold Session.finish
  rw [← current]
  cases first.current with
  | none => exact same
  | some name =>
      simp only [Stats.tally, Tally.mk.injEq] at same ⊢
      exact ⟨by rw [same.1], same.2⟩

/-- The name that is counted has one more hit, and the others have as many as before. -/
theorem Stats.lookup_countHit (name other : String) (hits : List (String × Nat)) :
    (countHit name hits).lookup other =
      if other = name then some ((hits.lookup name).getD 0 + 1) else hits.lookup other := by
  induction hits with
  | nil =>
      by_cases same : other = name
      · simp [countHit, same]
      · simp [countHit, same, List.lookup_cons, beq_false_of_ne same]
  | cons hit rest inductionHypothesis =>
      obtain ⟨listed, count⟩ := hit
      by_cases isListed : listed = name
      · subst isListed
        by_cases same : other = listed
        · simp [countHit, same]
        · simp [countHit, same, List.lookup_cons, beq_false_of_ne same]
      · have named : (name == listed) = false := beq_false_of_ne (Ne.symm isListed)
        rw [countHit, if_neg isListed, List.lookup_cons, List.lookup_cons, inductionHypothesis,
          List.lookup_cons, named]
        by_cases same : other = listed
        · subst same
          simp [isListed]
        · simp [beq_false_of_ne same]

namespace Fate

/-- What a fate adds to a tally. -/
def count (tally : Tally) : Fate Features → Tally
  | .accepted => { tally with nodesPreselected := tally.nodesPreselected + 1 }
  | .discarded => { tally with nodesDead := tally.nodesDead + 1 }
  | .passed => { tally with nodesPassedThrough := tally.nodesPassedThrough + 1 }
  | .covered pattern _ =>
    { tally with
      nodesSelected := tally.nodesSelected + 1
      hits := fun name =>
        if name = pattern.name then some ((tally.hits pattern.name).getD 0 + 1)
        else tally.hits name }

theorem tally_record (fate : Fate Features) (session : Session) :
    (fate.record session).stats.tally = fate.count session.stats.tally := by
  cases fate with
  | covered pattern captures =>
      simp only [record, count, Session.recordPattern, Stats.tally, Tally.mk.injEq, true_and]
      funext name
      exact Stats.lookup_countHit pattern.name name session.stats.hits
  | _ => rfl

/-- The order of counting does not matter. -/
theorem count_count (first second : Fate Features) (tally : Tally) :
    second.count (first.count tally) = first.count (second.count tally) := by
  cases first with
  | covered pattern captures =>
      cases second with
      | covered pattern' captures' =>
          simp only [count, Tally.mk.injEq, true_and]
          funext name
          by_cases same : pattern.name = pattern'.name
          · simp [same]
          · by_cases isFirst : name = pattern.name
            · simp [isFirst, same]
            · simp [isFirst, Ne.symm same]
      | _ => rfl
  | _ => cases second <;> rfl

theorem current_record (fate : Fate Features) (session : Session) :
    (fate.record session).current = session.current := by
  cases fate <;> rfl

/-- Recording fates does not change the function that is being selected. -/
theorem current_foldl (ids : List NodeId) (fateOf : NodeId → Fate Features) (session : Session) :
    (ids.foldl (fun session id => (fateOf id).record session) session).current =
      session.current := by
  induction ids generalizing session with
  | nil => rfl
  | cons id ids inductionHypothesis =>
      rw [List.foldl_cons, inductionHypothesis, current_record]

/-- Two sessions that record the same fates in different orders have the same tally. -/
theorem tally_foldl_perm {ids ids' : List NodeId} (perm : ids.Perm ids')
    (fateOf : NodeId → Fate Features) (session : Session) :
    (ids.foldl (fun session id => (fateOf id).record session) session).stats.tally =
      (ids'.foldl (fun session id => (fateOf id).record session) session).stats.tally := by
  have tallies : ∀ (ids : List NodeId) (session : Session),
      (ids.foldl (fun session id => (fateOf id).record session) session).stats.tally =
        ids.foldl (fun tally id => (fateOf id).count tally) session.stats.tally := by
    intro ids
    induction ids with
    | nil => exact fun _ => rfl
    | cons id ids inductionHypothesis =>
        intro session
        rw [List.foldl_cons, List.foldl_cons, inductionHypothesis, tally_record]
  have commutes : RightCommutative fun (tally : Tally) id => (fateOf id).count tally :=
    ⟨fun tally first second => count_count (fateOf first) (fateOf second) tally⟩
  rw [tallies, tallies]
  exact perm.foldl_eq _

end Fate

end DagSelect
