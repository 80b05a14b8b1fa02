/-
Module: DagSelect.Proofs.Refusal
Purpose: What an error of selection says. An order that names no node is refused before anything is
  touched. A node that no pattern covers is left as it was, while every node that the order names
  after it has its final form. A node that selection never came to is the first one that the order
  leaves out. The graph that is left behind shows each of these.
Main exports: Dag.FirstOutside, Dag.FirstMissing, Target.FirstIllegal, Target.Stuck,
  Target.matchNode_of_uncovered, Target.Declines.stuck, declined_exactly
-/
import DagSelect.Proofs.Reading
import DagSelect.Proofs.Turn
import DagSelect.Proofs.Z80.Table

namespace DagSelect

/-! ### What an error can say -/

/-- The node has had its turn. -/
def Dag.Visited (dag : Dag) (id : NodeId) : Prop :=
  ∃ node, dag.node? id = some node ∧ node.state ≠ .unvisited

/-- The first entry of an order that names no node. -/
def Dag.FirstOutside (dag : Dag) (order : List NodeId) (id : NodeId) : Prop :=
  ∃ front back, order = front ++ id :: back ∧ dag.size ≤ id ∧ ∀ other ∈ front, other < dag.size

/-- The first node that an order leaves out. -/
structure Dag.FirstMissing (dag : Dag) (order : List NodeId) (id : NodeId) : Prop where
  inside : id < dag.size
  missing : id ∉ order
  first : ∀ other < id, other ∈ order

/-- The error is about a node that no pattern covers. -/
def SelectError.Blames (error : SelectError) (id : NodeId) : Prop :=
  ∃ description, error = .noMatch id description ∨ ∃ type, error = .illegalType id type description

theorem SelectError.Blames.unique {error : SelectError} {id other : NodeId}
    (blames : error.Blames id) (blamesOther : error.Blames other) : id = other := by
  obtain ⟨_, rfl | ⟨_, rfl⟩⟩ := blames
  · obtain ⟨_, same | ⟨_, same⟩⟩ := blamesOther
    · exact (SelectError.noMatch.inj same).1
    · cases same
  · obtain ⟨_, same | ⟨_, same⟩⟩ := blamesOther
    · cases same
    · exact (SelectError.illegalType.inj same).1

namespace Target

variable {Features : Type}

/-- The first sized result of a node that no register holds. -/
def FirstIllegal (target : Target Features) (node : Node) (type : ValueType) : Prop :=
  ∃ front back, node.results = front ++ type :: back ∧ type.isSized = true ∧
    target.isLegal type = false ∧
    ∀ other ∈ front, other.isSized = true → target.isLegal other = true

/-- Selection cannot go on at a node: the node is still to be selected, none of the patterns that
the processor has matches it, and the nodes that the order names behind its last place are done. -/
structure Stuck (target : Target Features) (order : List NodeId) (dag : Dag) (id : NodeId)
    (node : Node) : Prop where
  found : dag.node? id = some node
  unvisited : node.state = .unvisited
  needs : ∃ op, node.opcode = .generic op ∧ op.needsNoSelection = false
  used : node.uses ≠ 0 ∨ dag.isRoot id = true
  unmatched : ∀ pattern ∈ target.table.patterns, pattern.guard.holds target.features = true →
    (pattern.matchNode dag target.addressTypes id).result = .ok none
  later : ∃ front back, order = front ++ id :: back ∧ id ∉ back ∧ ∀ other ∈ back, dag.Visited other

end Target

/-! ### The search for a pattern that came to nothing -/

namespace Attempt

variable {α β : Type}

/-- A sequence of attempts fails if its first one does. -/
theorem result_bind_of_failed {first : Attempt α} {next : α → Attempt β}
    (failed : first.result = .ok none) : (first >>= next).result = .ok none := by
  change (first.andThen next).result = .ok none
  unfold andThen
  rw [failed]

/-- A sequence of attempts goes on with what its first one found. -/
theorem result_bind_of_finds {first : Attempt α} {next : α → Attempt β} {a : α}
    (found : first.Finds a) : (first >>= next).result = (next a).result := by
  change (first.andThen next).result = _
  unfold andThen
  rw [show first.result = .ok (some a) from found]

/-- What is only passed on was not there to begin with. -/
theorem failed_of_bind_pure {first : Attempt α} {change : α → β}
    (failed : (first >>= fun a => pure (change a)).result = .ok none) :
    first.result = .ok none := by
  change (first.andThen fun a => success (change a)).result = .ok none at failed
  unfold andThen at failed
  split at failed
  · cases failed
  · assumption
  · cases failed

theorem failed_of_orElse {first : Attempt α} {other : Unit → Attempt α}
    (failed : (first.orElse other).result = .ok none) :
    first.result = .ok none ∧ (other ()).result = .ok none := by
  unfold orElse at failed
  split at failed
  · exact ⟨by assumption, failed⟩
  · contradiction

end Attempt

/-- A pattern for another opcode does not match. -/
theorem Pattern.matchNode_of_opcode_ne {Features : Type} {pattern : Pattern Features} {dag : Dag}
    {types : AddressTypes} {id : NodeId} {node : Node} (found : dag.node? id = some node)
    (different : node.opcode ≠ .generic pattern.op) :
    (pattern.matchNode dag types id).result = .ok none := by
  unfold Pattern.matchNode
  rw [Attempt.result_bind_of_finds (Attempt.finds_ask.mpr (Dag.fetch_eq_ok_iff.mpr found))]
  apply Attempt.result_bind_of_failed
  simp [different, Attempt.require, Attempt.failure]

namespace Target

variable {Features : Type} {target : Target Features} {dag : Dag} {id : NodeId}

/-- If the search comes to nothing, every pattern of the list that the processor has has failed. -/
theorem matchNode_of_firstMatch {patterns : List (Pattern Features)}
    (nothing : (target.firstMatch dag id patterns).result = .ok none) :
    ∀ pattern ∈ patterns, pattern.guard.holds target.features = true →
      (pattern.matchNode dag target.addressTypes id).result = .ok none := by
  induction patterns with
  | nil => simp
  | cons head rest inductionHypothesis =>
      unfold firstMatch at nothing
      rw [List.forall_mem_cons]
      by_cases guarded : head.guard.holds target.features = true
      · rw [if_pos guarded] at nothing
        obtain ⟨headFailed, restFailed⟩ := Attempt.failed_of_orElse nothing
        exact ⟨fun _ => Attempt.failed_of_bind_pure headFailed, inductionHypothesis restFailed⟩
      · rw [if_neg guarded] at nothing
        exact ⟨fun holds => absurd holds guarded, inductionHypothesis nothing⟩

/-- No pattern of the table that the processor has matches a node that is declined, whatever opcode
the pattern is for. -/
theorem matchNode_of_uncovered {node : Node} {op : GenericOp} (found : dag.node? id = some node)
    (generic : node.opcode = .generic op)
    (uncovered : (target.cover dag id op).result = .ok none) :
    ∀ pattern ∈ target.table.patterns, pattern.guard.holds target.features = true →
      (pattern.matchNode dag target.addressTypes id).result = .ok none := by
  intro pattern listed guarded
  by_cases sameOp : pattern.op = op
  · apply matchNode_of_firstMatch uncovered pattern _ guarded
    exact PatternTable.mem_candidates_iff.mpr ⟨listed, sameOp⟩
  · apply Pattern.matchNode_of_opcode_ne found
    rw [generic]
    intro same
    cases same
    exact sameOp rfl

/-! ### Why a run was declined -/

theorem firstOutside_iff {order : List NodeId} :
    order.find? (fun id => !dag.contains id) = some id ↔ dag.FirstOutside order id := by
  rw [List.find?_eq_some_iff_append]
  simp only [Dag.FirstOutside, Dag.contains, Bool.not_eq_true', decide_eq_false_iff_not, Nat.not_lt,
    Bool.not_not, decide_eq_true_eq]
  constructor
  · rintro ⟨outside, front, back, rfl, inside⟩
    exact ⟨front, back, rfl, outside, inside⟩
  · rintro ⟨front, back, rfl, outside, inside⟩
    exact ⟨outside, front, back, rfl, inside⟩

/-- An order that names nodes only has no first entry outside. -/
theorem not_firstOutside {order : List NodeId} (inside : ∀ id ∈ order, id < dag.size) :
    ¬ dag.FirstOutside order id := by
  rintro ⟨front, back, rfl, outside, _⟩
  exact absurd (inside id (by simp)) (Nat.not_lt.mpr outside)

/-- An error at a node that no pattern covers names the node, and the first result that no register
holds if there is one. -/
theorem refusal_iff {node : Node} {type : ValueType} :
    (∃ description, target.refusal id node = .illegalType id type description) ↔
      target.FirstIllegal node type := by
  have first : node.results.find? (fun type => type.isSized && !target.isLegal type) = some type ↔
      target.FirstIllegal node type := by
    rw [List.find?_eq_some_iff_append]
    simp only [FirstIllegal, Bool.and_eq_true, Bool.not_eq_true', Bool.not_and, Bool.or_eq_true,
      Bool.not_not]
    constructor
    · rintro ⟨⟨sized, illegal⟩, front, back, split, before⟩
      refine ⟨front, back, split, sized, illegal, ?_⟩
      intro other member otherSized
      simpa [otherSized] using before other member
    · rintro ⟨front, back, split, sized, illegal, before⟩
      refine ⟨⟨sized, illegal⟩, front, back, split, ?_⟩
      intro other member
      cases otherSized : other.isSized with
      | false => exact Or.inl rfl
      | true => exact Or.inr (before other member otherSized)
  rw [← first, refusal]
  split
  · rename_i found
    simp [found]
  · rename_i nothing
    simp [nothing]

/-- The error at a node that no pattern covers is about that node. -/
theorem blames_refusal (id : NodeId) (node : Node) : (target.refusal id node).Blames id := by
  unfold refusal
  split
  · exact ⟨_, Or.inr ⟨_, rfl⟩⟩
  · exact ⟨_, Or.inl rfl⟩

namespace Visits

variable {ids : List NodeId} {first last : Run}

/-- A run takes no node away. -/
theorem size_le (visits : target.Visits ids first last) (counted : first.dag.Counted) :
    first.dag.size ≤ last.dag.size := by
  apply visits.of_turns (fun dag => first.dag.size ≤ dag.size) _ counted (Nat.le_refl _)
  intro before after id node changed leaves _ grown turn
  rw [turn.size]
  exact Nat.le_add_right_of_le grown

/-- The nodes of a run have had their turns. -/
theorem visited_of_mem (visits : target.Visits ids first last) (counted : first.dag.Counted)
    (inside : id < first.dag.size) (member : id ∈ ids) : last.dag.Visited id := by
  obtain ⟨node, found⟩ :=
    Dag.exists_node?_of_lt (Nat.lt_of_lt_of_le inside (visits.size_le counted))
  refine ⟨node, found, ?_⟩
  intro unvisited
  exact (visits.unvisited (Dag.shape_found found) unvisited).1 member

/-- A node that was there and did not come up has not had its turn, if it had not before. -/
theorem not_visited_of_not_mem (visits : target.Visits ids first last)
    (unvisited : ∀ id node, first.dag.node? id = some node → node.state = .unvisited)
    (inside : id < first.dag.size) (absent : id ∉ ids) : ¬ last.dag.Visited id := by
  rintro ⟨node, found, visited⟩
  obtain ⟨start, startFound⟩ := Dag.exists_node?_of_lt inside
  have stayed := visits.unchanged (Dag.shape_found startFound) absent
  have same := Option.some.inj ((Dag.shape_found found).symm.trans stayed)
  have sameState : node.shape.state = start.shape.state := by rw [same]
  exact visited (sameState.trans (unvisited id start startFound))

end Visits

variable {order : List NodeId} {first last : Run} {error : SelectError}

/-- An order that is refused names no node somewhere, and nothing was done. -/
theorem Declines.firstOutside (declines : target.Declines order first last (.invalidOrder id)) :
    first.dag.FirstOutside order id ∧ last = first := by
  generalize same : SelectError.invalidOrder id = error at declines
  cases declines with
  | invalidOrder outside unchanged =>
      cases same
      exact ⟨firstOutside_iff.mp outside, unchanged⟩
  | @refused visited rest stop node op inside split visits refuses =>
      obtain ⟨_, other | ⟨_, other⟩⟩ := same ▸ blames_refusal stop node
      · cases other
      · cases other
  | unvisited inside visits missed => cases same

/-- An order that names no node somewhere is refused for it. -/
theorem Declines.eq_invalidOrder (declines : target.Declines order first last error)
    (outside : first.dag.FirstOutside order id) : error = .invalidOrder id := by
  cases declines with
  | invalidOrder found unchanged =>
      have same := found.symm.trans (firstOutside_iff.mpr outside)
      exact congrArg SelectError.invalidOrder (Option.some.inj same)
  | refused inside split visits refuses => exact absurd outside (not_firstOutside inside)
  | unvisited inside visits missed => exact absurd outside (not_firstOutside inside)

/-- The node that is declined is where selection cannot go on. Its turn came at its last place in
the order, since it would have had its final form otherwise. -/
theorem Declines.stuck (declines : target.Declines order first last error)
    (counted : first.dag.Counted) (blames : error.Blames id) :
    ∃ node, target.Stuck order last.dag id node ∧ error = target.refusal id node := by
  cases declines with
  | invalidOrder outside unchanged => obtain ⟨_, same | ⟨_, same⟩⟩ := blames <;> cases same
  | unvisited inside visits missed => obtain ⟨_, same | ⟨_, same⟩⟩ := blames <;> cases same
  | @refused visited rest stop node op inside split visits refuses =>
      cases (blames_refusal stop node).unique blames
      have turns : order = rest.reverse ++ id :: visited.reverse := by
        simpa using congrArg List.reverse split
      refine ⟨node, ⟨refuses.found, refuses.unvisited, ⟨op, refuses.generic, refuses.needs⟩, ?_,
        matchNode_of_uncovered refuses.found refuses.generic refuses.uncovered,
        rest.reverse, visited.reverse, turns, ?_, ?_⟩, rfl⟩
      · apply Or.inl
        rw [Ne, (visits.counted counted).uses_eq_zero_iff refuses.found]
        exact not_not.mpr refuses.used
      · rw [List.mem_reverse]
        exact (visits.unvisited (Dag.shape_found refuses.found) refuses.unvisited).1
      · intro other member
        apply visits.visited_of_mem counted _ (List.mem_reverse.mp member)
        exact inside other (by simp [turns, List.mem_reverse.mp member])

/-- The node that selection never came to is the first one that the order leaves out, if no node had
had its turn before. New leaves are final from the start. -/
theorem Declines.firstMissing (declines : target.Declines order first last (.unvisited id))
    (counted : first.dag.Counted)
    (unvisited : ∀ id node, first.dag.node? id = some node → node.state = .unvisited) :
    (∀ other ∈ order, last.dag.Visited other) ∧ first.dag.FirstMissing order id := by
  generalize same : SelectError.unvisited id = error at declines
  cases declines with
  | invalidOrder outside unchanged => cases same
  | @refused visited rest stop node op inside split visits refuses =>
      obtain ⟨_, other | ⟨_, other⟩⟩ := same ▸ blames_refusal stop node
      · cases other
      · cases other
  | unvisited inside visits missed =>
      cases same
      obtain ⟨node, found, notVisited⟩ := exists_of_firstUnvisited missed
      obtain ⟨absent, stayed⟩ := visits.unvisited (Dag.shape_found found) notVisited
      refine ⟨fun other member => visits.visited_of_mem counted (inside other member)
        (List.mem_reverse.mpr member), ?_, ?_, ?_⟩
      · simpa using Dag.lt_size_of_node? stayed
      · simpa using absent
      · intro other lower
        by_contra notListed
        have lowerInside : other < first.dag.size := by
          apply Nat.lt_trans lower
          simpa using Dag.lt_size_of_node? stayed
        apply visits.not_visited_of_not_mem unvisited lowerInside (by simpa using notListed)
        -- Selection names the first node that is unvisited in the end, and `other` comes before it.
        obtain ⟨otherNode, otherFound⟩ :=
          Dag.exists_node?_of_lt (Nat.lt_of_lt_of_le lowerInside (visits.size_le counted))
        refine ⟨otherNode, otherFound, ?_⟩
        have before := (List.find?_range_eq_some.mp missed).2.2 other lower
        simpa [otherFound] using before

end Target

/-- Errors of selection are exact, for every processor, every order and every session. The order is
refused exactly if it names no node somewhere, at the first such place, and then neither the graph
nor the counts have changed. An error about a node means that selection cannot go on there, and it
names a type exactly if that is the first one that no register holds. A node is reported as left out
only if it is the first such node and all others of the order have had their turns. The order in
which a graph was read neither leaves a node out nor names one too many. -/
theorem declined_exactly {Features : Type} (target : Target Features)
    {machine : String → Option MachineOp} {text : String} {context context' : TypeContext}
    {graph : LabelledDag} (read : (readDag machine text).run context = .ok graph context')
    (name : String) (order : List NodeId) (session : Session) (log : List LogRecord) :
    (∀ id, (∃ after, (target.selectFunction name order).run ⟨graph.dag, session, log⟩ =
        .error (.declined (.invalidOrder id)) after) ↔ graph.dag.FirstOutside order id) ∧
    ∀ error after, (target.selectFunction name order).run ⟨graph.dag, session, log⟩ =
        .error (.declined error) after →
      (∀ id, error = .invalidOrder id →
        after.dag = graph.dag ∧ after.session.stats = session.stats) ∧
      (∀ id, error.Blames id → ∃ node, target.Stuck order after.dag id node ∧
        ∀ type, (∃ description, error = .illegalType id type description) ↔
          target.FirstIllegal node type) ∧
      (∀ id, error = .unvisited id →
        (∀ other ∈ order, after.dag.Visited other) ∧ graph.dag.FirstMissing order id) ∧
      (order = graph.order → ∀ id, error ≠ .invalidOrder id ∧ error ≠ .unvisited id) := by
  obtain ⟨drafted, _⟩ := readDag_drafted read
  have ends := target.selectFunction_ends_exactly name order ⟨graph.dag, session, log⟩
    drafted.counted
  have declined : ∀ error after, (target.selectFunction name order).run ⟨graph.dag, session, log⟩ =
      .error (.declined error) after → ∃ first last, first.dag = graph.dag ∧
        first.session = session.begin name ∧ target.Declines order first last error ∧
        after.dag = last.dag ∧ after.session = last.session.abort := by
    intro error after result
    rcases ends.of_error result with
      ⟨first, last, _, firstDag, begun, _, declines, same, lastDag, aborted⟩ | ⟨_, _, _, fault, _⟩
    · cases same
      exact ⟨first, last, firstDag, begun, declines, lastDag, aborted⟩
    · cases fault
  constructor
  · intro id
    constructor
    · rintro ⟨after, result⟩
      obtain ⟨first, last, firstDag, _, declines, _⟩ := declined _ _ result
      rw [← firstDag]
      exact declines.firstOutside.1
    · intro outside
      have ofFirst : ∀ {first : Run}, first.dag = graph.dag → first.dag.FirstOutside order id := by
        intro first same
        rw [same]
        exact outside
      cases result : (target.selectFunction name order).run ⟨graph.dag, session, log⟩ with
      | ok _ after =>
          obtain ⟨first, _, firstDag, _, _, ⟨inside, _⟩, _⟩ := ends.of_ok result
          exact absurd (ofFirst firstDag) (Target.not_firstOutside inside)
      | error failure after =>
          rcases ends.of_error result with
            ⟨first, last, error, firstDag, _, _, declines, same, _⟩ |
              ⟨first, _, firstDag, _, _, _, _, _, inside, _⟩
          · rw [same, declines.eq_invalidOrder (ofFirst firstDag)]
            exact ⟨after, rfl⟩
          · exact absurd (ofFirst firstDag) (Target.not_firstOutside inside)
  · intro error after result
    obtain ⟨first, last, firstDag, begun, declines, lastDag, aborted⟩ := declined error after result
    have counted : first.dag.Counted := firstDag ▸ drafted.counted
    rw [lastDag, ← firstDag]
    refine ⟨?_, ?_, ?_, ?_⟩
    · rintro id rfl
      cases declines.firstOutside.2
      exact ⟨rfl, by rw [aborted, begun]; rfl⟩
    · intro id blames
      obtain ⟨node, stuck, rfl⟩ := declines.stuck counted blames
      exact ⟨node, stuck, fun type => Target.refusal_iff⟩
    · rintro id rfl
      exact declines.firstMissing counted (firstDag ▸ drafted.unvisited)
    · rintro rfl id
      have listed : ∀ id, id ∈ graph.order ↔ id < first.dag.size := by
        intro id
        rw [drafted.order, firstDag, Dag.ids, List.mem_range]
      constructor
      · rintro rfl
        exact Target.not_firstOutside (fun id => (listed id).mp) declines.firstOutside.1
      · rintro rfl
        obtain ⟨_, missing⟩ := declines.firstMissing counted (firstDag ▸ drafted.unvisited)
        exact missing.missing ((listed id).mpr missing.inside)

/-! ### A text that is declined -/

/-- A constant that no register holds is returned. -/
def wideConstantText : String :=
  "t0: ch = EntryToken\nt1: i32 = Constant<9>\nt2: ch = ret t0, t1\nroot t2"

/-- The graph of the text. -/
def wideConstantGraph : LabelledDag where
  dag := {
    nodes := [
      ⟨.generic .entryToken, [.chain], [], .none, .unvisited, 1⟩,
      ⟨.generic .constant, [.simple .i32], [], .constant 9, .unvisited, 1⟩,
      ⟨.generic .ret, [.chain], [⟨0, 0⟩, ⟨1, 0⟩], .none, .unvisited, 1⟩]
    root := some ⟨2, 0⟩ }
  order := [0, 1, 2]
  labels := [("t0", 0), ("t1", 1), ("t2", 2)]

theorem ends_wideConstantText :
    Ends (fun graph context => graph = wideConstantGraph ∧ context = {}) (fun _ _ => False)
      ((readDag Z80.machineOp? wideConstantText).run {}) := by
  decide +kernel

/-- An order in which the constant comes twice, once behind its user. -/
theorem declines_wideConstantGraph :
    Ends (fun _ _ => False)
      (fun failure _ => failure =
        .declined (.illegalType 1 (.simple .i32) "t1: i32 = Constant<9>"))
      ((Z80.Processor.plain.target.selectFunction "wide" [1, 0, 1, 2]).run
        { dag := wideConstantGraph.dag }) := by
  decide +kernel

/-- Selection cannot go on at the constant, and the error names its type. -/
theorem stuck_wideConstantGraph :
    ∃ (after : Run) (node : Node),
      (Z80.Processor.plain.target.selectFunction "wide" [1, 0, 1, 2]).run
        { dag := wideConstantGraph.dag } =
          .error (.declined (.illegalType 1 (.simple .i32) "t1: i32 = Constant<9>")) after ∧
      Z80.Processor.plain.target.Stuck [1, 0, 1, 2] after.dag 1 node ∧
      Z80.Processor.plain.target.FirstIllegal node (.simple .i32) := by
  obtain ⟨_, _, read, rfl, rfl⟩ := ends_wideConstantText.exists_ok
  obtain ⟨_, after, result, rfl⟩ := declines_wideConstantGraph.exists_error
  obtain ⟨_, errors⟩ := declined_exactly Z80.Processor.plain.target read "wide" [1, 0, 1, 2] {} []
  obtain ⟨_, blamed, _⟩ := errors _ after result
  obtain ⟨node, stuck, typed⟩ := blamed 1 ⟨_, Or.inr ⟨_, rfl⟩⟩
  exact ⟨after, node, result, stuck, (typed _).mp ⟨_, rfl⟩⟩

end DagSelect
