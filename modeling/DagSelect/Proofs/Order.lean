/-
Module: DagSelect.Proofs.Order
Purpose: The order in which a graph is printed. Depth-first search, taken as a relation that knows no
  bound on its depth, lists what it is asked for and all that lies beneath, each node once, and in a
  graph without cycles every operand before its users. The number of nodes is depth enough to follow
  the relation. If nothing that is not dead refers to something dead, the order lists exactly what is
  not dead; if the operands of every node stand before it already, the order is that of the positions.
Main exports: Dag.Alive, Dag.Needed, Dag.ClosedList, Walk.Good, Dag.Searches, Dag.Searches.goesOn,
  Dag.topologicalOrder_searches, Dag.topologicalOrder_lists, Dag.Listable,
  Dag.topologicalOrder_good, Dag.topologicalOrder_eq_ids
-/
import DagSelect.Dag.Order
import DagSelect.Proofs.Turn
import Mathlib.Data.List.Perm.Subperm

namespace DagSelect

/-- The node is there and not dead. -/
def Dag.Alive (dag : Dag) (id : NodeId) : Prop :=
  ∃ node, dag.node? id = some node ∧ node.state ≠ .dead

theorem Dag.Alive.lt_size {dag : Dag} {id : NodeId} (live : dag.Alive id) : id < dag.size := by
  obtain ⟨node, found, _⟩ := live
  exact Dag.lt_size_of_node? found

theorem Dag.alive_of_unvisited {dag : Dag} {id : NodeId} {node : Node}
    (found : dag.node? id = some node) (state : node.state = .unvisited) : dag.Alive id := by
  refine ⟨node, found, ?_⟩
  rw [state]
  decide

theorem Dag.mem_liveIds {dag : Dag} {id : NodeId} : id ∈ dag.liveIds ↔ dag.Alive id := by
  rw [liveIds, List.mem_filter, Option.any_eq_true]
  constructor
  · rintro ⟨_, node, found, alive⟩
    exact ⟨node, found, by simpa [Node.isDead] using alive⟩
  · rintro ⟨node, found, alive⟩
    refine ⟨?_, node, found, by simpa [Node.isDead] using alive⟩
    simpa [ids] using lt_size_of_node? found

/-- The node is not dead, or lies beneath one that is not dead. -/
def Dag.Needed (dag : Dag) (id : NodeId) : Prop :=
  ∃ start, dag.Alive start ∧ Relation.ReflTransGen dag.Depends start id

theorem Dag.Alive.needed {dag : Dag} {id : NodeId} (live : dag.Alive id) : dag.Needed id :=
  ⟨id, live, .refl⟩

theorem Dag.Needed.operand {dag : Dag} {user operand : NodeId} (needed : dag.Needed user)
    (edge : dag.Depends user operand) : dag.Needed operand := by
  obtain ⟨start, live, path⟩ := needed
  exact ⟨start, live, path.tail edge⟩

/-- A list of nodes in which every operand stands before its users. -/
def Dag.ClosedList (dag : Dag) (order : List NodeId) : Prop :=
  ∀ front id back, order = front ++ id :: back → ∀ operand, dag.Depends id operand → operand ∈ front

/-- A graph that can be listed: users rank above their operands, and nothing that is not dead refers
to something dead. -/
structure Dag.Listable (dag : Dag) (rank : NodeId → Nat) : Prop where
  ranked : dag.Ranked rank
  live : ∀ user operand, dag.Alive user → dag.Depends user operand → dag.Alive operand

theorem Dag.ClosedList.append {dag : Dag} {order : List NodeId} {id : NodeId}
    (closed : dag.ClosedList order) (operands : ∀ operand, dag.Depends id operand → operand ∈ order) :
    dag.ClosedList (order ++ [id]) := by
  intro front other back split operand edge
  rcases List.eq_nil_or_concat back with rfl | ⟨back, last, rfl⟩
  · obtain ⟨rfl, same⟩ := List.append_inj' split rfl
    cases same
    exact operands operand edge
  · rw [List.concat_eq_append, ← List.cons_append, ← List.append_assoc] at split
    obtain ⟨rfl, _⟩ := List.append_inj' split rfl
    exact closed front other back rfl operand edge

/-! ### States of the search -/

/-- A state of the search while it is under the nodes of a stack. The nodes that it has entered are
those that it has left and those of the stack. All operands of a node that it has left were entered;
without cycles they were left before. -/
structure Walk.Good (dag : Dag) (stack : List NodeId) (walk : Walk) : Prop where
  seen : walk.seen.Perm (walk.order ++ stack)
  distinct : walk.seen.Nodup
  needed : ∀ id ∈ walk.seen, dag.Needed id
  entered : ∀ id ∈ walk.order, ∀ operand, dag.Depends id operand → operand ∈ walk.seen
  closed : dag.Acyclic → dag.ClosedList walk.order

namespace Walk.Good

variable {dag : Dag} {stack : List NodeId} {walk : Walk} {id : NodeId}

/-- Nothing is entered yet. -/
theorem start (dag : Dag) : Walk.Good dag [] {} where
  seen := .refl _
  distinct := List.nodup_nil
  needed _ member := absurd member List.not_mem_nil
  entered _ member := absurd member List.not_mem_nil
  closed _ front id back split := by simp at split

/-- When as many nodes were entered as there are, all were. -/
theorem mem_seen (good : walk.Good dag stack) (inside : ∀ other, dag.Needed other → other < dag.size)
    (needed : dag.Needed id) (full : dag.size ≤ walk.seen.length) : id ∈ walk.seen := by
  have contained : walk.seen ⊆ List.range dag.size := fun other member =>
    List.mem_range.mpr (inside other (good.needed other member))
  have same := (List.subperm_of_subset good.distinct contained).perm_of_length_le
    (by rw [List.length_range]; exact full)
  exact same.mem_iff.mpr (List.mem_range.mpr (inside id needed))

/-- The search enters a node. -/
theorem enter (good : walk.Good dag stack) (isNew : id ∉ walk.seen) (needed : dag.Needed id) :
    Walk.Good dag (id :: stack) { walk with seen := id :: walk.seen } where
  seen := (good.seen.cons id).trans List.perm_middle.symm
  distinct := List.nodup_cons.mpr ⟨isNew, good.distinct⟩
  needed := List.forall_mem_cons.mpr ⟨needed, good.needed⟩
  entered other member operand edge :=
    List.mem_cons_of_mem _ (good.entered other member operand edge)
  closed := good.closed

/-- The search leaves a node that all nodes of the stack are above. An operand that is still on the
stack would close a cycle. -/
theorem leave (good : walk.Good dag (id :: stack))
    (under : ∀ other ∈ stack, Relation.TransGen dag.Depends other id)
    (operands : ∀ operand, dag.Depends id operand → operand ∈ walk.seen) :
    Walk.Good dag stack { walk with order := walk.order ++ [id] } where
  seen := by
    rw [List.append_assoc]
    exact good.seen
  distinct := good.distinct
  needed := good.needed
  entered := by
    intro other member operand edge
    rcases List.mem_append.mp member with left | same
    · exact good.entered other left operand edge
    · rw [List.mem_singleton.mp same] at edge
      exact operands operand edge
  closed acyclic := by
    apply (good.closed acyclic).append
    intro operand edge
    rcases List.mem_append.mp (good.seen.mem_iff.mp (operands operand edge)) with left | onStack
    · exact left
    · rcases List.mem_cons.mp onStack with rfl | above
      · exact absurd (.single edge) (acyclic operand)
      · exact absurd ((under operand above).tail edge) (acyclic operand)

end Walk.Good

/-- The search has gone on: it is in a good state again, and it has left no fewer nodes. -/
structure Walk.GoesOn (dag : Dag) (stack : List NodeId) (walk after : Walk) : Prop where
  good : after.Good dag stack
  grown : walk.order <+: after.order

namespace Walk.GoesOn

variable {dag : Dag} {stack : List NodeId} {first last : Walk}

theorem length_le (goesOn : GoesOn dag stack first last) (good : first.Good dag stack) :
    first.seen.length ≤ last.seen.length := by
  rw [good.seen.length_eq, goesOn.good.seen.length_eq, List.length_append, List.length_append]
  exact Nat.add_le_add_right goesOn.grown.length_le _

theorem seen_subset (goesOn : GoesOn dag stack first last) (good : first.Good dag stack) :
    first.seen ⊆ last.seen := by
  intro id member
  apply goesOn.good.seen.mem_iff.mpr
  apply (List.append_subset.mpr ⟨_, List.subset_append_right _ _⟩) (good.seen.mem_iff.mp member)
  exact List.subset_append_of_subset_left _ goesOn.grown.subset

end Walk.GoesOn

/-! ### The search without a bound -/

/-- Depth-first search from several nodes, one after another. -/
inductive Dag.Searches (dag : Dag) : List NodeId → Walk → Walk → Prop
  | nil {walk : Walk} : Searches dag [] walk walk
  /-- A node that was entered before is passed over. -/
  | skip {id : NodeId} {rest : List NodeId} {walk after : Walk} (seen : id ∈ walk.seen)
      (later : Searches dag rest walk after) : Searches dag (id :: rest) walk after
  /-- A new node is entered, and left after its operands. -/
  | enter {id : NodeId} {rest : List NodeId} {walk below after : Walk} (isNew : id ∉ walk.seen)
      (operands : Searches dag ((dag.operandsOf id).map Value.node)
        { walk with seen := id :: walk.seen } below)
      (later : Searches dag rest { below with order := below.order ++ [id] } after) :
      Searches dag (id :: rest) walk after

namespace Dag

variable {dag : Dag} {rank : NodeId → Nat} {stack ids : List NodeId} {walk after : Walk}

theorem depends_iff_mem_map {user operand : NodeId} :
    dag.Depends user operand ↔ operand ∈ (dag.operandsOf user).map Value.node :=
  List.mem_map.symm

/-- What is above a node is above its operands, and so is the node. -/
theorem above_operand {id operand : NodeId}
    (under : ∀ other ∈ stack, Relation.TransGen dag.Depends other id)
    (member : operand ∈ (dag.operandsOf id).map Value.node) :
    ∀ other ∈ id :: stack, Relation.TransGen dag.Depends other operand := by
  have edge := depends_iff_mem_map.mpr member
  rw [List.forall_mem_cons]
  exact ⟨.single edge, fun other above => (under other above).tail edge⟩

theorem Searches.append {more : List NodeId} {last : Walk} (first : dag.Searches ids walk after)
    (second : dag.Searches more after last) : dag.Searches (ids ++ more) walk last := by
  induction first with
  | nil => exact second
  | skip seen _ inductionHypothesis => exact .skip seen (inductionHypothesis second)
  | enter isNew operands _ _ inductionHypothesis =>
      exact .enter isNew operands (inductionHypothesis second)

/-- Searching from nodes beneath the stack keeps the state good and enters them all. -/
theorem Searches.goesOn (searches : dag.Searches ids walk after) (good : walk.Good dag stack)
    (needed : ∀ id ∈ ids, dag.Needed id)
    (under : ∀ id ∈ ids, ∀ other ∈ stack, Relation.TransGen dag.Depends other id) :
    walk.GoesOn dag stack after ∧ ∀ id ∈ ids, id ∈ after.seen := by
  induction searches generalizing stack with
  | nil => exact ⟨⟨good, List.prefix_refl _⟩, fun _ member => absurd member List.not_mem_nil⟩
  | skip seen _ inductionHypothesis =>
      rw [List.forall_mem_cons] at needed under
      obtain ⟨goesOn, entered⟩ := inductionHypothesis good needed.2 under.2
      exact ⟨goesOn, List.forall_mem_cons.mpr ⟨goesOn.seen_subset good seen, entered⟩⟩
  | @enter id rest walk below after isNew _ _ belowHypothesis laterHypothesis =>
      rw [List.forall_mem_cons] at needed under
      have atNode := good.enter isNew needed.1
      obtain ⟨goesBelow, operands⟩ := belowHypothesis atNode
        (fun operand member => needed.1.operand (depends_iff_mem_map.mpr member))
        (fun operand member => above_operand under.1 member)
      have left := goesBelow.good.leave under.1
        (fun operand edge => operands operand (depends_iff_mem_map.mp edge))
      obtain ⟨goesLater, entered⟩ := laterHypothesis left needed.2 under.2
      refine ⟨⟨goesLater.good, ?_⟩, List.forall_mem_cons.mpr ⟨?_, entered⟩⟩
      · exact goesBelow.grown.trans ((List.prefix_append _ _).trans goesLater.grown)
      · apply goesLater.seen_subset left
        exact goesBelow.seen_subset atNode List.mem_cons_self

/-! ### Depth -/

theorem visit_of_seen {id : NodeId} (depth : Nat) (seen : id ∈ walk.seen) :
    dag.visit depth id walk = walk := by
  cases depth with
  | zero => rfl
  | succ depth => rw [visit, if_pos seen]

/-- Searches from several nodes, if a search from each one follows the relation. -/
theorem foldl_visit_searches {depth : Nat}
    (one : ∀ {walk : Walk} {id : NodeId}, walk.Good dag stack → dag.Needed id →
      (∀ other ∈ stack, Relation.TransGen dag.Depends other id) →
      dag.size ≤ depth + walk.seen.length → dag.Searches [id] walk (dag.visit depth id walk))
    (good : walk.Good dag stack) (needed : ∀ id ∈ ids, dag.Needed id)
    (under : ∀ id ∈ ids, ∀ other ∈ stack, Relation.TransGen dag.Depends other id)
    (deep : dag.size ≤ depth + walk.seen.length) :
    dag.Searches ids walk (ids.foldl (fun walk id => dag.visit depth id walk) walk) := by
  induction ids generalizing walk with
  | nil => exact .nil
  | cons id rest inductionHypothesis =>
      rw [List.forall_mem_cons] at needed under
      have first := one good needed.1 under.1 deep
      obtain ⟨goesOn, _⟩ := first.goesOn good (by simpa using needed.1) (by simpa using under.1)
      apply first.append
      apply inductionHypothesis goesOn.good needed.2 under.2
      exact Nat.le_trans deep (Nat.add_le_add_left (goesOn.length_le good) depth)

/-- A search with a bound follows the relation if the bound and the nodes that were entered make up
for all nodes. Each level down enters a node, so the sum does not fall below. -/
theorem visit_searches (inside : ∀ id, dag.Needed id → id < dag.size) (depth : Nat) {id : NodeId}
    (good : walk.Good dag stack) (needed : dag.Needed id)
    (under : ∀ other ∈ stack, Relation.TransGen dag.Depends other id)
    (deep : dag.size ≤ depth + walk.seen.length) :
    dag.Searches [id] walk (dag.visit depth id walk) := by
  induction depth generalizing id walk stack with
  | zero =>
      rw [Nat.zero_add] at deep
      exact .skip (good.mem_seen inside needed deep) .nil
  | succ depth inductionHypothesis =>
      by_cases seen : id ∈ walk.seen
      · rw [visit_of_seen _ seen]
        exact .skip seen .nil
      · rw [visit, if_neg seen]
        have below := foldl_visit_searches inductionHypothesis (good.enter seen needed)
          (fun operand member => needed.operand (depends_iff_mem_map.mpr member))
          (fun operand member => above_operand under member)
          (by simp only [List.length_cons]; omega)
        rw [List.foldl_map] at below
        exact .enter seen below .nil

/-! ### The printed order -/

/-- The number of nodes bounds no search: the order is that of a search from all that is not
dead. -/
theorem topologicalOrder_searches (inside : ∀ id, dag.Needed id → id < dag.size) :
    ∃ walk, dag.Searches dag.liveIds {} walk ∧ walk.order = dag.topologicalOrder := by
  refine ⟨_, foldl_visit_searches (visit_searches inside dag.size) (.start dag) ?_ ?_ ?_, rfl⟩
  · exact fun id member => (mem_liveIds.mp member).needed
  · exact fun _ _ _ member => absurd member List.not_mem_nil
  · exact Nat.le_add_right _ _

/-- The printed order lists what is not dead and all that lies beneath, once, and without cycles
every operand before its users. -/
theorem topologicalOrder_lists (inside : ∀ id, dag.Needed id → id < dag.size) :
    dag.topologicalOrder.Nodup ∧ (∀ id, id ∈ dag.topologicalOrder ↔ dag.Needed id) ∧
      (dag.Acyclic → dag.ClosedList dag.topologicalOrder) := by
  obtain ⟨walk, searches, order⟩ := topologicalOrder_searches inside
  obtain ⟨⟨good, _⟩, entered⟩ := searches.goesOn (.start dag)
    (fun id member => (mem_liveIds.mp member).needed)
    (fun _ _ _ member => absurd member List.not_mem_nil)
  have same := good.seen
  rw [List.append_nil, order] at same
  refine ⟨same.nodup_iff.mp good.distinct, fun id => ⟨fun member => ?_, ?_⟩, order ▸ good.closed⟩
  · exact good.needed id (same.mem_iff.mpr member)
  · rintro ⟨start, live, path⟩
    -- The list is closed under operands, so it follows every path from where the search started.
    induction path with
    | refl => exact same.mem_iff.mp (entered start (mem_liveIds.mpr live))
    | tail _ edge inductionHypothesis =>
        exact same.mem_iff.mp (good.entered _ (order ▸ inductionHypothesis) _ edge)

/-- Where nothing that is not dead refers to something dead, nothing dead is needed. -/
theorem Listable.needed_iff (listable : dag.Listable rank) {id : NodeId} :
    dag.Needed id ↔ dag.Alive id := by
  refine ⟨?_, Alive.needed⟩
  rintro ⟨start, live, path⟩
  induction path with
  | refl => exact live
  | tail _ edge inductionHypothesis => exact listable.live _ _ inductionHypothesis edge

/-- The printed order lists what is not dead, once, and every operand before its users. -/
theorem topologicalOrder_good (listable : dag.Listable rank) :
    dag.topologicalOrder.Nodup ∧ (∀ id, id ∈ dag.topologicalOrder ↔ dag.Alive id) ∧
      dag.ClosedList dag.topologicalOrder := by
  obtain ⟨distinct, listed, closed⟩ := topologicalOrder_lists
    fun id needed => (listable.needed_iff.mp needed).lt_size
  exact ⟨distinct, fun id => (listed id).trans listable.needed_iff, closed listable.ranked.acyclic⟩

/-! ### Graphs that are in order already -/

/-- If the operands were entered before, the search leaves the node at once. -/
theorem visit_of_operands_seen {id : NodeId} (depth : Nat) (isNew : id ∉ walk.seen)
    (operands : ∀ operand, dag.Depends id operand → operand ∈ walk.seen) :
    dag.visit (depth + 1) id walk = ⟨id :: walk.seen, walk.order ++ [id]⟩ := by
  have nothing : ∀ values : List Value, (∀ value ∈ values, value.node ∈ id :: walk.seen) →
      values.foldl (fun walk value => dag.visit depth value.node walk)
        { walk with seen := id :: walk.seen } = { walk with seen := id :: walk.seen } := by
    intro values
    induction values with
    | nil => exact fun _ => rfl
    | cons value rest inductionHypothesis =>
        intro seen
        rw [List.forall_mem_cons] at seen
        rw [List.foldl_cons, visit_of_seen depth seen.1]
        exact inductionHypothesis seen.2
  rw [visit, if_neg isNew, nothing]
  intro value listed
  exact List.mem_cons_of_mem _ (operands value.node ⟨value, listed, rfl⟩)

/-- If every operand has a lower position than its users and no node is dead, the order is that of
the positions. -/
theorem topologicalOrder_eq_ids
    (earlier : ∀ user operand, dag.Depends user operand → operand < user)
    (alive : ∀ id, id < dag.size → dag.Alive id) : dag.topologicalOrder = dag.ids := by
  have live : dag.liveIds = List.range dag.size := by
    refine List.filter_eq_self.mpr fun id member => ?_
    have isLive := mem_liveIds.mpr (alive id (by simpa [ids] using member))
    exact (List.mem_filter.mp isLive).2
  have walks : ∀ count, count ≤ dag.size →
      (List.range count).foldl (fun walk id => dag.visit dag.size id walk) {} =
        ⟨(List.range count).reverse, List.range count⟩ := by
    intro count
    induction count with
    | zero => exact fun _ => rfl
    | succ count inductionHypothesis =>
        intro inside
        obtain ⟨depth, size⟩ := Nat.exists_eq_succ_of_ne_zero (Nat.ne_zero_of_lt inside)
        rw [List.range_succ, List.foldl_append, inductionHypothesis (Nat.le_of_lt inside),
          List.foldl_cons, List.foldl_nil]
        nth_rewrite 1 [size]
        rw [visit_of_operands_seen depth]
        · simp
        · simp
        · intro operand edge
          simpa using earlier count operand edge
  rw [topologicalOrder, live, walks dag.size (Nat.le_refl _), ids]

end Dag

end DagSelect
