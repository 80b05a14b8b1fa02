/-
Module: DagSelect.Proofs.UseCounts
Purpose: The edits of a graph keep its use counts exact. While an edit is under way some uses are
  counted for which there is no edge, either because the edge is still to come or because it is gone
  already. Such a list of values is owed by the counts; each step of an edit changes it by one
  entry, and an edit that ends owes nothing. So a release always finds a use to release.
Main exports: Dag.Counted, Dag.Owed, Dag.addNode_ends, Dag.addConstant_ends, Dag.setRoot_ends,
  Dag.morph_ends, Dag.markSelected_ends, Dag.markDead_ends
-/
import DagSelect.Proofs.Computation
import DagSelect.Proofs.Graph

namespace DagSelect

namespace Dag

variable {dag dag' : Dag} {id : NodeId} {node : Node} {value : Value} {owed : List Value}

/-- Every operand and the root name a result of a node, and every node counts its users: the operand
slots that name it, and the root. -/
structure Counted (dag : Dag) : Prop where
  operands : ∀ user, ∀ value ∈ dag.operandsOf user, dag.Resolves value
  root : ∀ value, dag.root = some value → dag.Resolves value
  uses : ∀ id node, dag.node? id = some node → node.uses = dag.useCount id

theorem Counted.resolves_of_mem {dag : Dag} (counted : dag.Counted) {id : NodeId} {node : Node}
    {value : Value} (found : dag.shape.node? id = some node) (member : value ∈ node.operands) :
    dag.Resolves value := by
  obtain ⟨uses, found⟩ := exists_uses_of_shape found
  exact counted.operands id value (mem_operandsOf.mpr ⟨_, found, member⟩)

theorem counted_empty : ({} : Dag).Counted where
  operands user value member := by simp [operandsOf, node?] at member
  root value root := by cases root
  uses id node found := by simp [node?] at found

/-- The counts include a list of values for which there is no edge. -/
structure Owed (owed : List Value) (dag : Dag) : Prop where
  operands : ∀ user, ∀ value ∈ dag.operandsOf user, dag.Resolves value
  root : ∀ value, dag.root = some value → dag.Resolves value
  pending : ∀ value ∈ owed, dag.Resolves value
  uses : ∀ id node, dag.node? id = some node → node.uses = dag.useCount id + slots id owed

theorem owed_nil : dag.Owed [] ↔ dag.Counted := by
  constructor
  · intro owes
    exact ⟨owes.operands, owes.root, owes.uses⟩
  · intro counted
    exact ⟨counted.operands, counted.root, by simp, counted.uses⟩

/-- A node of a counted graph is used exactly if something points at it. -/
theorem Counted.uses_eq_zero_iff (counted : dag.Counted) (found : dag.node? id = some node) :
    node.uses = 0 ↔ ¬ dag.Pointed id := by
  rw [counted.uses id node found, ← useCount_pos_iff]
  omega

/-! ### Single steps -/

theorem run_updateNode {change : Node → Node} (inside : id < dag.size) :
    (updateNode id change).run dag = .ok () (dag.update id change) := by
  simp [updateNode, contains, inside, update]

theorem run_updateNode_of_le {change : Node → Node} (outside : dag.size ≤ id) :
    (updateNode id change).run dag = .error (.outOfBounds dag.size id) dag := by
  simp [updateNode, contains, Nat.not_lt.mpr outside]

theorem mem_operandsOf_update_iff {change : Node → Node} {user : NodeId}
    (keeps : ∀ node, (change node).operands = node.operands) :
    value ∈ (dag.update id change).operandsOf user ↔ value ∈ dag.operandsOf user := by
  simp only [operandsOf, node?_update]
  by_cases same : user = id
  · cases dag.node? user <;> simp [same, keeps]
  · simp [same]

/-- A change of one count changes what is owed. -/
theorem Owed.recount {owed' : List Value} {count : Node → Nat} (owes : dag.Owed owed)
    (stillResolved : ∀ value ∈ owed', dag.Resolves value)
    (here : ∀ node, dag.node? id = some node →
      count node + slots id owed = node.uses + slots id owed')
    (elsewhere : ∀ other, other ≠ id → slots other owed' = slots other owed) :
    (dag.update id fun node => { node with uses := count node }).Owed owed' := by
  have resolves : ∀ value,
      (dag.update id fun node => { node with uses := count node }).Resolves value ↔
        dag.Resolves value := fun value => resolves_update fun _ => rfl
  have sameCount : ∀ other,
      (dag.update id fun node => { node with uses := count node }).useCount other =
        dag.useCount other := fun other =>
    useCount_of_shape_eq (shape_update_uses dag fun _ => rfl)
  refine ⟨?_, ?_, ?_, ?_⟩
  · intro user value member
    rw [resolves]
    have before := (mem_operandsOf_update_iff (by intro node; rfl)).mp member
    exact owes.operands user value before
  · intro value root
    rw [resolves]
    exact owes.root value root
  · intro value member
    rw [resolves]
    exact stillResolved value member
  · intro other node found
    rw [sameCount]
    rw [node?_update] at found
    by_cases same : other = id
    · subst same
      rw [if_pos rfl, Option.map_eq_some_iff] at found
      obtain ⟨before, foundBefore, rfl⟩ := found
      have balance := here before foundBefore
      have exactly := owes.uses other before foundBefore
      simp only
      omega
    · rw [if_neg same] at found
      rw [owes.uses other node found, elsewhere other same]

/-- Counting a use before its edge is there. -/
theorem addUse_ends (owes : dag.Owed owed) (resolves : dag.Resolves value) :
    Ends (fun _ dag' => dag'.Owed (owed ++ [value]) ∧ dag'.shape = dag.shape) (fun _ _ => False)
      ((addUse value).run dag) := by
  rw [addUse, run_updateNode resolves.lt_size]
  refine ⟨owes.recount ?_ ?_ ?_, shape_update_uses dag fun _ => rfl⟩
  · intro other member
    rcases List.mem_append.mp member with old | new
    · exact owes.pending other old
    · rw [List.mem_singleton.mp new]
      exact resolves
  · intro node _
    simp [slots_cons]
    omega
  · intro other different
    simp [slots_cons, different.symm]

/-- Releasing a use whose edge is gone. The use is there to be released. -/
theorem dropUse_ends (owes : dag.Owed (value :: owed)) :
    Ends (fun _ dag' => dag'.Owed owed ∧ dag'.shape = dag.shape) (fun _ _ => False)
      ((dropUse value).run dag) := by
  obtain ⟨node, found, bound⟩ := owes.pending value (by simp)
  have exactly := owes.uses value.node node found
  rw [slots_cons, if_pos rfl] at exactly
  have used : node.uses ≠ 0 := by omega
  have fetched : dag.fetch value.node = .ok node := fetch_eq_ok_iff.mpr found
  simp only [dropUse, EStateM.run_bind, EStateM.run_get, fetched, run_liftM_ok, used, if_false]
  rw [run_updateNode (lt_size_of_node? found)]
  refine ⟨owes.recount ?_ ?_ ?_, shape_update_uses dag fun _ => rfl⟩
  · intro other member
    exact owes.pending other (by simp [member])
  · intro before foundBefore
    rw [foundBefore] at found
    cases found
    simp only [slots_cons, if_true]
    omega
  · intro other different
    simp [slots_cons, different.symm]

/-- Releasing all that is owed. -/
theorem dropUses_ends (owes : dag.Owed owed) :
    Ends (fun _ dag' => dag'.Counted ∧ dag'.shape = dag.shape) (fun _ _ => False)
      ((owed.forM dropUse).run dag) := by
  induction owed generalizing dag with
  | nil => exact ⟨owed_nil.mp owes, rfl⟩
  | cons value rest inductionHypothesis =>
      refine Ends.bind (dropUse_ends owes) ?_
      rintro _ dag' ⟨owes', shapeSame⟩
      refine (inductionHypothesis owes').mono ?_ (fun _ _ impossible => impossible)
      rintro _ dag'' ⟨counted, shapeSame'⟩
      exact ⟨counted, shapeSame'.trans shapeSame⟩

/-- Counting the uses of values that resolve. -/
theorem addUses_ends {values : List Value} (owes : dag.Owed owed)
    (resolve : ∀ value ∈ values, dag.Resolves value) :
    Ends (fun _ dag' => dag'.Owed (owed ++ values) ∧ dag'.shape = dag.shape) (fun _ _ => False)
      ((values.forM addUse).run dag) := by
  induction values generalizing dag owed with
  | nil =>
      refine ⟨?_, rfl⟩
      rw [List.append_nil]
      exact owes
  | cons value rest inductionHypothesis =>
      refine Ends.bind (addUse_ends owes (resolve value (by simp))) ?_
      rintro _ dag' ⟨owes', shapeSame⟩
      have restResolve : ∀ value ∈ rest, dag'.Resolves value := by
        intro other member
        exact (resolves_of_shape_eq shapeSame).mpr (resolve other (by simp [member]))
      refine (inductionHypothesis owes' restResolve).mono ?_ (fun _ _ impossible => impossible)
      rintro _ dag'' ⟨owes'', shapeSame'⟩
      rw [List.append_assoc] at owes''
      exact ⟨owes'', shapeSame'.trans shapeSame⟩

/-- Checking values changes nothing. -/
theorem checkOperand_ends :
    Ends (fun _ dag' => dag' = dag ∧ dag.Resolves value)
      (fun cause dag' => cause.Orderly ∧ dag' = dag ∧ ¬ dag.Resolves value)
      ((checkOperand value).run dag) := by
  simp only [checkOperand, EStateM.run_bind, EStateM.run_get]
  rw [← checkValue_eq_ok_iff]
  unfold checkValue
  cases found : dag.node? value.node with
  | none => simp [Fault.Orderly]
  | some node =>
      by_cases bound : value.result < node.results.length
      · simp [bound]
      · simp [bound, Fault.Orderly]

theorem checkOperands_ends {values : List Value} :
    Ends (fun _ dag' => dag' = dag ∧ ∀ value ∈ values, dag.Resolves value)
      (fun cause dag' => cause.Orderly ∧ dag' = dag ∧ ∃ value ∈ values, ¬ dag.Resolves value)
      ((values.forM checkOperand).run dag) := by
  induction values with
  | nil => exact ⟨rfl, by simp⟩
  | cons value rest inductionHypothesis =>
      refine Ends.bind (checkOperand_ends.mono (fun _ _ checked => checked) ?_) ?_
      · rintro cause dag' ⟨orderly, same, unresolved⟩
        exact ⟨orderly, same, value, by simp, unresolved⟩
      · rintro _ dag' ⟨rfl, resolves⟩
        refine inductionHypothesis.mono ?_ ?_
        · rintro _ dag'' ⟨same, restResolve⟩
          exact ⟨same, by simpa using ⟨resolves, restResolve⟩⟩
        · rintro cause dag'' ⟨orderly, same, other, member, unresolved⟩
          exact ⟨orderly, same, other, by simp [member], unresolved⟩

/-- Checking a value and counting its use. -/
theorem checkedUse_ends (owes : dag.Owed owed) :
    Ends
      (fun _ dag' => dag'.Owed (owed ++ [value]) ∧ dag'.shape = dag.shape ∧ dag.Resolves value)
      (fun cause dag' => cause.Orderly ∧ dag' = dag ∧ ¬ dag.Resolves value)
      ((do checkOperand value; addUse value : Edit Unit).run dag) := by
  apply Ends.bind checkOperand_ends
  rintro _ dag' ⟨rfl, resolves⟩
  apply (addUse_ends owes resolves).mono
  · intro _ dag'' counts
    exact ⟨counts.1, counts.2, resolves⟩
  · exact fun _ _ impossible => impossible.elim

/-- Checking a value and counting its use, for one value after another. The values before one that
is refused stay counted. -/
theorem checkedUses_ends {values : List Value} (owes : dag.Owed owed) :
    Ends (fun _ dag' => dag'.Owed (owed ++ values) ∧ dag'.shape = dag.shape ∧
        ∀ value ∈ values, dag.Resolves value)
      (fun cause dag' => cause.Orderly ∧ (∃ value ∈ values, ¬ dag.Resolves value) ∧
        dag'.Owed (owed ++ dag.leading values) ∧ dag'.shape = dag.shape)
      ((values.forM fun value => do checkOperand value; addUse value).run dag) := by
  induction values generalizing dag owed with
  | nil =>
      refine ⟨?_, rfl, by simp⟩
      rw [List.append_nil]
      exact owes
  | cons value rest inductionHypothesis =>
      refine Ends.bind ((checkedUse_ends owes).mono (fun _ _ counts => counts) ?_) ?_
      · rintro cause dag' ⟨orderly, rfl, unresolved⟩
        rw [leading_cons, if_neg unresolved, List.append_nil]
        exact ⟨orderly, ⟨value, by simp, unresolved⟩, owes, rfl⟩
      · rintro _ dag' ⟨owes', shapeSame, resolves⟩
        apply (inductionHypothesis owes').mono
        · rintro _ dag'' ⟨owes'', shapeSame', restResolve⟩
          rw [List.append_assoc] at owes''
          refine ⟨owes'', shapeSame'.trans shapeSame, ?_⟩
          intro other member
          rcases List.mem_cons.mp member with same | later
          · rw [same]
            exact resolves
          · exact (resolves_of_shape_eq shapeSame).mp (restResolve other later)
        · rintro cause dag'' ⟨orderly, ⟨other, member, unresolved⟩, owes'', shapeSame'⟩
          rw [leading_of_shape_eq shapeSame, List.append_assoc] at owes''
          rw [leading_cons, if_pos resolves]
          refine ⟨orderly, ⟨other, by simp [member], ?_⟩, owes'', shapeSame'.trans shapeSame⟩
          exact fun resolves => unresolved ((resolves_of_shape_eq shapeSame).mpr resolves)

theorem run_replaceOperands {operands : List Value} (found : dag.node? id = some node) :
    (replaceOperands id operands).run dag =
      .ok node.operands (dag.update id fun node => { node with operands := operands }) := by
  simp only [replaceOperands, EStateM.run_bind, EStateM.run_get, fetch_eq_ok_iff.mpr found,
    run_liftM_ok, run_updateNode (lt_size_of_node? found), EStateM.run_pure]

/-- New operands take up what was owed, and the old ones are owed from then on. -/
theorem Owed.replaceOperands {operands : List Value} (owes : dag.Owed operands)
    (found : dag.node? id = some node) :
    (dag.update id fun node => { node with operands := operands }).Owed node.operands := by
  have resolves : ∀ value,
      (dag.update id fun node => { node with operands := operands }).Resolves value ↔
        dag.Resolves value := fun value => resolves_update fun _ => rfl
  refine ⟨?_, ?_, ?_, ?_⟩
  · intro user value member
    rw [resolves]
    obtain ⟨userNode, userFound, operandMember⟩ := mem_operandsOf.mp member
    rw [node?_update] at userFound
    by_cases same : user = id
    · rw [if_pos same, Option.map_eq_some_iff] at userFound
      obtain ⟨before, _, rfl⟩ := userFound
      exact owes.pending value operandMember
    · rw [if_neg same] at userFound
      exact owes.operands user value (mem_operandsOf.mpr ⟨userNode, userFound, operandMember⟩)
  · intro value root
    rw [resolves]
    exact owes.root value root
  · intro value member
    rw [resolves]
    exact owes.operands id value (mem_operandsOf.mpr ⟨node, found, member⟩)
  · intro other otherNode otherFound
    have moved := slots_replace other operands found
    have exactly : otherNode.uses = dag.useCount other + slots other operands := by
      rw [node?_update] at otherFound
      by_cases same : other = id
      · rw [if_pos same, Option.map_eq_some_iff] at otherFound
        obtain ⟨before, beforeFound, rfl⟩ := otherFound
        exact owes.uses other before beforeFound
      · rw [if_neg same] at otherFound
        exact owes.uses other otherNode otherFound
    rw [exactly]
    simp only [useCount, isRoot_update]
    omega

/-- A change of a node that touches neither its edges nor its count. -/
theorem Counted.update {change : Node → Node} (counted : dag.Counted)
    (keepsResults : ∀ node, (change node).results = node.results)
    (keepsOperands : ∀ node, (change node).operands = node.operands)
    (keepsUses : ∀ node, (change node).uses = node.uses) : (dag.update id change).Counted := by
  refine ⟨?_, ?_, ?_⟩
  · intro user value member
    rw [resolves_update keepsResults]
    exact counted.operands user value ((mem_operandsOf_update_iff keepsOperands).mp member)
  · intro value root
    rw [resolves_update keepsResults]
    exact counted.root value root
  · intro other node found
    have sameCount : (dag.update id change).useCount other = dag.useCount other := by
      simp [useCount, operandSlots_update dag keepsOperands]
    rw [sameCount]
    rw [node?_update] at found
    by_cases same : other = id
    · rw [if_pos same, Option.map_eq_some_iff] at found
      obtain ⟨before, beforeFound, rfl⟩ := found
      rw [keepsUses]
      exact counted.uses other before beforeFound
    · rw [if_neg same] at found
      exact counted.uses other node found

/-- A new node takes up what its operands are owed. Nothing points at it yet, since what resolves
stands before it. -/
theorem Owed.extend {operands : List Value} (owes : dag.Owed operands)
    (takes : node.operands = operands) (unused : node.uses = 0) : (dag.extend [node]).Counted := by
  have atEnd : (dag.extend [node]).node? dag.size = some node := by
    rw [node?_extend_of_le dag [node] (Nat.le_refl _)]
    simp
  have oldOrNew : ∀ id idNode, (dag.extend [node]).node? id = some idNode →
      dag.node? id = some idNode ∨ id = dag.size ∧ idNode = node := by
    intro id idNode found
    have inside := lt_size_of_node? found
    rw [size_extend, List.length_singleton, Nat.lt_succ_iff_lt_or_eq] at inside
    rcases inside with old | new
    · rw [node?_extend_of_lt dag [node] old] at found
      exact Or.inl found
    · rw [new, atEnd] at found
      exact Or.inr ⟨new, (Option.some.inj found).symm⟩
  have resolve : ∀ user, ∀ value ∈ (dag.extend [node]).operandsOf user, dag.Resolves value := by
    intro user value member
    obtain ⟨userNode, userFound, operandMember⟩ := mem_operandsOf.mp member
    rcases oldOrNew user userNode userFound with old | ⟨_, rfl⟩
    · exact owes.operands user value (mem_operandsOf.mpr ⟨userNode, old, operandMember⟩)
    · exact owes.pending value (takes ▸ operandMember)
  refine ⟨?_, ?_, ?_⟩
  · intro user value member
    exact (resolve user value member).extend [node]
  · intro value root
    exact (owes.root value root).extend [node]
  · intro id idNode found
    rcases oldOrNew id idNode found with old | ⟨rfl, rfl⟩
    · have slotsHere : slots id (dag.extend [node]).operandSlots =
          slots id dag.operandSlots + slots id operands := by
        simp [operandSlots_extend, takes]
      have exactly := owes.uses id idNode old
      simp only [useCount, isRoot_extend] at exactly ⊢
      omega
    · have unnamed : ¬ (dag.extend [idNode]).Pointed dag.size := by
        rintro (⟨user, value, member, named⟩ | root)
        · exact Nat.ne_of_lt (resolve user value member).lt_size named
        · obtain ⟨value, root, named⟩ := isRoot_eq_true_iff.mp root
          exact Nat.ne_of_lt (owes.root value root).lt_size named
      have := mt useCount_pos_iff.mp unnamed
      omega

/-! ### Whole edits -/

/-- Adding a node. A refusal leaves the graph as it is. -/
theorem addNode_ends {opcode : Opcode} {results : List ValueType} {operands : List Value}
    {payload : Payload} (counted : dag.Counted) :
    Ends
      (fun id dag' => dag'.Counted ∧ id = dag.size ∧
        dag'.shape = dag.shape.extend [⟨opcode, results, operands, payload, .unvisited, 0⟩] ∧
        results ≠ [] ∧ checkPayload opcode payload = .ok () ∧
        ∀ value ∈ operands, dag.Resolves value)
      (fun cause dag' => cause.Orderly ∧ dag' = dag ∧
        (results = [] ∨ checkPayload opcode payload ≠ .ok () ∨
          ∃ value ∈ operands, ¬ dag.Resolves value))
      ((addNode opcode results operands payload).run dag) := by
  unfold addNode
  cases results with
  | nil => exact ⟨by simp [Fault.Orderly], rfl, Or.inl rfl⟩
  | cons first rest =>
      simp only [List.isEmpty_cons, Bool.false_eq_true, if_false]
      refine Ends.bind (Ends.liftM.mono (fun _ _ answered => answered) ?_) ?_
      · rintro cause dag' ⟨refused, rfl⟩
        refine ⟨?_, rfl, Or.inr (Or.inl (by simp [refused]))⟩
        unfold checkPayload at refused
        split at refused
        · split at refused
          · simp at refused
          · cases refused
            simp [Fault.Orderly]
        · simp at refused
      · rintro _ dag' ⟨fits, rfl⟩
        refine Ends.bind (checkOperands_ends.mono (fun _ _ checked => checked) ?_) ?_
        · rintro cause dag'' ⟨orderly, same, unresolved⟩
          exact ⟨orderly, same, Or.inr (Or.inr unresolved)⟩
        · rintro _ dag'' ⟨rfl, resolve⟩
          refine Ends.bind ((addUses_ends (owed_nil.mpr counted) resolve).mono
            (fun _ _ owes => owes) (fun _ _ impossible => impossible.elim)) ?_
          rintro _ counting ⟨owes, shapeSame⟩
          have sameSize : counting.size = dag''.size := by
            rw [← size_shape, shapeSame, size_shape]
          refine ⟨owes.extend rfl rfl, sameSize, ?_, by simp, fits, resolve⟩
          change (counting.extend [_]).shape = _
          rw [shape_extend, shapeSame]
          rfl

/-- Adding a constant is adding a leaf. -/
theorem addConstant_ends {op : GenericOp} {number : Int} {type : ValueType}
    (counted : dag.Counted) :
    Ends
      (fun id dag' => dag'.Counted ∧ id = dag.size ∧ type.isScalarInteger = true ∧
        ∃ bits, type.sizeInBits = .ok bits ∧
          dag'.shape = dag.shape.extend
            [⟨.generic op, [type], [], .constant (signExtend number bits), .unvisited, 0⟩])
      (fun cause dag' => cause.Orderly ∧ dag' = dag ∧
        ((type.isScalarInteger = false ∧ cause = .constantOfNonInteger type) ∨
          (∀ bits, type.sizeInBits ≠ .ok bits) ∨ op.payloadKind ≠ .constant))
      ((addConstant op number type).run dag) := by
  unfold addConstant
  by_cases scalar : type.isScalarInteger = true
  · simp only [scalar, Bool.not_true, Bool.false_eq_true, if_false]
    refine Ends.bind (Ends.liftM.mono (fun _ _ answered => answered) ?_) ?_
    · rintro cause dag' ⟨unsized, rfl⟩
      refine ⟨?_, rfl, Or.inr (Or.inl (by simp [unsized]))⟩
      cases type with
      | simple type =>
          simp only [ValueType.sizeInBits, SimpleType.sizeInBits] at unsized
          split at unsized
          · simp at unsized
          · cases unsized
            simp [Fault.Orderly]
      | extended type => simp [ValueType.sizeInBits] at unsized
    · rintro bits dag' ⟨sized, rfl⟩
      refine (addNode_ends counted).mono ?_ ?_
      · rintro id dag'' ⟨counted', isNext, shapeSame, _⟩
        exact ⟨counted', isNext, trivial, bits, sized, shapeSame⟩
      · rintro cause dag'' ⟨orderly, same, refused⟩
        refine ⟨orderly, same, Or.inr (Or.inr ?_)⟩
        intro kind
        simp [checkPayload, kind, Payload.kind] at refused
  · have notScalar : type.isScalarInteger = false := by simpa using scalar
    simp only [notScalar, Bool.not_false, if_true]
    exact ⟨by simp [Fault.Orderly], rfl, Or.inl ⟨trivial, rfl⟩⟩

/-- Making a value the root. The old root is released after the new one is counted, so the two may
be results of one node. -/
theorem setRoot_ends (counted : dag.Counted) :
    Ends
      (fun _ dag' => dag'.Counted ∧ dag'.shape = { dag.shape with root := some value } ∧
        dag.Resolves value)
      (fun cause dag' => cause.Orderly ∧ dag' = dag ∧ ¬ dag.Resolves value)
      ((setRoot value).run dag) := by
  refine Ends.bind checkOperand_ends ?_
  rintro _ checked ⟨rfl, resolves⟩
  refine Ends.bind ((addUse_ends (owed_nil.mpr counted) resolves).mono
    (fun _ _ owes => owes) (fun _ _ impossible => impossible.elim)) ?_
  rintro _ counting ⟨owes, shapeSame⟩
  have rooted : ({ counting with root := some value } : Dag).Owed counting.root.toList := by
    refine ⟨owes.operands, ?_, ?_, ?_⟩
    · intro other root
      cases root
      exact owes.pending value (by simp)
    · intro other member
      exact owes.root other (by simpa using member)
    · intro id node found
      have exactly := owes.uses id node found
      have slotsSame :
          operandSlots { counting with root := some value } = counting.operandSlots := rfl
      have oldRoot : slots id counting.root.toList = (counting.isRoot id).toNat := by
        cases root : counting.root with
        | none => simp [isRoot, root]
        | some old => simp [isRoot, root, slots_singleton]
      have newRoot : slots id ([] ++ [value]) =
          (isRoot { counting with root := some value } id).toNat := by
        simp [isRoot, slots_singleton]
      rw [newRoot] at exactly
      simp only [useCount, slotsSame, oldRoot] at exactly ⊢
      omega
  have rootedShape : ({ counting with root := some value } : Dag).shape =
      { checked.shape with root := some value } := by
    rw [← shapeSame]
    rfl
  simp only [EStateM.run_bind, EStateM.run_get, EStateM.run_set]
  cases root : counting.root with
  | none =>
      rw [root] at rooted
      exact ⟨owed_nil.mp rooted, rootedShape, resolves⟩
  | some old =>
      rw [root] at rooted
      refine (dropUse_ends rooted).mono ?_ (fun _ _ impossible => impossible.elim)
      rintro _ released ⟨owes', shapeSame'⟩
      exact ⟨owed_nil.mp owes', shapeSame'.trans rootedShape, resolves⟩

/-- Turning a node into an instruction. A refusal leaves the uses counted that were counted before
it. -/
theorem morph_ends {op : MachineOp} {operands : List Value} (counted : dag.Counted) :
    Ends
      (fun _ dag' => dag'.Counted ∧ dag'.shape = dag.shape.update id (Node.morphed op operands) ∧
        id < dag.size ∧ ∀ value ∈ operands, dag.Resolves value)
      (fun cause dag' => cause.Orderly ∧
        (dag.size ≤ id ∨ ∃ value ∈ operands, ¬ dag.Resolves value) ∧
        dag'.Owed (dag.leading operands) ∧ dag'.shape = dag.shape)
      ((morph id op operands).run dag) := by
  refine Ends.bind ((checkedUses_ends (owed_nil.mpr counted)).mono
    (fun _ _ owes => owes) ?_) ?_
  · rintro cause _ ⟨orderly, unresolved, owes, shapeSame⟩
    exact ⟨orderly, Or.inr unresolved, owes, shapeSame⟩
  · rintro _ counting ⟨owes, shapeSame, resolve⟩
    have sameSize : counting.size = dag.size := by
      rw [← size_shape, shapeSame, size_shape]
    by_cases inside : id < counting.size
    · obtain ⟨node, found⟩ := exists_node?_of_lt inside
      rw [EStateM.run_bind, run_replaceOperands found]
      refine Ends.bind ((dropUses_ends (owes.replaceOperands found)).mono
        (fun _ _ counted' => counted') (fun _ _ impossible => impossible.elim)) ?_
      rintro _ released ⟨counted', shapeSame'⟩
      have stillInside : id < released.size := by
        rw [← size_shape, shapeSame', size_shape, size_update]
        exact inside
      rw [run_updateNode stillInside]
      refine ⟨counted'.update (fun _ => rfl) (fun _ => rfl) (fun _ => rfl), ?_, sameSize ▸ inside,
        resolve⟩
      rw [shape_update released
          (fun node => { node with opcode := .machine op, payload := .none, state := .selected })
          (fun _ => rfl), shapeSame',
        shape_update counting (fun node => { node with operands := operands }) (fun _ => rfl),
        shapeSame, update_update]
      rfl
    · have outside : counting.size ≤ id := Nat.le_of_not_lt inside
      have missing : counting.fetch id = .error (.outOfBounds counting.size id) := by
        simp [fetch, node?, List.getElem?_eq_none outside]
      simp only [replaceOperands, EStateM.run_bind, EStateM.run_get, missing, run_liftM_error]
      rw [leading_of_resolve resolve]
      exact ⟨by simp [Fault.Orderly], Or.inl (sameSize ▸ outside), owes, shapeSame⟩

/-- Declaring a node to be in its final form. -/
theorem markSelected_ends (counted : dag.Counted) :
    Ends
      (fun _ dag' => dag'.Counted ∧ dag'.shape = dag.shape.update id Node.finished ∧ id < dag.size)
      (fun cause dag' => cause.Orderly ∧ dag' = dag ∧ dag.size ≤ id)
      ((markSelected id).run dag) := by
  unfold markSelected
  by_cases inside : id < dag.size
  · rw [run_updateNode inside]
    exact ⟨counted.update (fun _ => rfl) (fun _ => rfl) (fun _ => rfl),
      shape_update dag Node.finished (fun _ => rfl), inside⟩
  · rw [run_updateNode_of_le (Nat.le_of_not_lt inside)]
    exact ⟨by simp [Fault.Orderly], rfl, Nat.le_of_not_lt inside⟩

/-- Declaring a node dead. A refusal leaves the graph as it is. -/
theorem markDead_ends (counted : dag.Counted) :
    Ends
      (fun _ dag' => dag'.Counted ∧ dag'.shape = dag.shape.update id Node.discarded ∧
        id < dag.size ∧ ¬ dag.Pointed id)
      (fun cause dag' => cause.Orderly ∧ dag' = dag ∧ (dag.size ≤ id ∨ dag.Pointed id))
      ((markDead id).run dag) := by
  unfold markDead
  simp only [EStateM.run_bind, EStateM.run_get]
  by_cases inside : id < dag.size
  · obtain ⟨node, found⟩ := exists_node?_of_lt inside
    simp only [fetch_eq_ok_iff.mpr found, run_liftM_ok]
    by_cases used : node.uses ≠ 0 ∨ dag.isRoot id = true
    · simp only [used, if_true]
      refine ⟨by simp [Fault.Orderly], rfl, Or.inr ?_⟩
      rcases used with used | root
      · by_contra unnamed
        exact used ((counted.uses_eq_zero_iff found).mpr unnamed)
      · exact Or.inr root
    · simp only [used, if_false]
      have unnamed : ¬ dag.Pointed id := by
        rw [← counted.uses_eq_zero_iff found]
        by_contra nonzero
        exact used (Or.inl nonzero)
      rw [EStateM.run_bind, run_replaceOperands found]
      refine Ends.bind ((dropUses_ends ((owed_nil.mpr counted).replaceOperands found)).mono
        (fun _ _ counted' => counted') (fun _ _ impossible => impossible.elim)) ?_
      rintro _ released ⟨counted', shapeSame⟩
      have stillInside : id < released.size := by
        rw [← size_shape, shapeSame, size_shape, size_update]
        exact inside
      rw [run_updateNode stillInside]
      refine ⟨counted'.update (fun _ => rfl) (fun _ => rfl) (fun _ => rfl), ?_, inside, unnamed⟩
      rw [shape_update released (fun node => { node with state := .dead }) (fun _ => rfl),
        shapeSame, shape_update dag (fun node => { node with operands := [] }) (fun _ => rfl),
        update_update]
      rfl
  · have outside : dag.size ≤ id := Nat.le_of_not_lt inside
    have missing : dag.fetch id = .error (.outOfBounds dag.size id) := by
      simp [fetch, node?, List.getElem?_eq_none outside]
    simp only [missing, run_liftM_error]
    exact ⟨by simp [Fault.Orderly], rfl, Or.inl outside⟩

end Dag

end DagSelect
