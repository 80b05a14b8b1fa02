/-
Module: DagSelect.Proofs.Foresight
Purpose: In a dependency order, every node meets the fate that the input foretells. The users of a
  node have met theirs when its turn comes, so something points at it exactly if it is wanted. Which
  pattern covers it could depend on the order only through use counts, and those only matter for
  nodes that can be taken in: a node that has had its turn either holds each of its operands, or has
  folded it with all that the operand uses. This needs a graph in which everything is used, leaves
  have no operands, and patterns that look one node deep.
Main exports: Target.TakesIn, Target.Shallow, Dag.Trim, Target.Kept, Foreseen, Foreseen.pointed_iff,
  Foreseen.cover_eq, Foreseen.visit, Foreseen.visits, Target.Coverable, Target.exists_ok_iff
-/
import DagSelect.Proofs.Fate
import DagSelect.Proofs.Stage

namespace DagSelect

variable {Features : Type}

/-! ### What a match uses up -/

/-- The node is a constant, a symbol or a stack slot, which an instruction can hold. -/
def Dag.Foldable (dag : Dag) (id : NodeId) : Prop :=
  ∃ node op, dag.node? id = some node ∧ node.opcode = .generic op ∧ op.targetLeaf?.isSome = true

section Matches

variable {dag : Dag} {types : AddressTypes} {value source : Value} {matcher : Matcher}
  {captures : List Capture} {held : NodeId → Prop}

theorem AbsoluteFold.foldable {displacement : Displacement}
    (fold : AbsoluteFold dag types value displacement) : dag.Foldable value.node := by
  cases fold with
  | immediate found opcode _ _ _ _ => exact ⟨_, _, found, opcode, rfl⟩
  | global found opcode _ => exact ⟨_, _, found, opcode, rfl⟩
  | external found opcode _ => exact ⟨_, _, found, opcode, rfl⟩

/-- The base of an address is handed on, or is a stack slot. -/
theorem BaseFold.foldable_or {base : AddressBase} (fold : BaseFold dag value base) :
    base.capture types = .value value ∨ dag.Foldable value.node := by
  cases fold with
  | frame found opcode _ => exact Or.inr ⟨_, _, found, opcode, rfl⟩
  | register => exact Or.inl rfl

/-- A based address is a stack slot, or a sum of which nothing is left but the base. -/
theorem BasedFold.foldable_or {address : BasedAddress} (fold : BasedFold dag types value address) :
    dag.Foldable value.node ∨
    ∃ node, dag.node? value.node = some node ∧ node.opcode = .generic .add ∧
      ∀ operand ∈ node.operands,
        address.base.capture types = .value operand ∨ dag.Foldable operand.node := by
  cases fold with
  | slot found opcode _ => exact Or.inl ⟨_, _, found, opcode, rfl⟩
  | right found opcode operands absolute based =>
      refine Or.inr ⟨_, found, opcode, ?_⟩
      rw [operands]
      intro operand member
      rcases List.mem_pair.mp member with rfl | rfl
      · exact based.foldable_or
      · exact Or.inr absolute.foldable
  | left found opcode operands absolute based =>
      refine Or.inr ⟨_, found, opcode, ?_⟩
      rw [operands]
      intro operand member
      rcases List.mem_pair.mp member with rfl | rfl
      · exact Or.inr absolute.foldable
      · exact based.foldable_or

/-- Every operand is matched by one of the matchers. -/
theorem MatchesAll.exists_matches {matchers : List Matcher} {values : List Value}
    (found : MatchesAll dag types matchers values captures)
    (length : values.length = matchers.length) (member : value ∈ values) :
    ∃ matcher ∈ matchers, ∃ own, Matches dag types matcher value own ∧
      ∀ capture ∈ own, capture ∈ captures := by
  induction matchers generalizing values captures with
  | nil =>
      rw [List.length_nil, List.length_eq_zero_iff] at length
      simp [length] at member
  | cons matcher matchers inductionHypothesis =>
      cases found with
      | short => cases member
      | @cons _ _ head values first rest headMatches tail =>
          rcases List.mem_cons.mp member with rfl | later
          · exact ⟨matcher, List.mem_cons_self, first, headMatches,
              fun capture captured => List.mem_append_left _ captured⟩
          · obtain ⟨other, listed, own, ownMatches, captured⟩ :=
              inductionHypothesis tail (Nat.succ.inj length) later
            exact ⟨other, List.mem_cons_of_mem _ listed, own, ownMatches,
              fun capture member => List.mem_append_right _ (captured capture member)⟩

/-- Every capture comes from one of the operands. -/
theorem MatchesAll.exists_of_captured {matchers : List Matcher} {values : List Value}
    {capture : Capture} (found : MatchesAll dag types matchers values captures)
    (captured : capture ∈ captures) :
    ∃ matcher ∈ matchers, ∃ value ∈ values, ∃ own, Matches dag types matcher value own ∧
      capture ∈ own := by
  induction matchers generalizing values captures with
  | nil =>
      cases found
      cases captured
  | cons matcher matchers inductionHypothesis =>
      cases found with
      | short => cases captured
      | @cons _ _ head values first rest headMatches tail =>
          rcases List.mem_append.mp captured with inFirst | inRest
          · exact ⟨matcher, List.mem_cons_self, head, List.mem_cons_self, first, headMatches,
              inFirst⟩
          · obtain ⟨other, listed, value, member, own, ownMatches, inOwn⟩ :=
              inductionHypothesis tail inRest
            exact ⟨other, List.mem_cons_of_mem _ listed, value, List.mem_cons_of_mem _ member, own,
              ownMatches, inOwn⟩

/-- A matcher that looks at its operand alone hands the operand on or folds it. -/
theorem Matches.simple (found : Matches dag types matcher value captures)
    (isSimple : matcher.isSimple = true) :
    captures = [.value value] ∨
      (dag.Foldable value.node ∧ ∀ source, Capture.value source ∉ captures) := by
  cases found with
  | chain _ => exact Or.inl rfl
  | reg _ _ => exact Or.inl rfl
  | imm found opcode _ _ => exact Or.inr ⟨⟨_, _, found, opcode, rfl⟩, by simp⟩
  | exactly found opcode _ => exact Or.inr ⟨⟨_, _, found, opcode, rfl⟩, by simp⟩
  | mem absolute => exact Or.inr ⟨absolute.foldable, by simp⟩
  | off _ => cases isSimple
  | node _ _ _ => cases isSimple

/-- The node is a sum, or one that a matcher takes in. -/
def Matcher.Opens (matcher : Matcher) (node : Node) : Prop :=
  node.opcode = .generic .add ∨
    ∃ op operands, matcher = .node op operands ∧ node.opcode = .generic op ∧ node.uses = 1

/-- If what is captured is held, the operand is held or folded, or it is opened and all that it uses
is held or folded. -/
theorem Matches.kept (found : Matches dag types matcher value captures)
    (flat : matcher.isFlat = true)
    (holds : ∀ source, Capture.value source ∈ captures → held source.node) :
    held value.node ∨ dag.Foldable value.node ∨
    ∃ node, dag.node? value.node = some node ∧ matcher.Opens node ∧
      ∀ operand ∈ node.operands, held operand.node ∨ dag.Foldable operand.node := by
  cases found with
  | off based =>
      rcases based.foldable_or with foldable | ⟨node, nodeFound, isSum, operands⟩
      · exact Or.inr (Or.inl foldable)
      · refine Or.inr (Or.inr ⟨node, nodeFound, Or.inl isSum, fun operand member => ?_⟩)
        apply (operands operand member).imp_left
        intro isBase
        exact holds operand (by simp [isBase])
  | @node _ inner op matchers _ innerFound absorbed operands =>
      simp only [Matcher.absorbs, Bool.and_eq_true, beq_iff_eq] at absorbed
      obtain ⟨⟨⟨⟨_, opcode⟩, _⟩, single⟩, length⟩ := absorbed
      refine Or.inr (Or.inr ⟨inner, innerFound, Or.inr ⟨op, matchers, rfl, opcode, single⟩, ?_⟩)
      intro operand member
      obtain ⟨other, listed, own, ownMatches, captured⟩ := operands.exists_matches length member
      rcases ownMatches.simple (List.all_eq_true.mp flat other listed) with
        handed | ⟨foldable, _⟩
      · exact Or.inl (holds operand (captured _ (by simp [handed])))
      · exact Or.inr foldable
  | chain _ => exact Or.inl (holds value (by simp))
  | reg _ _ => exact Or.inl (holds value (by simp))
  | imm nodeFound opcode _ _ => exact Or.inr (Or.inl ⟨_, _, nodeFound, opcode, rfl⟩)
  | exactly nodeFound opcode _ => exact Or.inr (Or.inl ⟨_, _, nodeFound, opcode, rfl⟩)
  | mem absolute => exact Or.inr (Or.inl absolute.foldable)

/-- A value that is captured is the operand itself, or an operand of one that is opened. -/
theorem Matches.source_cases (found : Matches dag types matcher value captures)
    (flat : matcher.isFlat = true) (captured : Capture.value source ∈ captures) :
    source = value ∨
    ∃ node, dag.node? value.node = some node ∧ matcher.Opens node ∧ source ∈ node.operands := by
  cases found with
  | off based =>
      simp only [List.mem_cons, reduceCtorEq, List.not_mem_nil, or_false] at captured
      obtain ⟨node, nodeFound, member⟩ :=
        Dag.mem_operandsOf.mp (based.mem_operandsOf captured.symm)
      refine Or.inr ⟨node, nodeFound, Or.inl ?_, member⟩
      cases based with
      | slot _ _ _ => cases captured
      | right found opcode _ _ _ =>
          cases found.symm.trans nodeFound
          exact opcode
      | left found opcode _ _ _ =>
          cases found.symm.trans nodeFound
          exact opcode
  | @node _ inner op matchers _ innerFound absorbed operands =>
      simp only [Matcher.absorbs, Bool.and_eq_true, beq_iff_eq] at absorbed
      obtain ⟨⟨⟨⟨_, opcode⟩, _⟩, single⟩, _⟩ := absorbed
      obtain ⟨other, listed, operand, member, own, ownMatches, inOwn⟩ :=
        operands.exists_of_captured captured
      refine Or.inr ⟨inner, innerFound, Or.inr ⟨op, matchers, rfl, opcode, single⟩, ?_⟩
      rcases ownMatches.simple (List.all_eq_true.mp flat other listed) with handed | ⟨_, nothing⟩
      · rw [handed, List.mem_singleton, Capture.value.injEq] at inOwn
        exact inOwn ▸ member
      · exact absurd inOwn (nothing source)
  | chain _ => exact Or.inl (by simpa using captured)
  | reg _ _ => exact Or.inl (by simpa using captured)
  | imm _ _ _ _ => simp at captured
  | exactly _ _ _ => simp at captured
  | mem _ => simp at captured

end Matches

namespace Pattern.Covers

variable {pattern : Pattern Features} {dag : Dag} {types : AddressTypes} {id : NodeId} {node : Node}
  {own rest : List Capture} {value source : Value} {held : NodeId → Prop}

theorem isFlat_of_mem {matcher : Matcher} (flat : pattern.isFlat = true)
    (listed : matcher ∈ pattern.operands) : matcher.isFlat = true :=
  List.all_eq_true.mp (Bool.and_eq_true_iff.mp flat).2 matcher listed

/-- If what is captured is held, every operand is held or folded, or it is opened and all that it
uses is held or folded. -/
theorem kept (covers : pattern.Covers dag types id node own rest) (flat : pattern.isFlat = true)
    (holds : ∀ source, Capture.value source ∈ own ++ rest → held source.node)
    (member : value ∈ node.operands) :
    held value.node ∨ dag.Foldable value.node ∨
    ∃ matcher ∈ pattern.operands, ∃ inner, dag.node? value.node = some inner ∧
      matcher.Opens inner ∧
      ∀ operand ∈ inner.operands, held operand.node ∨ dag.Foldable operand.node := by
  obtain ⟨matcher, listed, captures, found, captured⟩ :=
    covers.operands.exists_matches covers.length member
  have inner := found.kept (isFlat_of_mem flat listed) fun source inCaptures =>
    holds source (List.mem_append_right _ (captured _ inCaptures))
  exact inner.imp_right fun later => later.imp_right fun ⟨node, nodeFound⟩ =>
    ⟨matcher, listed, node, nodeFound⟩

/-- A value that is captured is an operand of the node, or of an operand that is opened. -/
theorem source_cases (covers : pattern.Covers dag types id node own rest)
    (flat : pattern.isFlat = true) (folds : pattern.Folds)
    (captured : Capture.value source ∈ own ++ rest) :
    source ∈ node.operands ∨
    ∃ value ∈ node.operands, ∃ matcher ∈ pattern.operands, ∃ inner,
      dag.node? value.node = some inner ∧ matcher.Opens inner ∧ source ∈ inner.operands := by
  rcases List.mem_append.mp captured with ownCaptured | restCaptured
  · -- Only an address has something to hand on to the node that it is.
    obtain ⟨matcher, isRoot, rootMatches⟩ := covers.exists_root ownCaptured
    have notHanded := folds matcher isRoot
    have rootPlain := (Bool.and_eq_true_iff.mp flat).1
    rw [isRoot] at rootPlain
    cases rootMatches with
    | off based =>
        simp only [List.mem_cons, reduceCtorEq, List.not_mem_nil, or_false] at ownCaptured
        obtain ⟨_, found, member⟩ :=
          Dag.mem_operandsOf.mp (based.mem_operandsOf ownCaptured.symm)
        cases found.symm.trans covers.found
        exact Or.inl member
    | node _ _ _ => cases rootPlain
    | chain _ => cases notHanded
    | reg _ _ => cases notHanded
    | imm _ _ _ _ => simp at ownCaptured
    | exactly _ _ _ => simp at ownCaptured
    | mem _ => simp at ownCaptured
  · obtain ⟨matcher, listed, value, member, captures, found, inCaptures⟩ :=
      covers.operands.exists_of_captured restCaptured
    rcases found.source_cases (isFlat_of_mem flat listed) inCaptures with rfl | opened
    · exact Or.inl member
    · exact Or.inr ⟨value, member, matcher, listed, opened⟩

end Pattern.Covers

/-! ### Nodes with a single user -/

namespace Dag

variable {dag : Dag} {user id : NodeId}

/-- Without the operands of a node, the edges of the others are left. -/
theorem depends_without_iff {other : NodeId} :
    (dag.update user fun node => { node with operands := [] }).Depends other id ↔
      other ≠ user ∧ dag.Depends other id := by
  constructor
  · intro edge
    rcases depends_update_cases edge with ⟨_, _, _, _, member, _⟩ | stayed
    · cases member
    · exact stayed
  · rintro ⟨different, value, member, named⟩
    refine ⟨value, ?_, named⟩
    rw [operandsOf, node?_update_of_ne _ different]
    exact member

/-- A node that something uses has one use exactly if that is its only user, by one operand, and it
is not the root. -/
theorem useCount_eq_one_iff (edge : dag.Depends user id) :
    dag.useCount id = 1 ↔ slots id (dag.operandsOf user) = 1 ∧
      (∀ other, dag.Depends other id → other = user) ∧ dag.isRoot id = false := by
  obtain ⟨value, member, named⟩ := edge
  obtain ⟨node, found, listed⟩ := mem_operandsOf.mp member
  have operands : dag.operandsOf user = node.operands := by rw [operandsOf, found]
  have some : 0 < slots id node.operands := slots_pos_iff.mpr ⟨value, listed, named⟩
  -- Without the operands of the user, what is counted are the other users and the root.
  have split := slots_replace id [] found
  rw [slots_nil, Nat.add_zero] at split
  have others : (∀ other, dag.Depends other id → other = user) ∧ dag.isRoot id = false ↔
      ¬ (dag.update user fun node => { node with operands := [] }).Pointed id := by
    simp only [Pointed, depends_without_iff, isRoot_update, not_or, not_exists, not_and,
      Bool.not_eq_true]
    apply and_congr_left'
    apply forall_congr'
    intro other
    exact not_imp_not.symm
  rw [others, operands, ← useCount_pos_iff, useCount, useCount, isRoot_update]
  omega

end Dag

/-! ### Inputs and patterns -/

/-- Some pattern takes nodes with the opcode in. -/
def Target.TakesIn (target : Target Features) (op : GenericOp) : Prop :=
  ∃ pattern ∈ target.table.patterns, ∃ operands, Matcher.node op operands ∈ pattern.operands

/-- Patterns look one node deep. What a pattern takes in is no sum and nothing that can be folded,
and a node that takes something in cannot be taken in and is no sum. -/
structure Target.Shallow (target : Target Features) : Prop where
  folds : target.Folds
  flat : ∀ pattern ∈ target.table.patterns, pattern.isFlat = true
  inner : ∀ op, target.TakesIn op → op ≠ .add ∧ op.targetLeaf?.isSome = false
  outer : ∀ pattern ∈ target.table.patterns, ∀ op operands,
    Matcher.node op operands ∈ pattern.operands → pattern.op ≠ .add ∧ ¬ target.TakesIn pattern.op

/-- A graph that selection has not touched, in which everything is used and what can be folded has
no operands. -/
structure Dag.Trim (input : Dag) : Prop where
  counted : input.Counted
  full : input.Full
  untouched : ∀ id node, input.node? id = some node → node.state = .unvisited
  pointed : ∀ id < input.size, input.Pointed id
  bare : ∀ id, input.Foldable id → input.operandsOf id = []

/-! ### Operands of what has had its turn -/

/-- A node that has had its turn uses the node. -/
def Dag.Held (waiting : List NodeId) (dag : Dag) (id : NodeId) : Prop :=
  ∃ user, user ∉ waiting ∧ dag.Depends user id

/-- The ways in which a node that has had its turn has dealt with an operand. If the operand is gone
but its users are not, it cannot be taken in any more. -/
inductive Target.Kept (target : Target Features) (input : Dag) (waiting : List NodeId) (dag : Dag)
    (id : NodeId) : Prop where
  | held (isHeld : dag.Held waiting id)
  | folded (foldable : input.Foldable id)
  | opened {node : Node} {op : GenericOp} (found : input.node? id = some node)
      (generic : node.opcode = .generic op)
      (operands : ∀ value ∈ node.operands,
        dag.Held waiting value.node ∨ input.Foldable value.node)
      (users : target.TakesIn op → ∀ user, input.Depends user id → user ∉ waiting)

/-- A graph on the way in which every node that has had its turn has met its fate. -/
structure Foreseen (target : Target Features) (input : Dag) (position : NodeId → Nat)
    (waiting : List NodeId) (dag : Dag) : Prop where
  stage : Stage input position waiting dag
  formed : ∀ id < input.size, id ∉ waiting → ∃ fate, target.Formed input dag id fate
  kept : ∀ user < input.size, user ∉ waiting → ∀ value ∈ input.operandsOf user,
    target.Kept input waiting dag value.node

namespace Foreseen

variable {target : Target Features} {input dag : Dag} {position : NodeId → Nat}
  {waiting : List NodeId} {id : NodeId} {node : Node} {op : GenericOp}

/-- Before the first turn there is nothing to foresee. -/
theorem start {order : List NodeId} (trim : input.Trim) (isOrder : input.IsDependencyOrder order) :
    Foreseen target input order.idxOf order.reverse input where
  stage := .start trim.counted trim.full trim.untouched isOrder
  formed _ inside visited := absurd (List.mem_reverse.mpr (isOrder.mem inside)) visited
  kept _ inside visited := absurd (List.mem_reverse.mpr (isOrder.mem inside)) visited

/-- Something points at the node whose turn it is exactly if it is wanted. -/
theorem pointed_iff (folds : target.Folds)
    (foreseen : Foreseen target input position (id :: waiting) dag) :
    dag.Pointed id ↔ target.Demanded input id := by
  have inside := foreseen.stage.inside id List.mem_cons_self
  constructor
  · rintro (⟨user, edge⟩ | isRoot)
    · obtain ⟨fate, formed⟩ := foreseen.formed user (foreseen.stage.lt_size_of_depends edge)
        (foreseen.stage.not_mem_of_depends edge)
      obtain ⟨node, found⟩ := formed.fated.exists_node
      obtain ⟨value, uses, rfl⟩ := (formed.depends_iff found inside).mp edge
      exact formed.fated.demanded_of_uses found uses
    · obtain ⟨value, root, rfl⟩ := Dag.isRoot_eq_true_iff.mp isRoot
      rw [foreseen.stage.root] at root
      exact .root root
  · intro demanded
    rcases demanded.exists_user folds with
      ⟨value, root, named⟩ | ⟨user, node, value, found, beneath, rfl, uses⟩
    · rw [← foreseen.stage.root] at root
      exact Or.inr (Dag.isRoot_eq_true_iff.mpr ⟨value, root, named⟩)
    · -- The node lies beneath its user, so the user has had its turn.
      have visited : user ∉ value.node :: waiting :=
        foreseen.stage.not_mem_of_lt (foreseen.stage.sorted.lt_of_transGen beneath.transGen)
      obtain ⟨fate, formed⟩ :=
        foreseen.formed user (Dag.lt_size_of_node? found) visited
      exact Or.inl ⟨user,
        (formed.depends_iff found inside).mpr ⟨value, uses fate formed.fated, rfl⟩⟩

/-- A node that has had its turn uses operands of its own, or of an operand that it has opened. -/
theorem depends_cases (shallow : target.Shallow)
    (foreseen : Foreseen target input position waiting dag) {user operand : NodeId}
    (visited : user ∉ waiting) (inside : operand < input.size) (edge : dag.Depends user operand) :
    input.Depends user operand ∨
    ∃ between node op, input.node? between = some node ∧ node.opcode = .generic op ∧
      (op = .add ∨ target.TakesIn op) ∧ input.Depends between operand := by
  obtain ⟨fate, formed⟩ := foreseen.formed user (foreseen.stage.lt_size_of_depends edge) visited
  obtain ⟨node, found⟩ := formed.fated.exists_node
  obtain ⟨value, uses, rfl⟩ := (formed.depends_iff found inside).mp edge
  have direct : value ∈ node.operands → input.Depends user value.node := Dag.depends_of_mem found
  cases formed.fated with
  | accepted _ _ => exact Or.inl (direct uses)
  | discarded _ _ _ => cases uses
  | passed _ _ _ _ => exact Or.inl (direct uses)
  | @covered _ _ pattern _ found' generic _ _ finds _ =>
      obtain ⟨listed, _, _, matched⟩ := Target.cover_finds finds
      obtain ⟨_, own, rest, covers, rfl⟩ := Pattern.covers_of_finds matched
      cases covers.found.symm.trans found
      rcases covers.source_cases (shallow.flat pattern listed) (shallow.folds pattern listed) uses
        with member | ⟨between, _, matcher, isOperand, inner, innerFound, opens, member⟩
      · exact Or.inl (direct member)
      · have innerEdge := Dag.depends_of_mem innerFound member
        rcases opens with isSum | ⟨innerOp, operands, rfl, opcode, _⟩
        · exact Or.inr ⟨_, inner, _, innerFound, isSum, Or.inl rfl, innerEdge⟩
        · exact Or.inr ⟨_, inner, innerOp, innerFound, opcode,
            Or.inr ⟨pattern, listed, operands, isOperand⟩, innerEdge⟩

/-- If a node that may be taken in has a single user whose turn it is, it has it in the input and in
the graph on the way. -/
theorem sole_iff (shallow : target.Shallow)
    (foreseen : Foreseen target input position (id :: waiting) dag)
    (found : input.node? id = some node) (generic : node.opcode = .generic op) (notSum : op ≠ .add)
    (outer : ¬ target.TakesIn op) {inner : NodeId} {innerNode : Node} {innerOp : GenericOp}
    (innerFound : input.node? inner = some innerNode)
    (innerGeneric : innerNode.opcode = .generic innerOp) (takesIn : target.TakesIn innerOp)
    (edge : input.Depends id inner) :
    (∀ user, input.Depends user inner → user = id) ↔
      ∀ user, dag.Depends user inner → user = id := by
  have inside := Dag.lt_size_of_node? innerFound
  have unchanged : ∀ user, user ∈ id :: waiting →
      (dag.Depends user inner ↔ input.Depends user inner) := by
    intro user member
    rw [Dag.Depends, Dag.Depends, foreseen.stage.operandsOf_eq member]
  constructor
  · intro sole user userEdge
    by_cases member : user ∈ id :: waiting
    · exact sole user ((unchanged user member).mp userEdge)
    · rcases foreseen.depends_cases shallow member inside userEdge with
        direct | ⟨between, _, _, betweenFound, betweenGeneric, opened, betweenEdge⟩
      · exact sole user direct
      · -- The single user is neither a sum nor taken in itself.
        cases sole between betweenEdge
        cases betweenFound.symm.trans found
        cases betweenGeneric.symm.trans generic
        exact (opened.elim notSum outer).elim
  · intro sole user userEdge
    by_cases member : user ∈ id :: waiting
    · exact sole user ((unchanged user member).mpr userEdge)
    · obtain ⟨value, listed, rfl⟩ := userEdge
      obtain ⟨_, userFound, _⟩ := Dag.mem_operandsOf.mp listed
      cases foreseen.kept user (Dag.lt_size_of_node? userFound) member value listed with
      | held isHeld =>
          obtain ⟨other, visited, otherEdge⟩ := isHeld
          exact absurd (sole other otherEdge ▸ List.mem_cons_self) visited
      | folded foldable =>
          obtain ⟨_, _, found', generic', isLeaf⟩ := foldable
          cases found'.symm.trans innerFound
          cases generic'.symm.trans innerGeneric
          cases (shallow.inner innerOp takesIn).2.symm.trans isLeaf
      | opened found' generic' _ users =>
          cases found'.symm.trans innerFound
          cases generic'.symm.trans innerGeneric
          exact absurd List.mem_cons_self (users takesIn id edge)

/-- The node whose turn it is is covered as in the input. -/
theorem cover_eq (shallow : target.Shallow) (trim : input.Trim)
    (foreseen : Foreseen target input position (id :: waiting) dag)
    (found : input.node? id = some node) (generic : node.opcode = .generic op) :
    target.cover input id op = target.cover dag id op := by
  apply Target.firstMatch_eq (fun _ _ => rfl)
  intro pattern candidate
  obtain ⟨listed, rfl⟩ := PatternTable.mem_candidates_iff.mp candidate
  apply Pattern.matchNode_eq (foreseen.stage.alike trim.counted) List.mem_cons_self
    (shallow.flat pattern listed)
  intro innerOp operands isOperand value member inner inner' innerFound innerFound' innerGeneric
  have edge : input.Depends id value.node := ⟨value, member, rfl⟩
  have operandsSame := foreseen.stage.operandsOf_eq List.mem_cons_self
  have edge' : dag.Depends id value.node := ⟨value, operandsSame ▸ member, rfl⟩
  have rootSame : dag.isRoot value.node = input.isRoot value.node := by
    rw [Dag.isRoot, foreseen.stage.root, Dag.isRoot]
  obtain ⟨notSum, outer⟩ := shallow.outer pattern listed innerOp operands isOperand
  rw [trim.counted.uses _ _ innerFound, foreseen.stage.counted.uses _ _ innerFound',
    Dag.useCount_eq_one_iff edge, Dag.useCount_eq_one_iff edge', operandsSame, rootSame,
    foreseen.sole_iff shallow found generic notSum outer innerFound innerGeneric
      ⟨pattern, listed, operands, isOperand⟩ edge]

end Foreseen

section Turn

variable {target : Target Features} {input before after : Dag} {waiting : List NodeId}
  {id other : NodeId} {node changed : Node} {leaves : List Node}

theorem Dag.Held.turn (isHeld : before.Held (id :: waiting) other)
    (turn : Turn before after id node changed leaves) : after.Held waiting other := by
  obtain ⟨user, visited, edge⟩ := isHeld
  obtain ⟨different, done⟩ := not_or.mp (List.mem_cons.not.mp visited)
  exact ⟨user, done, turn.depends_other different edge⟩

/-- What has been dealt with stays so. -/
theorem Target.Kept.turn (kept : target.Kept input (id :: waiting) before other)
    (turn : Turn before after id node changed leaves) : target.Kept input waiting after other := by
  cases kept with
  | held isHeld => exact .held (isHeld.turn turn)
  | folded foldable => exact .folded foldable
  | opened found generic operands users =>
      apply Kept.opened found generic
      · exact fun value member => (operands value member).imp_left fun isHeld => isHeld.turn turn
      · exact fun takesIn user edge later =>
          users takesIn user edge (List.mem_cons_of_mem _ later)

end Turn

namespace Foreseen

variable {target : Target Features} {input : Dag} {position : NodeId → Nat} {waiting : List NodeId}
  {id : NodeId} {fate : Fate Features} {before after : Run}

/-- The node whose turn it is meets its fate. -/
theorem exists_fate (shallow : target.Shallow) (trim : input.Trim)
    (foreseen : Foreseen target input position (id :: waiting) before.dag)
    (visit : target.Visit id before after) :
    ∃ fate, target.Fated input id fate ∧
      after.dag.shape =
        (before.dag.shape.extend fate.leaves).update id (fate.change before.dag.size) ∧
      after.session = fate.record before.session := by
  obtain ⟨node, there, uses, found⟩ := foreseen.stage.exists_found List.mem_cons_self
  have unvisited := foreseen.stage.unvisited trim.untouched List.mem_cons_self there
  have pointed := foreseen.pointed_iff shallow.folds
  cases opcode : node.opcode with
  | machine op =>
      obtain ⟨shape, session⟩ := visit.of_machine there unvisited opcode
      exact ⟨.accepted, .accepted found opcode, by rw [shape, Fate.leaves, Dag.extend_nil]; rfl,
        session⟩
  | generic op =>
      rcases visit.of_generic there unvisited opcode with ⟨unused, shape, session⟩ |
        ⟨used, needsNone, shape, session⟩ |
        ⟨used, needs, pattern, own, rest, finds, _, makes, shape, session⟩
      · exact ⟨.discarded, .discarded found opcode fun demanded => unused (pointed.mpr demanded),
          by rw [shape, Fate.leaves, Dag.extend_nil]; rfl, session⟩
      · exact ⟨.passed, .passed found opcode (pointed.mp used) needsNone,
          by rw [shape, Fate.leaves, Dag.extend_nil]; rfl, session⟩
      · rw [← foreseen.cover_eq shallow trim found opcode] at finds
        exact ⟨.covered pattern (own ++ rest),
          .covered found opcode (pointed.mp used) needs finds makes, shape, session⟩

/-- A node that nobody wants was used by a node that has opened it, and that node has dealt with
what it has dropped. -/
theorem kept_of_unwanted (shallow : target.Shallow) (trim : input.Trim)
    (foreseen : Foreseen target input position (id :: waiting) before.dag)
    (unwanted : ¬ target.Demanded input id) {node : Node} (found : input.node? id = some node)
    {value : Value} (listed : value ∈ node.operands) :
    before.dag.Held (id :: waiting) value.node ∨ input.Foldable value.node := by
  rcases trim.pointed id (Dag.lt_size_of_node? found) with ⟨user, operand, isOperand, rfl⟩ | isRoot
  · obtain ⟨_, userFound, _⟩ := Dag.mem_operandsOf.mp isOperand
    have visited := foreseen.stage.not_mem_of_lt
      (foreseen.stage.sorted user _ ⟨operand, isOperand, rfl⟩)
    cases foreseen.kept user (Dag.lt_size_of_node? userFound) visited operand isOperand with
    | held isHeld =>
        obtain ⟨other, _, edge⟩ := isHeld
        exact absurd ((foreseen.pointed_iff shallow.folds).mp (Or.inl ⟨other, edge⟩)) unwanted
    | folded foldable =>
        have member := Dag.mem_operandsOf.mpr ⟨node, found, listed⟩
        rw [trim.bare _ foldable] at member
        cases member
    | opened found' _ operands _ =>
        cases found'.symm.trans found
        exact operands value listed
  · obtain ⟨root, named, rfl⟩ := Dag.isRoot_eq_true_iff.mp isRoot
    exact absurd (.root named) unwanted

end Foreseen

/-- A covered node has dealt with its operands if what it has captured is held. -/
theorem Pattern.Covers.kept_operand {target : Target Features} {input dag : Dag}
    {waiting : List NodeId} {id : NodeId} {node : Node} {pattern : Pattern Features}
    {own rest : List Capture} (covers : pattern.Covers input target.addressTypes id node own rest)
    (shallow : target.Shallow) (counted : input.Counted)
    (patternListed : pattern ∈ target.table.patterns) (done : id ∉ waiting)
    (captured : ∀ source, Capture.value source ∈ own ++ rest → dag.Held waiting source.node)
    {value : Value} (listed : value ∈ node.operands) :
    target.Kept input waiting dag value.node := by
  rcases covers.kept (shallow.flat pattern patternListed) captured listed with
    isHeld | foldable | ⟨matcher, isOperand, inner, innerFound, opens, operands⟩
  · exact .held isHeld
  · exact .folded foldable
  · rcases opens with isSum | ⟨op, matchers, rfl, opcode, single⟩
    · exact .opened innerFound isSum operands fun takesIn =>
        absurd rfl (shallow.inner _ takesIn).1
    · -- The node was the only user of what it has taken in.
      refine .opened innerFound opcode operands fun _ user edge => ?_
      rw [counted.uses _ _ innerFound,
        Dag.useCount_eq_one_iff (Dag.depends_of_mem covers.found listed)] at single
      rw [single.2.1 user edge]
      exact done

namespace Foreseen

variable {target : Target Features} {input : Dag} {position : NodeId → Nat} {waiting : List NodeId}
  {id : NodeId} {fate : Fate Features} {before after : Run}

/-- A node that has met its fate has dealt with its operands. -/
theorem kept_self (shallow : target.Shallow) (trim : input.Trim)
    (foreseen : Foreseen target input position (id :: waiting) before.dag)
    {node changed : Node} {leaves : List Node}
    (turn : Turn before.dag after.dag id node changed leaves)
    (formed : target.Formed input after.dag id fate) {value : Value}
    (member : value ∈ input.operandsOf id) : target.Kept input waiting after.dag value.node := by
  obtain ⟨later, _⟩ := List.pairwise_cons.mp foreseen.stage.falling
  have done : id ∉ waiting := fun waits => Nat.lt_irrefl _ (later id waits)
  obtain ⟨node, found, listed⟩ := Dag.mem_operandsOf.mp member
  have holds : ∀ source : Value, source.node < input.size → fate.Uses node source →
      after.dag.Held waiting source.node := fun source inside uses =>
    ⟨id, done, (formed.depends_iff found inside).mpr ⟨source, uses, rfl⟩⟩
  have inside := (trim.counted.operands id value member).lt_size
  cases formed.fated with
  | accepted _ _ => exact .held (holds value inside listed)
  | passed _ _ _ _ => exact .held (holds value inside listed)
  | discarded _ _ unwanted =>
      rcases foreseen.kept_of_unwanted shallow trim unwanted found listed with isHeld | foldable
      · exact .held (isHeld.turn turn)
      · exact .folded foldable
  | covered _ _ _ _ finds _ =>
      obtain ⟨patternListed, _, _, matched⟩ := Target.cover_finds finds
      obtain ⟨_, own, rest, covers, rfl⟩ := Pattern.covers_of_finds matched
      cases covers.found.symm.trans found
      exact covers.kept_operand shallow trim.counted patternListed done
        (fun source captured => holds source
          ((covers.handedOn captured).resolves trim.counted).lt_size captured) listed

/-- One turn, with what the session records of it. -/
theorem visit (shallow : target.Shallow) (trim : input.Trim)
    (foreseen : Foreseen target input position (id :: waiting) before.dag)
    (visit : target.Visit id before after) (counted : after.dag.Counted) :
    Foreseen target input position waiting after.dag ∧
      ∃ fate, target.Fated input id fate ∧ after.session = fate.record before.session := by
  obtain ⟨fate, fated, shape, session⟩ := foreseen.exists_fate shallow trim visit
  obtain ⟨node, changed, leaves, turn⟩ := foreseen.stage.turn trim.untouched visit
  have formed : target.Formed input after.dag id fate := by
    obtain ⟨node, there, uses, found⟩ := foreseen.stage.exists_found List.mem_cons_self
    have thereShape : before.dag.shape.node? id = some node.shape := Dag.shape_found there
    exact .of_shape fated found thereShape foreseen.stage.tended.grown shape
  have inside := foreseen.stage.inside id List.mem_cons_self
  refine ⟨⟨foreseen.stage.visit shallow.folds trim.untouched visit counted, ?_, ?_⟩, fate, fated,
    session⟩
  · intro other otherInside visited
    by_cases same : other = id
    · exact ⟨fate, same ▸ formed⟩
    · obtain ⟨otherFate, otherFormed⟩ := foreseen.formed other otherInside (by simp [same, visited])
      exact ⟨otherFate, otherFormed.turn turn same inside⟩
  · intro user userInside visited value member
    by_cases same : user = id
    · subst same
      exact foreseen.kept_self shallow trim turn formed member
    · exact (foreseen.kept user userInside (by simp [same, visited]) value member).turn turn

/-- A run of turns, with what the session records of them. -/
theorem visits {ids : List NodeId} (shallow : target.Shallow) (trim : input.Trim)
    (visits : target.Visits ids before after)
    (foreseen : Foreseen target input position (ids ++ waiting) before.dag) :
    Foreseen target input position waiting after.dag ∧
      ∀ fateOf : NodeId → Fate Features, (∀ id ∈ ids, target.Fated input id (fateOf id)) →
        after.session =
          ids.foldl (fun session id => (fateOf id).record session) before.session := by
  induction visits with
  | nil => exact ⟨foreseen, fun _ _ => rfl⟩
  | @cons id ids _ _ _ visit counted _ inductionHypothesis =>
      obtain ⟨next, fate, fated, session⟩ := foreseen.visit shallow trim visit counted
      obtain ⟨last, sessions⟩ := inductionHypothesis next
      refine ⟨last, fun fateOf fates => ?_⟩
      rw [sessions fateOf fun other member => fates other (List.mem_cons_of_mem _ member), session,
        fated.unique (fates id List.mem_cons_self), List.foldl_cons]

end Foreseen

/-! ### Whole runs -/

/-- Every node that is wanted and needs selection is covered, and the operands of its instruction
can be made. -/
def Target.Coverable (target : Target Features) (input : Dag) : Prop :=
  ∀ id node op, input.node? id = some node → node.opcode = .generic op →
    op.needsNoSelection = false → target.Demanded input id →
    ∃ pattern captures, (target.cover input id op).Finds (pattern, captures) ∧
      ∀ capture ∈ captures, capture.Makes

namespace Target

variable {target : Target Features} {order order' : List NodeId} {name : String}
  {run run' after after' : Run}

/-- After a run in a dependency order every node has met its fate, and the session has recorded it.
-/
theorem foreseen_of_ok (shallow : target.Shallow) (trim : run.dag.Trim)
    (isOrder : run.dag.IsDependencyOrder order)
    (selects : (target.selectFunction name order).run run = .ok () after) :
    Foreseen target run.dag order.idxOf [] after.dag ∧
      ∀ fateOf : NodeId → Fate Features,
        (∀ id < run.dag.size, target.Fated run.dag id (fateOf id)) →
        after.session = (order.reverse.foldl (fun session id => (fateOf id).record session)
          (run.session.begin name)).finish := by
  obtain ⟨first, last, firstDag, firstSession, _, ⟨_, visits, _⟩, lastDag, lastSession⟩ :=
    (target.selectFunction_ends name order run trim.counted).of_ok selects
  have start : Foreseen target run.dag order.idxOf (order.reverse ++ []) first.dag := by
    rw [firstDag, List.append_nil]
    exact .start trim isOrder
  obtain ⟨foreseen, sessions⟩ := Foreseen.visits shallow trim visits start
  rw [lastDag, lastSession, ← firstSession]
  refine ⟨foreseen, fun fateOf fates => ?_⟩
  rw [sessions fateOf fun id member => fates id (isOrder.lt_size (List.mem_reverse.mp member))]

/-- Selection in a dependency order succeeds exactly if what is wanted can be covered, and whether
it can is a property of the input. -/
theorem exists_ok_iff (shallow : target.Shallow)
    (answers : ∀ dag : Dag, dag.Counted → dag.Full →
      dag.Answers target.addressTypes (fun _ => False) dag.Resolves)
    (trim : run.dag.Trim) (isOrder : run.dag.IsDependencyOrder order) :
    (∃ after, (target.selectFunction name order).run run = .ok () after) ↔
      target.Coverable run.dag := by
  constructor
  · rintro ⟨after, selects⟩
    obtain ⟨foreseen, _⟩ := foreseen_of_ok shallow trim isOrder selects
    intro id node op found generic needs demanded
    obtain ⟨fate, formed⟩ :=
      foreseen.formed id (Dag.lt_size_of_node? found) List.not_mem_nil
    rcases formed.fated.of_generic found generic with
      ⟨_, unwanted⟩ | ⟨_, _, needsNone⟩ | ⟨pattern, captures, _, _, _, finds, makes⟩
    · exact absurd demanded unwanted
    · cases needs.symm.trans needsNone
    · exact ⟨pattern, captures, finds, makes⟩
  · intro coverable
    apply exists_ok_of_turns trim.counted fun id => ⟨isOrder.lt_size, isOrder.mem⟩
    intro visited id rest first last firstDag split inside visits counted
    have start : Foreseen target run.dag order.idxOf (visited ++ id :: rest) first.dag := by
      rw [firstDag, ← split]
      exact .start trim isOrder
    obtain ⟨foreseen, _⟩ := Foreseen.visits shallow trim visits start
    obtain ⟨node, there, uses, found⟩ := foreseen.stage.exists_found List.mem_cons_self
    have full := foreseen.stage.advances.full
    apply not_stuck_of_covered (answers last.dag counted full) (full.resolves there)
      (Dag.lt_size_of_node? there)
    intro node' op there' generic needs pointed
    cases there'.symm.trans there
    rw [← foreseen.cover_eq shallow trim found generic]
    exact coverable id _ op found generic needs ((foreseen.pointed_iff shallow.folds).mp pointed)

/-- Two runs in dependency orders end with the same forms and the same statistics. -/
theorem agree_of_orders (shallow : target.Shallow) (trim : run.dag.Trim)
    (isOrder : run.dag.IsDependencyOrder order) (isOrder' : run.dag.IsDependencyOrder order')
    (sameDag : run'.dag = run.dag) (sameSession : run'.session = run.session)
    (selects : (target.selectFunction name order).run run = .ok () after)
    (selects' : (target.selectFunction name order').run run' = .ok () after') :
    (∀ id < run.dag.size, ∃ node node', after.dag.node? id = some node ∧
      after'.dag.node? id = some node' ∧
      Dag.SameForm run.dag after.dag after'.dag node node') ∧
    after.session.stats.tally = after'.session.stats.tally := by
  obtain ⟨foreseen, sessions⟩ := foreseen_of_ok shallow trim isOrder selects
  rw [← sameDag] at trim isOrder'
  obtain ⟨foreseen', sessions'⟩ := foreseen_of_ok shallow trim isOrder' selects'
  rw [sameDag] at trim isOrder' foreseen' sessions'
  constructor
  · intro id inside
    obtain ⟨fate, formed⟩ := foreseen.formed id inside List.not_mem_nil
    obtain ⟨fate', formed'⟩ := foreseen'.formed id inside List.not_mem_nil
    cases formed.fated.unique formed'.fated
    exact formed.exists_sameForm trim.counted formed'
  · choose! fateOf formed using fun id inside => foreseen.formed id inside List.not_mem_nil
    have fates : ∀ id < run.dag.size, target.Fated run.dag id (fateOf id) := fun id inside =>
      (formed id inside).fated
    have perm : order.reverse.Perm order'.reverse :=
      ((List.reverse_perm order).trans (isOrder.lists.trans isOrder'.lists.symm)).trans
        (List.reverse_perm order').symm
    rw [sessions fateOf fates, sessions' fateOf fates, sameSession]
    apply Session.tally_finish
    · rw [Fate.current_foldl, Fate.current_foldl]
    · exact Fate.tally_foldl_perm perm fateOf _

end Target

end DagSelect
