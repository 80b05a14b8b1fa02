/-
Module: DagSelect.Proofs.View
Purpose: What a match sees of a graph. Matching a pattern against a node reads the node and what
  lies beneath it, so two graphs that are alike there give the same attempt, log included. Use
  counts are looked at in one place only: a node that is taken into an instruction must have a
  single user.
Main exports: Dag.Alike, Dag.SingleAlike, Matcher.isPlain, Matcher.isFlat, Pattern.isFlat,
  Pattern.matchNode_eq, Target.firstMatch_eq, Target.finds_or_extra
-/
import DagSelect.Proofs.Visit

namespace DagSelect

/-! ### Graphs that are alike -/

/-- Two graphs have the same nodes at the known positions, use counts apart, and the operands of
what is known are known. -/
structure Dag.Alike (known : NodeId → Prop) (first second : Dag) : Prop where
  nodes : ∀ id, known id →
    ∃ node, first.shape.node? id = some node ∧ second.shape.node? id = some node
  operands : ∀ id, known id → ∀ value ∈ first.operandsOf id, known value.node

/-- If a node has an opcode, it has a single user in both graphs or in neither. -/
def Dag.SingleAlike (first second : Dag) (op : GenericOp) (id : NodeId) : Prop :=
  ∀ node other, first.node? id = some node → second.node? id = some other →
    node.opcode = .generic op → (node.uses = 1 ↔ other.uses = 1)

namespace Dag.Alike

variable {known : NodeId → Prop} {first second : Dag} {types : AddressTypes} {value : Value}
  {id : NodeId}

/-- Looking a known node up gives the same node, use count apart. -/
theorem exists_fetch (alike : Alike known first second) (isKnown : known id) :
    ∃ node uses, first.fetch id = .ok node ∧ second.fetch id = .ok { node with uses := uses } := by
  obtain ⟨node, firstFound, secondFound⟩ := alike.nodes id isKnown
  obtain ⟨uses, firstFound⟩ := Dag.exists_uses_of_shape firstFound
  obtain ⟨uses', secondFound⟩ := Dag.exists_uses_of_shape secondFound
  exact ⟨_, uses', Dag.fetch_eq_ok_iff.mpr firstFound, Dag.fetch_eq_ok_iff.mpr secondFound⟩

theorem known_of_mem {node : Node} (alike : Alike known first second) (isKnown : known id)
    (fetched : first.fetch id = .ok node) (member : value ∈ node.operands) : known value.node := by
  apply alike.operands id isKnown
  exact Dag.mem_operandsOf.mpr ⟨node, Dag.fetch_eq_ok_iff.mp fetched, member⟩

theorem valueType_eq (alike : Alike known first second) (isKnown : known value.node) :
    first.valueType value = second.valueType value := by
  obtain ⟨node, uses, firstFetch, secondFetch⟩ := alike.exists_fetch isKnown
  simp only [Dag.valueType, firstFetch, secondFetch]
  rfl

theorem foldAbsolute_eq (alike : Alike known first second) (isKnown : known value.node) :
    foldAbsolute first types value = foldAbsolute second types value := by
  obtain ⟨node, uses, firstFetch, secondFetch⟩ := alike.exists_fetch isKnown
  simp only [foldAbsolute, firstFetch, secondFetch, alike.valueType_eq isKnown]
  rfl

theorem frameSlot_eq (alike : Alike known first second) (isKnown : known value.node) :
    frameSlot first value = frameSlot second value := by
  obtain ⟨node, uses, firstFetch, secondFetch⟩ := alike.exists_fetch isKnown
  simp only [frameSlot, firstFetch, secondFetch]
  rfl

theorem baseOf_eq (alike : Alike known first second) (isKnown : known value.node) :
    baseOf first value = baseOf second value := by
  simp only [baseOf, alike.frameSlot_eq isKnown]

theorem foldSum_eq {left right : Value} (alike : Alike known first second)
    (leftKnown : known left.node) (rightKnown : known right.node) :
    foldSum first types left right = foldSum second types left right := by
  simp only [foldSum, alike.foldAbsolute_eq leftKnown, alike.foldAbsolute_eq rightKnown,
    alike.baseOf_eq leftKnown, alike.baseOf_eq rightKnown]

theorem foldBased_eq (alike : Alike known first second) (isKnown : known value.node) :
    foldBased first types value = foldBased second types value := by
  obtain ⟨node, uses, firstFetch, secondFetch⟩ := alike.exists_fetch isKnown
  simp only [foldBased, alike.frameSlot_eq isKnown, firstFetch, secondFetch]
  congr 1
  funext slot
  cases slot with
  | some index => rfl
  | none =>
      dsimp only [bind, Except.bind]
      split
      · rename_i left right opcode operands
        apply alike.foldSum_eq
        · exact alike.known_of_mem isKnown firstFetch (by simp [operands])
        · exact alike.known_of_mem isKnown firstFetch (by simp [operands])
      · rfl

end Dag.Alike

/-! ### Attempts -/

/-- A question that is answered goes on with the answer. -/
theorem Attempt.ask_ok_bind {α β : Type} (a : α) (next : α → Attempt β) :
    ((Attempt.ask (.ok a)) >>= next) = next a := rfl

namespace Matcher

/-- Whether a matcher looks at its operand alone. -/
def isSimple : Matcher → Bool
  | .off | .node _ _ => false
  | _ => true

/-- Whether a matcher takes no node in. -/
def isPlain : Matcher → Bool
  | .node _ _ => false
  | _ => true

/-- Whether a node that a matcher takes in ends the match. -/
def isFlat : Matcher → Bool
  | .node _ operands => operands.all isSimple
  | _ => true

theorem isPlain_of_isSimple {matcher : Matcher} (simple : matcher.isSimple = true) :
    matcher.isPlain = true := by
  cases matcher with
  | off => rfl
  | node op operands => cases simple
  | _ => rfl

section

variable {known : NodeId → Prop} {first second : Dag} {types : AddressTypes} {value : Value}
  {matcher : Matcher}

theorem attempt_eq_of_isPlain (alike : Dag.Alike known first second)
    (isKnown : known value.node) (plain : matcher.isPlain = true) :
    matcher.attempt first types value = matcher.attempt second types value := by
  obtain ⟨node, uses, firstFetch, secondFetch⟩ := alike.exists_fetch isKnown
  cases matcher with
  | chain => simp only [attempt, alike.valueType_eq isKnown]
  | reg => simp only [attempt, alike.valueType_eq isKnown]
  | imm =>
      simp only [attempt, firstFetch, secondFetch, alike.valueType_eq isKnown]
      rfl
  | exactly number =>
      simp only [attempt, firstFetch, secondFetch]
      rfl
  | mem => simp only [attempt, Attempt.absolute, alike.foldAbsolute_eq isKnown]
  | off => simp only [attempt, Attempt.based, alike.foldBased_eq isKnown]
  | node op operands => cases plain

theorem attemptAll_eq {matchers : List Matcher} {values : List Value}
    (same : ∀ matcher ∈ matchers, ∀ value ∈ values,
      matcher.attempt first types value = matcher.attempt second types value) :
    attemptAll first types matchers values = attemptAll second types matchers values := by
  induction matchers generalizing values with
  | nil => simp only [attemptAll]
  | cons matcher matchers inductionHypothesis =>
      cases values with
      | nil => simp only [attemptAll]
      | cons value values =>
          have rest := inductionHypothesis fun other member value listed =>
            same other (List.mem_cons_of_mem _ member) value (List.mem_cons_of_mem _ listed)
          simp only [attemptAll, same matcher List.mem_cons_self value List.mem_cons_self, rest]

/-- Whether a node can be taken in depends on its use count only if it has the opcode. -/
theorem absorbs_eq {op : GenericOp} {arity uses : Nat} {node : Node}
    (single : node.opcode = .generic op → (node.uses = 1 ↔ uses = 1)) :
    absorbs op arity value { node with uses := uses } = absorbs op arity value node := by
  unfold absorbs
  by_cases sameOp : node.opcode = .generic op
  · have uses : (node.uses == 1) = (uses == 1) := by
      rw [Bool.eq_iff_iff, beq_iff_eq, beq_iff_eq]
      exact single sameOp
    simp only [uses]
  · have other : (node.opcode == .generic op) = false := by simpa using sameOp
    simp only [other, Bool.and_false, Bool.false_and]

/-- Graphs that are alike give the same attempt, if they agree on whether what is taken in has a
single user. -/
theorem attempt_eq_of_isFlat (alike : Dag.Alike known first second) (isKnown : known value.node)
    (flat : matcher.isFlat = true)
    (single : ∀ op operands, matcher = .node op operands →
      Dag.SingleAlike first second op value.node) :
    matcher.attempt first types value = matcher.attempt second types value := by
  cases matcher with
  | node op operands =>
      obtain ⟨node, uses, firstFetch, secondFetch⟩ := alike.exists_fetch isKnown
      have sameSingle := single op operands rfl node _ (Dag.fetch_eq_ok_iff.mp firstFetch)
        (Dag.fetch_eq_ok_iff.mp secondFetch)
      have inner : attemptAll first types operands node.operands =
          attemptAll second types operands node.operands := by
        apply attemptAll_eq
        intro matcher member operand listed
        apply attempt_eq_of_isPlain alike (alike.known_of_mem isKnown firstFetch listed)
        exact isPlain_of_isSimple (List.all_eq_true.mp flat matcher member)
      simp only [attempt, firstFetch, secondFetch, Attempt.ask_ok_bind, absorbs_eq sameSingle,
        inner]
  | _ => exact attempt_eq_of_isPlain alike isKnown rfl

end

end Matcher

/-! ### Patterns -/

/-- A test of a type looks at the results of the node and at the types of its operands. -/
theorem TypeTest.holds_eq {test : TypeTest} {first second : Dag} {node : Node} {uses : Nat}
    (same : ∀ value ∈ node.operands, first.valueType value = second.valueType value) :
    test.holds first node = test.holds second { node with uses := uses } := by
  cases test with
  | any => rfl
  | result type => rfl
  | operand index type =>
      simp only [TypeTest.holds]
      cases listed : node.operands[index]? with
      | none => rfl
      | some value => simp only [same value (List.mem_of_getElem? listed)]

namespace Pattern

variable {Features : Type}

/-- Whether the matchers of a pattern go no deeper than one node. -/
def isFlat (pattern : Pattern Features) : Bool :=
  pattern.root.all Matcher.isPlain && pattern.operands.all Matcher.isFlat

/-- Graphs that are alike give the same match of a pattern. -/
theorem matchNode_eq {pattern : Pattern Features} {known : NodeId → Prop} {first second : Dag}
    {types : AddressTypes} {id : NodeId} (alike : Dag.Alike known first second) (isKnown : known id)
    (flat : pattern.isFlat = true)
    (single : ∀ op operands, Matcher.node op operands ∈ pattern.operands →
      ∀ value ∈ first.operandsOf id, Dag.SingleAlike first second op value.node) :
    pattern.matchNode first types id = pattern.matchNode second types id := by
  obtain ⟨rootPlain, operandsFlat⟩ := Bool.and_eq_true_iff.mp flat
  obtain ⟨node, uses, firstFetch, secondFetch⟩ := alike.exists_fetch isKnown
  have typed : pattern.typeTest.holds first node =
      pattern.typeTest.holds second { node with uses := uses } := by
    apply TypeTest.holds_eq
    intro value listed
    exact alike.valueType_eq (alike.known_of_mem isKnown firstFetch listed)
  have root : ∀ matcher, pattern.root = some matcher →
      matcher.attempt first types { node := id } = matcher.attempt second types { node := id } := by
    intro matcher isRoot
    apply Matcher.attempt_eq_of_isPlain alike isKnown
    simpa [isRoot] using rootPlain
  have operands : Matcher.attemptAll first types pattern.operands node.operands =
      Matcher.attemptAll second types pattern.operands node.operands := by
    apply Matcher.attemptAll_eq
    intro matcher member value listed
    apply Matcher.attempt_eq_of_isFlat alike (alike.known_of_mem isKnown firstFetch listed)
      (List.all_eq_true.mp operandsFlat matcher member)
    rintro op inner rfl
    apply single op inner member
    exact Dag.mem_operandsOf.mpr ⟨node, Dag.fetch_eq_ok_iff.mp firstFetch, listed⟩
  simp only [matchNode, firstFetch, secondFetch, Attempt.ask_ok_bind, typed, operands]
  cases isRoot : pattern.root with
  | none => rfl
  | some matcher => simp only [root matcher isRoot]

end Pattern

/-! ### The search of a table -/

namespace Target

variable {Features : Type} {first second : Target Features} {before after : Dag} {id : NodeId}
  {patterns : List (Pattern Features)}

/-- Two searches that try the same patterns with the same matches are the same. -/
theorem firstMatch_eq
    (guards : ∀ pattern ∈ patterns,
      pattern.guard.holds first.features = pattern.guard.holds second.features)
    (same : ∀ pattern ∈ patterns, pattern.matchNode before first.addressTypes id =
      pattern.matchNode after second.addressTypes id) :
    first.firstMatch before id patterns = second.firstMatch after id patterns := by
  induction patterns with
  | nil => rfl
  | cons pattern rest inductionHypothesis =>
      rw [List.forall_mem_cons] at guards same
      unfold firstMatch
      rw [guards.1, same.1, inductionHypothesis guards.2 same.2]

/-- If the second processor has the patterns of the first and matches them the same way, what it
finds is either a pattern that only it has, or what the first one finds. -/
theorem finds_or_extra {pattern : Pattern Features} {captures : List Capture}
    (guards : ∀ pattern ∈ patterns, pattern.guard.holds first.features = true →
      pattern.guard.holds second.features = true)
    (same : ∀ pattern ∈ patterns, pattern.guard.holds first.features = true →
      pattern.matchNode before first.addressTypes id =
        pattern.matchNode after second.addressTypes id)
    (finds : (second.firstMatch after id patterns).Finds (pattern, captures)) :
    pattern.guard.holds first.features = false ∨
      (first.firstMatch before id patterns).Finds (pattern, captures) := by
  induction patterns with
  | nil => exact absurd finds Attempt.not_finds_failure
  | cons head rest inductionHypothesis =>
      rw [List.forall_mem_cons] at guards same
      have later := inductionHypothesis guards.2 same.2
      unfold firstMatch at finds ⊢
      by_cases firstHas : head.guard.holds first.features = true
      · rw [if_pos (guards.1 firstHas)] at finds
        rw [if_pos firstHas, same.1 firstHas, Attempt.finds_orElse]
        rw [Attempt.finds_orElse] at finds
        rcases finds with found | ⟨nothing, finds⟩
        · exact Or.inr (Or.inl found)
        · exact (later finds).imp_right fun found => Or.inr ⟨nothing, found⟩
      · rw [if_neg firstHas]
        by_cases secondHas : head.guard.holds second.features = true
        · rw [if_pos secondHas, Attempt.finds_orElse] at finds
          rcases finds with found | ⟨_, finds⟩
          · simp only [Attempt.finds_bind, Attempt.finds_pure, Prod.mk.injEq] at found
            obtain ⟨_, _, rfl, _⟩ := found
            exact Or.inl (Bool.not_eq_true _ ▸ firstHas)
          · exact later finds
        · rw [if_neg secondHas] at finds
          exact later finds

end Target

end DagSelect
