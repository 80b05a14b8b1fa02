/-
Module: DagSelect.Proofs.Finding
Purpose: Matching is complete. On a graph that answers every question, a matcher finds something
  wherever the rules of matching allow something, and so does a pattern that covers a node. The
  search of the table then ends with a pattern, and with one that asks for no less than any other
  that covers the node.
Main exports: Dag.Full, Dag.Counted.answers, Pattern.AsksFor, Pattern.Covers.exists_finds,
  Target.cover_ne_none, Target.complexity_le_of_cover
-/
import DagSelect.Proofs.Visit

namespace DagSelect

/-! ### Graphs that answer every question -/

/-- Every node has a result. -/
def Dag.Full (dag : Dag) : Prop :=
  ∀ id node, dag.node? id = some node → node.results ≠ []

/-- In a full graph every node is known by its first result. -/
theorem Dag.Full.resolves {dag : Dag} (full : dag.Full) {id : NodeId} {node : Node}
    (found : dag.node? id = some node) : dag.Resolves { node := id } :=
  ⟨node, found, List.length_pos_iff.mpr (full id node found)⟩

/-- If the counts are exact, matching never breaks off. -/
theorem Dag.Counted.answers {dag : Dag} {types : AddressTypes} {bits : Nat} (counted : dag.Counted)
    (full : dag.Full) (sized : types.immediate.sizeInBits = .ok bits) :
    dag.Answers types (fun _ => False) dag.Resolves where
  fetch value resolves cause failed := by
    obtain ⟨node, found, _⟩ := resolves
    rw [Dag.fetch_eq_ok_iff.mpr found] at failed
    cases failed
  valueType value resolves cause failed := by
    obtain ⟨node, found, inside⟩ := resolves
    rw [Dag.valueType_eq_ok_iff.mpr ⟨node, found, List.getElem?_eq_getElem inside⟩] at failed
    cases failed
  operands value node _ found operand member :=
    counted.operands value.node operand (Dag.mem_operandsOf.mpr ⟨node, found, member⟩)
  results id node found noResults := full id node found noResults
  immediate cause failed := by
    rw [sized] at failed
    cases failed

/-! ### Matchers -/

variable {dag : Dag} {types : AddressTypes} {value : Value} {known : Value → Prop}

theorem foldAbsolute_eq_of_fold {displacement : Displacement}
    (fold : AbsoluteFold dag types value displacement) :
    foldAbsolute dag types value = .ok (some displacement) := by
  cases fold with
  | immediate found opcode payload typed scalar sized =>
      simp only [foldAbsolute, Dag.fetch_eq_ok_iff.mpr found, opcode, payload, typed, sized, bind,
        Except.bind]
      simp [scalar, pure, Except.pure]
  | global found opcode payload =>
      simp only [foldAbsolute, Dag.fetch_eq_ok_iff.mpr found, opcode, payload, bind, Except.bind]
      rfl
  | external found opcode payload =>
      simp only [foldAbsolute, Dag.fetch_eq_ok_iff.mpr found, opcode, payload, bind, Except.bind]
      rfl

theorem frameSlot_eq_of_found {node : Node} {index : Int}
    (found : dag.node? value.node = some node) (opcode : node.opcode = .generic .frameIndex)
    (payload : node.payload = .frameIndex index) : frameSlot dag value = .ok (some index) := by
  simp only [frameSlot, Dag.fetch_eq_ok_iff.mpr found, opcode, payload, bind, Except.bind]
  rfl

/-- A sum with an absolute side is folded, if not with this side then with the other. -/
theorem exists_foldSum {left right : Value} {displacement : Displacement}
    (answers : dag.Answers types (fun _ => False) known) (leftKnown : known left)
    (rightKnown : known right)
    (fold : AbsoluteFold dag types right displacement ∨ AbsoluteFold dag types left displacement) :
    ∃ address, foldSum dag types left right = .ok (some address) := by
  obtain ⟨leftBase, leftBased⟩ := (confined_baseOf answers leftKnown).exists_ok
  obtain ⟨rightBase, rightBased⟩ := (confined_baseOf answers rightKnown).exists_ok
  obtain ⟨rightFold, rightFolded⟩ := (confined_foldAbsolute answers rightKnown).exists_ok
  cases rightFold with
  | some other =>
      refine ⟨.sum leftBase right other, ?_⟩
      simp only [foldSum, rightFolded, leftBased, bind, Except.bind]
      rfl
  | none =>
      rcases fold with rightAbsolute | leftAbsolute
      · cases (foldAbsolute_eq_of_fold rightAbsolute).symm.trans rightFolded
      · refine ⟨.sum rightBase left displacement, ?_⟩
        simp only [foldSum, rightFolded, foldAbsolute_eq_of_fold leftAbsolute, rightBased, bind,
          Except.bind]
        rfl

theorem exists_foldBased {address : BasedAddress}
    (answers : dag.Answers types (fun _ => False) known) (isKnown : known value)
    (fold : BasedFold dag types value address) :
    ∃ address, foldBased dag types value = .ok (some address) := by
  have ofSum : ∀ {node : Node} {left right : Value} {displacement : Displacement},
      dag.node? value.node = some node → node.opcode = .generic .add →
      node.operands = [left, right] →
      AbsoluteFold dag types right displacement ∨ AbsoluteFold dag types left displacement →
      ∃ address, foldBased dag types value = .ok (some address) := by
    intro node left right displacement found opcode operands absolute
    have operandsKnown := answers.operands value node isKnown found
    rw [operands] at operandsKnown
    obtain ⟨sum, folded⟩ := exists_foldSum answers (operandsKnown left (by simp))
      (operandsKnown right (by simp)) absolute
    refine ⟨sum, ?_⟩
    have noSlot : frameSlot dag value = .ok none := by
      simp only [frameSlot, Dag.fetch_eq_ok_iff.mpr found, opcode, bind, Except.bind]
      rfl
    simp only [foldBased, noSlot, Dag.fetch_eq_ok_iff.mpr found, opcode, operands, folded, bind,
      Except.bind]
  cases fold with
  | @slot _ index found opcode payload =>
      refine ⟨.slot index types.frameOffset, ?_⟩
      simp only [foldBased, frameSlot_eq_of_found found opcode payload, bind, Except.bind]
      rfl
  | right found opcode operands absolute based =>
      exact ofSum found opcode operands (Or.inl absolute)
  | left found opcode operands absolute based =>
      exact ofSum found opcode operands (Or.inr absolute)

mutual

/-- A matcher finds something where the rules allow something. A sum of two absolute sides can be
folded in two ways, so what is found may be something else. -/
theorem Matches.exists_finds (answers : dag.Answers types (fun _ => False) known) :
    ∀ {matcher : Matcher} {value : Value} {captures : List Capture},
      Matches dag types matcher value captures → known value →
      ∃ captures, (matcher.attempt dag types value).Finds captures
  | _, value, _, .chain typed, _ => by
      refine ⟨[.value value], ?_⟩
      simp only [Matcher.attempt, Attempt.finds_bind, Attempt.finds_ask, Attempt.finds_require,
        Attempt.finds_pure]
      exact ⟨_, typed, (), beq_self_eq_true _, trivial⟩
  | _, value, _, .reg typed data, _ => by
      refine ⟨[.value value], ?_⟩
      simp only [Matcher.attempt, Attempt.finds_bind, Attempt.finds_ask, Attempt.finds_require,
        Attempt.finds_pure]
      exact ⟨_, typed, (), bne_iff_ne.mpr data, trivial⟩
  | _, value, _, @Matches.imm _ _ _ _ number type found opcode payload typed, _ => by
      refine ⟨[.constant number type], ?_⟩
      simp only [Matcher.attempt, Attempt.finds_bind, Attempt.finds_ask]
      refine ⟨_, Dag.fetch_eq_ok_iff.mpr found, ?_⟩
      simp only [opcode, payload, Attempt.finds_bind, Attempt.finds_ask, Attempt.finds_pure]
      exact ⟨_, typed, rfl⟩
  | _, value, _, .exactly found opcode payload, _ => by
      refine ⟨[], ?_⟩
      simp only [Matcher.attempt, Attempt.finds_bind, Attempt.finds_ask, Attempt.finds_require,
        Attempt.finds_pure]
      refine ⟨_, Dag.fetch_eq_ok_iff.mpr found, (), ?_, trivial⟩
      simp [opcode, payload]
  | _, value, _, @Matches.mem _ _ _ displacement absolute, _ => by
      refine ⟨[.displacement displacement], ?_⟩
      simp only [Matcher.attempt, Attempt.finds_bind, Attempt.finds_pure]
      exact ⟨_, Attempt.absolute_finds.mpr (foldAbsolute_eq_of_fold absolute), rfl⟩
  | _, value, _, .off based, isKnown => by
      obtain ⟨address, folded⟩ := exists_foldBased answers isKnown based
      refine ⟨[address.base.capture types, .displacement address.displacement], ?_⟩
      simp only [Matcher.attempt, Attempt.finds_bind, Attempt.finds_pure]
      exact ⟨address, Attempt.based_finds.mpr folded, rfl⟩
  | _, value, _, .node found absorbed operands, isKnown => by
      obtain ⟨captures, finds⟩ := MatchesAll.exists_finds answers operands
        (answers.operands value _ isKnown found)
      refine ⟨captures, ?_⟩
      simp only [Matcher.attempt, Attempt.finds_bind, Attempt.finds_ask, Attempt.finds_require]
      exact ⟨_, Dag.fetch_eq_ok_iff.mpr found, (), absorbed, finds⟩

/-- The same for operands one after another. -/
theorem MatchesAll.exists_finds (answers : dag.Answers types (fun _ => False) known) :
    ∀ {matchers : List Matcher} {values : List Value} {captures : List Capture},
      MatchesAll dag types matchers values captures → (∀ value ∈ values, known value) →
      ∃ captures, (Matcher.attemptAll dag types matchers values).Finds captures
  | _, _, _, .nil _, _ => ⟨[], by simp [Matcher.attemptAll]⟩
  | _, _, _, .short _ _, _ => ⟨[], by simp [Matcher.attemptAll]⟩
  | _, _, _, .cons head tail, allKnown => by
      obtain ⟨first, headFinds⟩ := Matches.exists_finds answers head
        (allKnown _ List.mem_cons_self)
      obtain ⟨rest, tailFinds⟩ := MatchesAll.exists_finds answers tail
        fun value member => allKnown value (List.mem_cons_of_mem _ member)
      refine ⟨first ++ rest, ?_⟩
      simp only [Matcher.attemptAll, Attempt.finds_bind, Attempt.finds_pure]
      exact ⟨first, headFinds, rest, tailFinds, rfl⟩

end

/-! ### Patterns -/

variable {Features : Type} {pattern other : Pattern Features} {id : NodeId} {node : Node}
  {own rest : List Capture}

theorem TypeTest.holds_result_iff {type : SimpleType} :
    (TypeTest.result type).holds dag node = .ok true ↔
      node.results.head? = some (.simple type) := by
  cases results : node.results with
  | nil => simp [TypeTest.holds, results]
  | cons first others => simp [TypeTest.holds, results]

/-- The pattern asks for an opcode, a type and forms of the operands, and for nothing else. -/
structure Pattern.AsksFor (pattern : Pattern Features) (op : GenericOp) (test : TypeTest)
    (matchers : List Matcher) : Prop where
  op : pattern.op = op
  typeTest : pattern.typeTest = test
  root : pattern.root = none
  operands : pattern.operands = matchers
  complexity : pattern.complexity = Matcher.complexities matchers

theorem Pattern.AsksFor.covers {op : GenericOp} {test : TypeTest} {matchers : List Matcher}
    (asks : pattern.AsksFor op test matchers) (found : dag.node? id = some node)
    (generic : node.opcode = .generic op) (typed : test.holds dag node = .ok true)
    (length : node.operands.length = matchers.length)
    (operands : MatchesAll dag types matchers node.operands rest) :
    pattern.Covers dag types id node [] rest where
  found := found
  opcode := asks.op ▸ generic
  length := asks.operands ▸ length
  typed := asks.typeTest ▸ typed
  root := by simp [asks.root]
  operands := asks.operands ▸ operands

/-- A pattern that covers a node matches it. -/
theorem Pattern.Covers.exists_finds (covers : pattern.Covers dag types id node own rest)
    (answers : dag.Answers types (fun _ => False) known) (isKnown : known { node := id }) :
    ∃ captures, (pattern.matchNode dag types id).Finds captures := by
  obtain ⟨later, laterFinds⟩ := covers.operands.exists_finds answers
    (answers.operands _ node isKnown covers.found)
  have root := covers.root
  simp only [Pattern.matchNode, Attempt.finds_bind, Attempt.finds_ask, Attempt.finds_require,
    Bool.and_eq_true, beq_iff_eq]
  cases rootMatcher : pattern.root with
  | none =>
      refine ⟨later, node, Dag.fetch_eq_ok_iff.mpr covers.found, (),
        ⟨covers.opcode, covers.length⟩, true, covers.typed, (), rfl, ?_⟩
      simp only [Attempt.finds_bind, Attempt.finds_success, Attempt.finds_pure]
      exact ⟨[], rfl, later, laterFinds, rfl⟩
  | some matcher =>
      simp only [rootMatcher] at root
      obtain ⟨first, firstFinds⟩ := root.exists_finds answers isKnown
      refine ⟨first ++ later, node, Dag.fetch_eq_ok_iff.mpr covers.found, (),
        ⟨covers.opcode, covers.length⟩, true, covers.typed, (), rfl, ?_⟩
      simp only [Attempt.finds_bind, Attempt.finds_pure]
      exact ⟨first, firstFinds, later, laterFinds, rfl⟩

namespace Target

variable {target : Target Features}

/-- Of the patterns that the processor has and that match, one that asks for most is found. -/
theorem complexity_le_of_firstMatch {patterns : List (Pattern Features)}
    {captures otherCaptures : List Capture}
    (sorted : patterns.Pairwise fun first later => later.complexity ≤ first.complexity)
    (finds : (target.firstMatch dag id patterns).Finds (pattern, captures))
    (listed : other ∈ patterns) (guarded : other.guard.holds target.features = true)
    (matched : (other.matchNode dag target.addressTypes id).Finds otherCaptures) :
    other.complexity ≤ pattern.complexity := by
  obtain ⟨_, _, front, back, rfl, failed⟩ := firstMatch_finds finds
  obtain ⟨_, sorted, _⟩ := List.pairwise_append.mp sorted
  rcases List.mem_append.mp listed with earlier | later
  · exact absurd matched (failed other earlier guarded otherCaptures)
  · rcases List.mem_cons.mp later with rfl | after
    · exact Int.le_refl _
    · exact (List.pairwise_cons.mp sorted).1 other after

/-- If a pattern that the processor has matches, the search does not come to nothing. -/
theorem firstMatch_ne_none {patterns : List (Pattern Features)} {captures : List Capture}
    (listed : pattern ∈ patterns) (guarded : pattern.guard.holds target.features = true)
    (matched : (pattern.matchNode dag target.addressTypes id).Finds captures) :
    (target.firstMatch dag id patterns).result ≠ .ok none := by
  induction patterns with
  | nil => cases listed
  | cons head rest inductionHypothesis =>
      unfold firstMatch
      rcases List.mem_cons.mp listed with rfl | later
      · have own := (finds_with_pattern pattern pattern).mpr ⟨rfl, matched⟩
        rw [if_pos guarded, (Attempt.finds_orElse.mpr (Or.inl own) : _ = _)]
        simp
      · split
        · unfold Attempt.orElse
          split
          · exact inductionHypothesis later
          · assumption
        · exact inductionHypothesis later

/-- If a pattern of the table that the processor has covers a node, some pattern is found. -/
theorem cover_ne_none (answers : dag.Answers target.addressTypes (fun _ => False) known)
    (isKnown : known { node := id }) (listed : pattern ∈ target.table.patterns)
    (guarded : pattern.guard.holds target.features = true)
    (covers : pattern.Covers dag target.addressTypes id node own rest) :
    (target.cover dag id pattern.op).result ≠ .ok none := by
  obtain ⟨captures, matched⟩ := covers.exists_finds answers isKnown
  exact firstMatch_ne_none (PatternTable.mem_candidates_iff.mpr ⟨listed, rfl⟩) guarded matched

/-- The pattern that is found asks for no less than any other that covers the node. -/
theorem complexity_le_of_cover {captures : List Capture}
    (answers : dag.Answers target.addressTypes (fun _ => False) known)
    (isKnown : known { node := id })
    (finds : (target.cover dag id other.op).Finds (pattern, captures))
    (listed : other ∈ target.table.patterns)
    (guarded : other.guard.holds target.features = true)
    (covers : other.Covers dag target.addressTypes id node own rest) :
    other.complexity ≤ pattern.complexity := by
  obtain ⟨_, matched⟩ := covers.exists_finds answers isKnown
  exact complexity_le_of_firstMatch (PatternTable.candidates_pairwise _ _) finds
    (PatternTable.mem_candidates_iff.mpr ⟨listed, rfl⟩) guarded matched

end Target

end DagSelect
