/-
Module: DagSelect.Proofs.Z80.Faults
Purpose: Why selection of a graph that was read can break off. Matching is always answered, so the
  only cause left is a folded constant without a leaf. The byte operations fold a constant operand
  without looking at its type, and a later result of a constant can have any type: selection breaks
  off exactly at nodes that fold such a result.
Main exports: Matcher.takesConstant, Z80.foldsByte, Dag.Misfolds, Z80.Processor.misfolds_of_breaks,
  Z80.Processor.breaks_of_misfolds, faults_exactly_at_misfolds
-/
import DagSelect.Proofs.Advance
import DagSelect.Proofs.Z80.Meaning
import DagSelect.Proofs.Z80.Table

namespace DagSelect

/-! ### Where constants are folded -/

namespace Matcher

mutual

/-- Whether a matcher folds a constant whatever its type. -/
def takesConstant : Matcher → Bool
  | .imm => true
  | .node _ operands => takesConstants operands
  | _ => false

/-- Whether one of some matchers folds a constant whatever its type. -/
def takesConstants : List Matcher → Bool
  | [] => false
  | matcher :: rest => takesConstant matcher || takesConstants rest

end

end Matcher

section Constants

variable {dag : Dag} {types : AddressTypes} {type : ValueType} {capture : Capture}

/-- A constant that is an absolute address has the type of such addresses. -/
theorem AbsoluteFold.constantType {value : Value} {displacement : Displacement}
    (fold : AbsoluteFold dag types value displacement)
    (isConstant : (Capture.displacement displacement).constantType? = some type) :
    type = .simple types.immediate := by
  cases fold with
  | immediate =>
      cases isConstant
      rfl
  | global => cases isConstant
  | external => cases isConstant

/-- A constant part of a based address has one of the types that addresses are built with. -/
theorem BasedFold.constantType {value : Value} {address : BasedAddress}
    (fold : BasedFold dag types value address)
    (captured : capture ∈ [address.base.capture types, .displacement address.displacement])
    (isConstant : capture.constantType? = some type) :
    type = .simple types.immediate ∨ type = .simple types.frameOffset := by
  rcases List.mem_pair.mp captured with rfl | rfl
  · cases base : address.base with
    | register value =>
        rw [base] at isConstant
        cases isConstant
    | frame index =>
        rw [base] at isConstant
        cases isConstant
  · cases fold with
    | slot =>
        cases isConstant
        exact Or.inr rfl
    | right _ _ _ absolute _ => exact Or.inl (absolute.constantType isConstant)
    | left _ _ _ absolute _ => exact Or.inl (absolute.constantType isConstant)

mutual

/-- A constant with a type that is not one of addresses was folded whatever its type. -/
theorem Matches.constantType : ∀ {matcher : Matcher} {value : Value} {captures : List Capture},
    Matches dag types matcher value captures → capture ∈ captures →
    capture.constantType? = some type →
    matcher.takesConstant = true ∨ type = .simple types.immediate ∨
      type = .simple types.frameOffset
  | _, _, _, .chain _, captured, isConstant => by
      rw [List.mem_singleton.mp captured] at isConstant
      cases isConstant
  | _, _, _, .reg _ _, captured, isConstant => by
      rw [List.mem_singleton.mp captured] at isConstant
      cases isConstant
  | _, _, _, .imm _ _ _ _, _, _ => Or.inl rfl
  | _, _, _, .exactly _ _ _, captured, _ => by simp at captured
  | _, _, _, .mem absolute, captured, isConstant => by
      rw [List.mem_singleton.mp captured] at isConstant
      exact Or.inr (Or.inl (absolute.constantType isConstant))
  | _, _, _, .off based, captured, isConstant => Or.inr (based.constantType captured isConstant)
  | _, _, _, .node _ _ operands, captured, isConstant =>
      MatchesAll.constantType operands captured isConstant

/-- The same for operands one after another. -/
theorem MatchesAll.constantType : ∀ {matchers : List Matcher} {values : List Value}
    {captures : List Capture}, MatchesAll dag types matchers values captures →
    capture ∈ captures → capture.constantType? = some type →
    Matcher.takesConstants matchers = true ∨ type = .simple types.immediate ∨
      type = .simple types.frameOffset
  | _, _, _, .nil _, captured, _ => by simp at captured
  | _, _, _, .short _ _, captured, _ => by simp at captured
  | _, _, _, .cons head tail, captured, isConstant => by
      rw [Matcher.takesConstants, Bool.or_eq_true, or_assoc]
      rcases List.mem_append.mp captured with inHead | inTail
      · exact (Matches.constantType head inHead isConstant).imp_right Or.inr
      · exact Or.inr (MatchesAll.constantType tail inTail isConstant)

end

variable {Features : Type} {pattern : Pattern Features} {id : NodeId} {node : Node}
  {own rest : List Capture}

/-- Whether a pattern folds a constant whatever its type. -/
def Pattern.takesConstant (pattern : Pattern Features) : Bool :=
  pattern.root.any Matcher.takesConstant || Matcher.takesConstants pattern.operands

/-- The same for the captures of a pattern. -/
theorem Pattern.Covers.constantType (covers : pattern.Covers dag types id node own rest)
    (captured : capture ∈ own ++ rest) (isConstant : capture.constantType? = some type) :
    pattern.takesConstant = true ∨ type = .simple types.immediate ∨
      type = .simple types.frameOffset := by
  rw [Pattern.takesConstant, Bool.or_eq_true]
  rcases List.mem_append.mp captured with ownCaptured | restCaptured
  · obtain ⟨matcher, root, ownMatches⟩ := covers.exists_root ownCaptured
    rw [root]
    exact (ownMatches.constantType ownCaptured isConstant).imp_left Or.inl
  · exact (covers.operands.constantType restCaptured isConstant).imp_left Or.inr

end Constants

/-! ### The byte operations -/

namespace Z80

/-- Whether the instruction for an operation on bytes takes a constant as an immediate operand. The
other constants have instructions of their own, which imply them. -/
def foldsByte : GenericOp → Int → Bool
  | .add, number => number != 1 && number != -1
  | .sub, number => number != 1
  | .xor, number => number != -1
  | .and, _ | .or, _ => true
  | _, _ => false

/-- Whether there are instructions for an operation on bytes and a constant. -/
def isByteOp (op : GenericOp) : Bool :=
  foldsByte op 0

theorem isByteOp_of_foldsByte {op : GenericOp} {number : Int} (folds : foldsByte op number = true) :
    isByteOp op = true := by
  cases op with
  | add => rfl
  | sub => rfl
  | and => rfl
  | or => rfl
  | xor => rfl
  | _ => cases folds

/-- A rule for a constant of integer type. -/
def isConstantLeaf (pattern : Pattern Processor) : Bool :=
  match pattern.root, pattern.operands, pattern.typeTest with
  | some .imm, [], .result type => type.isScalarInteger
  | _, _, _ => false

/-- A rule for a byte operation with an immediate operand. It asks for little. -/
def isByteImmediate (pattern : Pattern Processor) : Bool :=
  match pattern.root, pattern.operands, pattern.typeTest with
  | none, [.reg, .imm], .result .i8 => isByteOp pattern.op && pattern.complexity == 4
  | _, _, _ => false

theorem takesConstant_cases : ∀ pattern ∈ patterns, pattern.takesConstant = true →
    isConstantLeaf pattern = true ∨ isByteImmediate pattern = true := by
  decide +kernel

/-- The rules for a byte operation on the accumulator are in the table. -/
theorem accumulator_listed {op : GenericOp} (byte : isByteOp op = true) :
    ∃ register immediate, accumulatorPatterns op register immediate ⊆ patterns := by
  cases op with
  | add => exact ⟨.ADD8ar, .ADD8ai, fun _ listed => by simp [patterns, bytePatterns, listed]⟩
  | sub => exact ⟨.SUB8ar, .SUB8ai, fun _ listed => by simp [patterns, bytePatterns, listed]⟩
  | and => exact ⟨.AND8ar, .AND8ai, fun _ listed => by simp [patterns, bytePatterns, listed]⟩
  | or => exact ⟨.OR8ar, .OR8ai, fun _ listed => by simp [patterns, bytePatterns, listed]⟩
  | xor => exact ⟨.XOR8ar, .XOR8ai, fun _ listed => by simp [patterns, bytePatterns, listed]⟩
  | _ => cases byte

theorem Processor.has_byteImmediate (processor : Processor) {op : GenericOp}
    (byte : isByteOp op = true) : processor.Has op (.result .i8) [.reg, .imm] := by
  obtain ⟨register, immediate, listed⟩ := accumulator_listed byte
  exact ⟨rule op immediate (.result .i8) .always [.reg, .imm],
    listed (by simp [accumulatorPatterns]), rfl, asksFor_rule⟩

/-- A constant that is not folded has a rule of its own in the table. -/
theorem Processor.has_byteExact (processor : Processor) {op : GenericOp} {number : Int}
    (byte : isByteOp op = true) (implied : foldsByte op number = false) :
    processor.Has op (.result .i8) [.reg, .exactly number] := by
  cases op with
  | add =>
      simp only [foldsByte, Bool.and_eq_false_iff, bne_eq_false_iff_eq] at implied
      rcases implied with rfl | rfl
      · exact ⟨{ rule .add .INC8r (.result .i8) .always [.reg, .exactly 1] with
          name := "INC8r_add" }, by simp [patterns, bytePatterns], rfl, asksFor_rule⟩
      · exact ⟨{ rule .add .DEC8r (.result .i8) .always [.reg, .exactly (-1)] with
          name := "DEC8r_add" }, by simp [patterns, bytePatterns], rfl, asksFor_rule⟩
  | sub =>
      simp only [foldsByte, bne_eq_false_iff_eq] at implied
      subst implied
      exact ⟨{ rule .sub .DEC8r (.result .i8) .always [.reg, .exactly 1] with
        name := "DEC8r_sub" }, by simp [patterns, bytePatterns], rfl, asksFor_rule⟩
  | xor =>
      simp only [foldsByte, bne_eq_false_iff_eq] at implied
      subst implied
      exact ⟨rule .xor .CPL (.result .i8) .always [.reg, .exactly (-1)],
        by simp [patterns, bytePatterns], rfl, asksFor_rule⟩
  | and => cases implied
  | or => cases implied
  | _ => cases byte

/-- A rule for a byte operation that asks for at least as much as the one with an immediate operand
folds the constant or implies it. -/
def foldsOrImplies (pattern : Pattern Processor) : Bool :=
  match pattern.operands with
  | [.reg, .imm] => true
  | [.reg, .exactly number] => !foldsByte pattern.op number
  | _ => false

theorem foldsOrImplies_of_complexity : ∀ pattern ∈ patterns, isByteOp pattern.op = true →
    pattern.guard.holds Processor.plain = true → 4 ≤ pattern.complexity →
    foldsOrImplies pattern = true := by
  decide +kernel

end Z80

/-! ### Constants that have no leaf -/

/-- A byte operation folds a result of a constant that is no integer. -/
inductive Dag.Misfolds (dag : Dag) (id : NodeId) (type : ValueType) : Prop where
  | intro {node constant : Node} {op : GenericOp} {left right : Value} {leftType : ValueType}
      {number : Int} (found : dag.node? id = some node) (generic : node.opcode = .generic op)
      (byte : node.results.head? = some (.simple .i8)) (operands : node.operands = [left, right])
      (leftTyped : dag.valueType left = .ok leftType) (data : leftType ≠ .chain)
      (constantFound : dag.node? right.node = some constant)
      (isConstant : constant.opcode = .generic .constant)
      (payload : constant.payload = .constant number) (folds : Z80.foldsByte op number = true)
      (typed : dag.valueType right = .ok type) (noInteger : type.isScalarInteger = false)

/-- The result that is folded is the second operand, so there is one type to find fault with. -/
theorem Dag.Misfolds.unique {dag : Dag} {id : NodeId} {type other : ValueType}
    (first : dag.Misfolds id type) (second : dag.Misfolds id other) : type = other := by
  obtain ⟨found, _, _, operands, _, _, _, _, _, _, typed, _⟩ := first
  obtain ⟨found', _, _, operands', _, _, _, _, _, _, typed', _⟩ := second
  cases found.symm.trans found'
  cases operands.symm.trans operands'
  cases typed.symm.trans typed'
  rfl

theorem Dag.Misfolds.exists_byteOp {dag : Dag} {id : NodeId} {type : ValueType}
    (misfolds : dag.Misfolds id type) :
    ∃ node op, dag.node? id = some node ∧ node.opcode = .generic op ∧ Z80.isByteOp op = true ∧
      type.isScalarInteger = false := by
  obtain ⟨found, generic, _, _, _, _, _, _, _, folds, _, noInteger⟩ := misfolds
  exact ⟨_, _, found, generic, Z80.isByteOp_of_foldsByte folds, noInteger⟩

theorem GenericOp.needsNoSelection_of_isByteOp {op : GenericOp} (byte : Z80.isByteOp op = true) :
    op.needsNoSelection = false := by
  cases op with
  | add => rfl
  | sub => rfl
  | and => rfl
  | or => rfl
  | xor => rfl
  | _ => cases byte

/-- A misfolding node on the way through selection is one of the input. -/
theorem Dag.Misfolds.of_advances {input dag : Dag} {id : NodeId} {type : ValueType}
    (misfolds : dag.Misfolds id type) (advances : input.Advances dag) (counted : input.Counted)
    (pointed : dag.Pointed id) : input.Misfolds id type ∧ input.Pointed id := by
  obtain @⟨node, constant, op, left, right, leftType, number, found, generic, byte, operands,
    leftTyped, data, constantFound, isConstant, payload, folds, typed, noInteger⟩ := misfolds
  obtain ⟨_, inputPointed, uses, inputFound⟩ := advances.exists_input found pointed generic
    (GenericOp.needsNoSelection_of_isByteOp (Z80.isByteOp_of_foldsByte folds))
  have constantPointed : dag.Pointed right.node := by
    refine Or.inl ⟨id, right, Dag.mem_operandsOf.mpr ⟨node, found, ?_⟩, rfl⟩
    simp [operands]
  obtain ⟨_, _, constantUses, inputConstant⟩ :=
    advances.exists_input constantFound constantPointed isConstant rfl
  have resolves : ∀ value ∈ [left, right], input.Resolves value := by
    intro value member
    exact counted.operands id value (Dag.mem_operandsOf.mpr ⟨_, inputFound, operands ▸ member⟩)
  rw [advances.valueType_eq (resolves left (by simp))] at leftTyped
  rw [advances.valueType_eq (resolves right (by simp))] at typed
  exact ⟨⟨inputFound, generic, byte, operands, leftTyped, data, inputConstant, isConstant, payload,
    folds, typed, noInteger⟩, inputPointed⟩

theorem eq_of_singleton_eq {id other : NodeId} {visited rest : List NodeId}
    (split : [id].reverse = visited ++ other :: rest) : visited = [] ∧ other = id := by
  cases visited with
  | nil => exact ⟨rfl, (List.cons.inj split).1.symm⟩
  | cons first more => simp at split

namespace Z80.Processor

variable {processor : Processor} {dag : Dag} {id : NodeId}

/-- Matching the patterns of the family never breaks off. -/
theorem answers (processor : Processor) (counted : dag.Counted) (full : dag.Full) :
    dag.Answers processor.target.addressTypes (fun _ => False) dag.Resolves :=
  counted.answers full processor.sizeInBits_pointerType

theorem isScalarInteger_pointerType (processor : Processor) :
    processor.pointerType.isScalarInteger = true := by
  unfold pointerType
  cases processor.mode <;> rfl

/-- A rule for a constant folds it with the type that it asks for. -/
theorem isScalarInteger_of_constantLeaf {pattern : Pattern Processor} {types : AddressTypes}
    {node : Node} {own rest : List Capture} {capture : Capture} {type : ValueType}
    (leaf : isConstantLeaf pattern = true) (covers : pattern.Covers dag types id node own rest)
    (captured : capture ∈ own ++ rest) (isConstant : capture.constantType? = some type) :
    type.isScalarInteger = true := by
  obtain ⟨found, _, _, typed, root, operands⟩ := covers
  unfold isConstantLeaf at leaf
  split at leaf
  · rename_i entry rootIs operandsAre testIs
    rw [rootIs] at root
    rw [operandsAre] at operands
    rw [testIs, TypeTest.holds_result_iff] at typed
    cases operands
    cases root with
    | imm _ _ _ rootTyped =>
        rw [List.append_nil, List.mem_singleton] at captured
        subst captured
        cases isConstant
        obtain ⟨_, rootFound, first⟩ := Dag.valueType_eq_ok_iff.mp rootTyped
        cases found.symm.trans rootFound
        rw [List.head?_eq_getElem?] at typed
        cases typed.symm.trans first
        exact leaf
  · cases leaf

/-- A folded constant of the family has an integer type, or it is the immediate operand of a byte
operation. -/
theorem byteImmediate_of_faults {pattern : Pattern Processor} {node : Node} {own rest : List Capture}
    {capture : Capture} {cause : Fault} (listed : pattern ∈ patterns)
    (covers : pattern.Covers dag processor.addressTypes id node own rest)
    (captured : capture ∈ own ++ rest) (faults : capture.Faults cause) :
    isByteImmediate pattern = true := by
  obtain ⟨type, isConstant, noInteger, _⟩ := faults
  rcases covers.constantType captured isConstant with takes | rfl | rfl
  · rcases takesConstant_cases pattern listed takes with leaf | byte
    · rw [isScalarInteger_of_constantLeaf leaf covers captured isConstant] at noInteger
      cases noInteger
    · exact byte
  · have integer := isScalarInteger_pointerType processor
    exact absurd (noInteger.symm.trans integer) Bool.false_ne_true
  · cases noInteger

/-- What a byte operation with an immediate operand is made of. -/
theorem exists_of_byteImmediate {pattern : Pattern Processor} {types : AddressTypes} {node : Node}
    {own rest : List Capture} (byte : isByteImmediate pattern = true)
    (covers : pattern.Covers dag types id node own rest) :
    isByteOp pattern.op = true ∧ pattern.complexity = 4 ∧
    node.results.head? = some (.simple .i8) ∧
    ∃ left right leftType constant number type,
      node.operands = [left, right] ∧ dag.valueType left = .ok leftType ∧ leftType ≠ .chain ∧
      dag.node? right.node = some constant ∧ constant.opcode = .generic .constant ∧
      constant.payload = .constant number ∧ dag.valueType right = .ok type ∧
      own ++ rest = [.value left, .constant number type] := by
  obtain ⟨found, _, length, typed, root, operands⟩ := covers
  unfold isByteImmediate at byte
  split at byte
  · rename_i rootIs operandsAre testIs
    rw [Bool.and_eq_true, beq_iff_eq] at byte
    rw [rootIs] at root
    rw [operandsAre] at operands length
    rw [testIs, TypeTest.holds_result_iff] at typed
    refine ⟨byte.1, byte.2, typed, ?_⟩
    obtain ⟨left, right, operandList⟩ := List.length_eq_two.mp length
    rw [operandList, matchesAll_pair_iff] at operands
    obtain ⟨_, _, leftMatches, rightMatches, rfl⟩ := operands
    cases leftMatches with
    | reg leftTyped data =>
        cases rightMatches with
        | imm constantFound isConstant payload rightTyped =>
            rw [root]
            exact ⟨left, right, _, _, _, _, operandList, leftTyped, data, constantFound, isConstant,
              payload, rightTyped, rfl⟩
  · cases byte

/-- If the turn of a node breaks off, the node folds a constant that is no integer. -/
theorem misfolds_of_breaks {cause : Fault} (counted : dag.Counted) (full : dag.Full)
    (inside : id < dag.size) (breaks : processor.target.Breaks id dag cause) :
    ∃ type, cause = .constantOfNonInteger type ∧ dag.Misfolds id type ∧ dag.Pointed id := by
  have answers := processor.answers counted full
  cases breaks with
  | missing failed =>
      obtain ⟨node, found⟩ := Dag.exists_node?_of_lt inside
      rw [Dag.fetch_eq_ok_iff.mpr found] at failed
      cases failed
  | matching found generic needs failed =>
      exact (Target.confined_firstMatch answers (full.resolves found) _ cause failed).elim
  | @emitting node op pattern own rest capture found unvisited generic used needs finds covers
      captured faults =>
      obtain ⟨listed, sameOp, _⟩ := Target.cover_finds finds
      have byte := byteImmediate_of_faults listed covers captured faults
      obtain ⟨isByte, little, result, left, right, leftType, constant, number, type, operands,
        leftTyped, data, constantFound, isConstant, payload, typed, captures⟩ :=
        exists_of_byteImmediate byte covers
      obtain ⟨_, constantType, noInteger, rfl⟩ := faults
      have same : capture = .constant number type := by
        rw [captures] at captured
        rcases List.mem_pair.mp captured with rfl | same
        · cases constantType
        · exact same
      subst same
      cases constantType
      refine ⟨type, rfl, ⟨found, generic, result, operands, leftTyped, data, constantFound,
        isConstant, payload, ?_, typed, noInteger⟩, used⟩
      -- Otherwise the rule that implies the constant covers the node and asks for more.
      by_contra implied
      obtain ⟨exact, exactListed, guarded, asks⟩ :=
        processor.has_byteExact (sameOp ▸ isByte) (eq_false_of_ne_true implied)
      have matched : MatchesAll dag processor.target.addressTypes [.reg, .exactly number]
          node.operands [.value left] := by
        rw [operands, matchesAll_pair_iff]
        exact ⟨_, _, .reg leftTyped data, .exactly constantFound isConstant payload, rfl⟩
      have exactCovers := asks.covers found generic (TypeTest.holds_result_iff.mpr result)
        (by rw [operands]; rfl) matched
      have least := Target.complexity_le_of_cover answers (full.resolves found) (asks.op ▸ finds)
        exactListed guarded exactCovers
      rw [asks.complexity, little] at least
      exact absurd least (by simp [Matcher.complexities, Matcher.complexity])

/-- The rule with an immediate operand covers a misfolding node. -/
theorem exists_covers_of_misfolds (processor : Processor) {node : Node} {op : GenericOp}
    {type : ValueType} (misfolds : dag.Misfolds id type) (found : dag.node? id = some node)
    (generic : node.opcode = .generic op) :
    ∃ pattern rest, pattern ∈ patterns ∧ pattern.guard.holds processor = true ∧
      pattern.AsksFor op (.result .i8) [.reg, .imm] ∧
      pattern.Covers dag processor.addressTypes id node [] rest := by
  obtain @⟨_, _, _, left, _, _, number, misfoldsFound, misfoldsGeneric, result, operands, leftTyped,
    data, constantFound, isConstant, payload, folds, typed, _⟩ := misfolds
  cases found.symm.trans misfoldsFound
  cases generic.symm.trans misfoldsGeneric
  obtain ⟨pattern, listed, guarded, asks⟩ :=
    processor.has_byteImmediate (isByteOp_of_foldsByte folds)
  have matched : MatchesAll dag processor.addressTypes [.reg, .imm] node.operands
      [.value left, .constant number type] := by
    rw [operands, matchesAll_pair_iff]
    exact ⟨_, _, .reg leftTyped data, .imm constantFound isConstant payload typed, rfl⟩
  exact ⟨pattern, _, listed, guarded, asks, asks.covers found generic
    (TypeTest.holds_result_iff.mpr result) (by rw [operands]; rfl) matched⟩

/-- On the plainest processor, a rule that is found for a misfolding node folds the constant. -/
theorem mem_captures_of_misfolds {pattern : Pattern Processor} {node : Node} {op : GenericOp}
    {own rest : List Capture} {type : ValueType} (counted : dag.Counted) (full : dag.Full)
    (misfolds : dag.Misfolds id type) (found : dag.node? id = some node)
    (generic : node.opcode = .generic op)
    (finds : (plain.target.cover dag id op).Finds (pattern, own ++ rest))
    (covers : pattern.Covers dag plain.addressTypes id node own rest) :
    ∃ number, Capture.constant number type ∈ own ++ rest := by
  obtain ⟨immediate, _, immediateListed, immediateGuarded, asks, immediateCovers⟩ :=
    plain.exists_covers_of_misfolds misfolds found generic
  obtain ⟨misfoldsFound, misfoldsGeneric, _, operands, _, _, constantFound, _, payload, folds, typed,
    _⟩ := misfolds
  cases found.symm.trans misfoldsFound
  cases generic.symm.trans misfoldsGeneric
  -- The rule that is found asks for as much as the one with an immediate operand.
  have least := Target.complexity_le_of_cover (plain.answers counted full) (full.resolves found)
    (asks.op ▸ finds) immediateListed immediateGuarded immediateCovers
  rw [asks.complexity] at least
  obtain ⟨listed, sameOp, guarded, _⟩ := Target.cover_finds finds
  have form := foldsOrImplies_of_complexity pattern listed (sameOp ▸ isByteOp_of_foldsByte folds)
    guarded least
  have matched := covers.operands
  unfold foldsOrImplies at form
  split at form
  · rename_i operandsAre
    rw [operandsAre, operands, matchesAll_pair_iff] at matched
    obtain ⟨_, _, _, rightMatches, rfl⟩ := matched
    cases rightMatches with
    | imm _ _ _ rightTyped =>
        cases typed.symm.trans rightTyped
        exact ⟨_, List.mem_append_right _ (List.mem_append_right _ List.mem_cons_self)⟩
  · rename_i operandsAre
    rw [operandsAre, operands, matchesAll_pair_iff] at matched
    obtain ⟨_, _, _, rightMatches, rfl⟩ := matched
    cases rightMatches with
    | exactly otherFound _ otherPayload =>
        cases constantFound.symm.trans otherFound
        cases payload.symm.trans otherPayload
        rw [sameOp, folds] at form
        cases form
  · cases form

/-- A misfolding node of an untouched graph has no turn on the plainest processor. -/
theorem not_visit_of_misfolds {before after : Run} {type : ValueType}
    (counted : before.dag.Counted) (full : before.dag.Full)
    (untouched : ∀ id node, before.dag.node? id = some node → node.state = .unvisited)
    (pointed : before.dag.Pointed id) (misfolds : before.dag.Misfolds id type) :
    ¬ plain.target.Visit id before after := by
  obtain ⟨node, op, found, generic, byte, noInteger⟩ := misfolds.exists_byteOp
  intro visit
  cases visit with
  | kept there visited => exact visited (untouched id _ there)
  | accepted there _ machine =>
      cases found.symm.trans there
      cases generic.symm.trans machine
  | discarded there _ _ unused => exact unused pointed
  | passed there _ passedGeneric _ needsNone =>
      cases found.symm.trans there
      cases generic.symm.trans passedGeneric
      rw [GenericOp.needsNoSelection_of_isByteOp byte] at needsNone
      cases needsNone
  | covered there _ coveredGeneric _ _ finds covers makes =>
      cases found.symm.trans there
      cases generic.symm.trans coveredGeneric
      obtain ⟨number, captured⟩ :=
        mem_captures_of_misfolds counted full misfolds found generic finds covers
      have integer := makes _ captured type rfl
      exact absurd (noInteger.symm.trans integer) Bool.false_ne_true

/-- Nor is it declined. -/
theorem not_refuses_of_misfolds {node : Node} {op : GenericOp} {type : ValueType}
    (counted : dag.Counted) (full : dag.Full) (misfolds : dag.Misfolds id type) :
    ¬ plain.target.Refuses id dag node op := by
  intro refuses
  obtain ⟨pattern, _, listed, guarded, asks, covers⟩ :=
    plain.exists_covers_of_misfolds misfolds refuses.found refuses.generic
  apply Target.cover_ne_none (plain.answers counted full) (full.resolves refuses.found) listed
    guarded covers
  rw [asks.op]
  exact refuses.uncovered

/-- Selection of a misfolding node alone breaks off on the plainest processor. -/
theorem faults_of_misfolds {type : ValueType} (counted : dag.Counted) (full : dag.Full)
    (untouched : ∀ id node, dag.node? id = some node → node.state = .unvisited)
    (pointed : dag.Pointed id) (misfolds : dag.Misfolds id type) (name : String) (session : Session)
    (log : List LogRecord) :
    ∃ after, (plain.target.selectFunction name [id]).run ⟨dag, session, log⟩ =
      .error (.fault (.constantOfNonInteger type)) after := by
  have noVisits : ∀ first last : Run, first.dag = dag → ¬ plain.target.Visits [id] first last := by
    rintro first last rfl visits
    cases visits with
    | cons visit _ _ => exact not_visit_of_misfolds counted full untouched pointed misfolds visit
  obtain ⟨node, _, found, _⟩ := misfolds.exists_byteOp
  have ends := plain.target.selectFunction_ends_exactly name [id] ⟨dag, session, log⟩ counted
  cases result : (plain.target.selectFunction name [id]).run ⟨dag, session, log⟩ with
  | ok _ after =>
      obtain ⟨first, last, sameDag, _, _, selects, _⟩ := ends.of_ok result
      exact absurd selects.visits (noVisits first last sameDag)
  | error failure after =>
      rcases ends.of_error result with
        ⟨first, last, error, sameDag, _, _, declines, _⟩ |
        ⟨first, cause, sameDag, rfl, visited, stop, rest, last, _, split, visits, _, breaks⟩
      · cases declines with
        | invalidOrder outside _ =>
            have missing := List.find?_some outside
            rw [List.mem_singleton.mp (List.mem_of_find?_eq_some outside), sameDag] at missing
            simp [Dag.contains, Dag.lt_size_of_node? found] at missing
        | refused _ split visits refuses =>
            obtain ⟨rfl, rfl⟩ := eq_of_singleton_eq split
            cases visits
            rw [sameDag] at refuses
            exact absurd refuses (not_refuses_of_misfolds counted full misfolds)
        | unvisited _ visits _ => exact absurd visits (noVisits first last sameDag)
      · obtain ⟨rfl, rfl⟩ := eq_of_singleton_eq split
        cases visits
        rw [sameDag] at breaks
        obtain ⟨other, rfl, otherMisfolds, _⟩ :=
          misfolds_of_breaks counted full (Dag.lt_size_of_node? found) breaks
        rw [misfolds.unique otherMisfolds]
        exact ⟨after, rfl⟩

end Z80.Processor

/-- A graph that was read has a result at every node. -/
theorem LabelledDag.Drafted.full {graph : LabelledDag} {machine : String → Option MachineOp}
    (drafted : graph.Drafted machine) : graph.dag.Full :=
  fun id node found => (drafted.nodes id node found).someResult

/-- Where selection of a graph that was read breaks off, the graph has a misfolding node. -/
theorem LabelledDag.Drafted.misfolds_of_breaksOff {graph : LabelledDag}
    {machine : String → Option MachineOp} (drafted : graph.Drafted machine)
    {processor : Z80.Processor} {order : List NodeId} {first : Run} {cause : Fault}
    (firstDag : first.dag = graph.dag)
    (breaksOff : processor.target.BreaksOff order first cause) :
    ∃ id ∈ order, ∃ type, graph.dag.Pointed id ∧ graph.dag.Misfolds id type ∧
      cause = .constantOfNonInteger type := by
  obtain ⟨visited, id, rest, last, inside, split, visits, counted, breaks⟩ := breaksOff
  have advances := visits.advances (firstDag ▸ drafted.counted) (firstDag ▸ drafted.unvisited)
    (firstDag ▸ drafted.full)
  rw [firstDag] at advances inside
  have listed : id ∈ order := by
    rw [← List.mem_reverse, split]
    simp
  obtain ⟨type, rfl, misfolds, pointed⟩ := Z80.Processor.misfolds_of_breaks counted advances.full
    (advances.lt_size (inside id listed)) breaks
  obtain ⟨inputMisfolds, inputPointed⟩ := misfolds.of_advances advances drafted.counted pointed
  exact ⟨id, listed, type, inputPointed, inputMisfolds, rfl⟩

/-- Selection of a graph that was read breaks off only where it folds a constant into a byte
operation with a type that is no integer, and it does break off there. If no node that something
points at does so, then selection succeeds or declines the graph, for every processor and every
order. -/
theorem faults_exactly_at_misfolds {text : String} {context context' : TypeContext}
    {graph : LabelledDag} (read : (readDag Z80.machineOp? text).run context = .ok graph context') :
    (∀ (processor : Z80.Processor) (name : String) (order : List NodeId) (session : Session)
      (log : List LogRecord) (cause : Fault) (after : Run),
      (processor.target.selectFunction name order).run ⟨graph.dag, session, log⟩ =
        .error (.fault cause) after →
      ∃ id ∈ order, ∃ type, graph.dag.Pointed id ∧ graph.dag.Misfolds id type ∧
        cause = .constantOfNonInteger type) ∧
    (∀ (id : NodeId) (type : ValueType), graph.dag.Pointed id → graph.dag.Misfolds id type →
      ∀ (name : String) (session : Session) (log : List LogRecord), ∃ after,
        (Z80.Processor.plain.target.selectFunction name [id]).run ⟨graph.dag, session, log⟩ =
          .error (.fault (.constantOfNonInteger type)) after) := by
  obtain ⟨drafted, _⟩ := readDag_drafted read
  constructor
  · intro processor name order session log cause after faults
    rcases (processor.target.selectFunction_ends_exactly name order _ drafted.counted).of_error
      faults with ⟨_, _, _, _, _, _, _, impossible, _⟩ | ⟨first, _, firstDag, same, breaksOff⟩
    · cases impossible
    · cases same
      exact drafted.misfolds_of_breaksOff firstDag breaksOff
  · intro id type pointed misfolds
    exact Z80.Processor.faults_of_misfolds drafted.counted drafted.full drafted.unvisited pointed
      misfolds

/-! ### A text -/

/-- A constant with a chain as its second result, and a sum of both results. -/
def misfoldText : String :=
  "t0: ch = EntryToken\nt1: i8,ch = Constant<5>\nt2: i8 = add t1, t1:1\n" ++
  "t3: ch = ret t0, t2\nroot t3\n"

/-- The graph of the text. -/
def misfoldGraph : LabelledDag where
  dag := {
    nodes := [
      ⟨.generic .entryToken, [.chain], [], .none, .unvisited, 1⟩,
      ⟨.generic .constant, [.simple .i8, .chain], [], .constant 5, .unvisited, 2⟩,
      ⟨.generic .add, [.simple .i8], [⟨1, 0⟩, ⟨1, 1⟩], .none, .unvisited, 1⟩,
      ⟨.generic .ret, [.chain], [⟨0, 0⟩, ⟨2, 0⟩], .none, .unvisited, 1⟩]
    root := some ⟨3, 0⟩ }
  order := [0, 1, 2, 3]
  labels := [("t0", 0), ("t1", 1), ("t2", 2), ("t3", 3)]

theorem ends_misfoldText :
    Ends (fun graph context => graph = misfoldGraph ∧ context = {}) (fun _ _ => False)
      ((readDag Z80.machineOp? misfoldText).run {}) := by
  decide +kernel

theorem readDag_misfoldText :
    (readDag Z80.machineOp? misfoldText).run {} = .ok misfoldGraph {} := by
  obtain ⟨graph, context, read, rfl, rfl⟩ := ends_misfoldText.exists_ok
  exact read

theorem pointed_misfoldGraph : misfoldGraph.dag.Pointed 2 := by
  rw [← Dag.useCount_pos_iff]
  decide

/-- The sum folds the chain of the constant. -/
theorem misfolds_misfoldGraph : misfoldGraph.dag.Misfolds 2 .chain :=
  @Dag.Misfolds.intro _ _ _ _ _ _ _ _ (.simple .i8) _ rfl rfl rfl rfl rfl (by decide) rfl rfl rfl rfl
    rfl rfl

/-- So selection of the sum alone breaks off. -/
theorem faults_misfoldGraph :
    misfoldGraph.dag.Pointed 2 ∧ misfoldGraph.dag.Misfolds 2 .chain ∧
    ∃ after, (Z80.Processor.plain.target.selectFunction "sum" [2]).run
      { dag := misfoldGraph.dag } = .error (.fault (.constantOfNonInteger .chain)) after := by
  obtain ⟨_, faults⟩ := faults_exactly_at_misfolds readDag_misfoldText
  exact ⟨pointed_misfoldGraph, misfolds_misfoldGraph,
    faults 2 .chain pointed_misfoldGraph misfolds_misfoldGraph "sum" {} []⟩

theorem ends_misfoldGraph :
    Ends (fun _ _ => False) (fun failure _ => failure = .fault (.constantOfNonInteger .chain))
      ((Z80.Processor.plain.target.selectFunction Target.anonymous misfoldGraph.order).run
        { dag := misfoldGraph.dag }) := by
  decide +kernel

/-- A text can be read whose graph is neither selected nor declined, in the order of its lines. -/
theorem fault_of_misfoldText :
    ∃ graph context after, (readDag Z80.machineOp? misfoldText).run {} = .ok graph context ∧
      (Z80.Processor.plain.target.selectFunction Target.anonymous graph.order).run
        { dag := graph.dag } = .error (.fault (.constantOfNonInteger .chain)) after := by
  obtain ⟨_, after, selects, rfl⟩ := ends_misfoldGraph.exists_error
  exact ⟨misfoldGraph, {}, after, readDag_misfoldText, selects⟩

end DagSelect
