/-
Module: DagSelect.Proofs.Matching
Purpose: What a match means. Folding an address and matching an operand are described as relations,
  with one rule for each way to succeed, and the functions of the library find only what the
  relations allow. From the rules alone it follows that a match hands on values that the graph
  already uses: each captured value is the matched operand or lies beneath it. A match captures as
  many operands as the matchers say, whatever they match.
Main exports: AbsoluteFold, BaseFold, BasedFold, Matches, MatchesAll, Dag.Beneath, HandedOn,
  Pattern.Covers, Pattern.covers_of_finds, Pattern.Covers.length_captures, Pattern.Covers.handedOn,
  Pattern.Covers.beneath, Dag.Answers, Pattern.confined_matchNode
-/
import DagSelect.Pattern.Match
import DagSelect.Proofs.Computation
import DagSelect.Proofs.Graph
import Mathlib.Logic.Relation

namespace DagSelect

variable {dag : Dag} {types : AddressTypes} {value : Value}

/-! ### Addresses -/

/-- The ways in which a value is an absolute address. -/
inductive AbsoluteFold (dag : Dag) (types : AddressTypes) : Value → Displacement → Prop where
  | immediate {value : Value} {node : Node} {number : Int} {type : ValueType} {bits : Nat}
      (found : dag.node? value.node = some node) (opcode : node.opcode = .generic .constant)
      (payload : node.payload = .constant number) (typed : dag.valueType value = .ok type)
      (scalar : type.isScalarInteger = true) (sized : types.immediate.sizeInBits = .ok bits) :
      AbsoluteFold dag types value (.immediate (signExtend number bits) types.immediate)
  | global {value : Value} {node : Node} {symbol : String} {offset : Int}
      (found : dag.node? value.node = some node) (opcode : node.opcode = .generic .globalAddress)
      (payload : node.payload = .global symbol offset) :
      AbsoluteFold dag types value (.global symbol offset types.pointer)
  | external {value : Value} {node : Node} {symbol : String}
      (found : dag.node? value.node = some node) (opcode : node.opcode = .generic .externalSymbol)
      (payload : node.payload = .external symbol) :
      AbsoluteFold dag types value (.external symbol types.pointer)

theorem absoluteFold_of_eq {displacement : Displacement}
    (folded : foldAbsolute dag types value = .ok (some displacement)) :
    AbsoluteFold dag types value displacement := by
  obtain ⟨node, fetched, folded⟩ := except_bind_eq_ok.mp folded
  have found := Dag.fetch_eq_ok_iff.mp fetched
  split at folded
  · rename_i number opcode payload
    obtain ⟨type, typed, folded⟩ := except_bind_eq_ok.mp folded
    split at folded
    · rename_i scalar
      obtain ⟨bits, sized, folded⟩ := except_bind_eq_ok.mp folded
      cases folded
      exact .immediate found opcode payload typed scalar sized
    · cases folded
  · rename_i symbol offset opcode payload
    cases folded
    exact .global found opcode payload
  · rename_i symbol opcode payload
    cases folded
    exact .external found opcode payload
  · cases folded

/-- The ways in which a value is the base of an address. -/
inductive BaseFold (dag : Dag) : Value → AddressBase → Prop where
  | frame {value : Value} {node : Node} {index : Int}
      (found : dag.node? value.node = some node) (opcode : node.opcode = .generic .frameIndex)
      (payload : node.payload = .frameIndex index) : BaseFold dag value (.frame index)
  | register (value : Value) : BaseFold dag value (.register value)

theorem frameSlot_eq_some {index : Int} (slot : frameSlot dag value = .ok (some index)) :
    ∃ node, dag.node? value.node = some node ∧ node.opcode = .generic .frameIndex ∧
      node.payload = .frameIndex index := by
  obtain ⟨node, fetched, slot⟩ := except_bind_eq_ok.mp slot
  refine ⟨node, Dag.fetch_eq_ok_iff.mp fetched, ?_⟩
  split at slot
  · rename_i opcode payload
    cases slot
    exact ⟨opcode, payload⟩
  · cases slot

theorem baseFold_of_eq {base : AddressBase} (folded : baseOf dag value = .ok base) :
    BaseFold dag value base := by
  obtain ⟨slot, slotEq, folded⟩ := except_bind_eq_ok.mp folded
  cases slot with
  | none =>
      cases folded
      exact .register value
  | some index =>
      cases folded
      obtain ⟨node, found, opcode, payload⟩ := frameSlot_eq_some slotEq
      exact .frame found opcode payload

/-- The ways in which a value is a based address. -/
inductive BasedFold (dag : Dag) (types : AddressTypes) : Value → BasedAddress → Prop where
  | slot {value : Value} {node : Node} {index : Int}
      (found : dag.node? value.node = some node) (opcode : node.opcode = .generic .frameIndex)
      (payload : node.payload = .frameIndex index) :
      BasedFold dag types value (.slot index types.frameOffset)
  | right {value left right : Value} {node : Node} {base : AddressBase}
      {displacement : Displacement} (found : dag.node? value.node = some node)
      (opcode : node.opcode = .generic .add) (operands : node.operands = [left, right])
      (absolute : AbsoluteFold dag types right displacement)
      (based : BaseFold dag left base) : BasedFold dag types value (.sum base right displacement)
  | left {value left right : Value} {node : Node} {base : AddressBase}
      {displacement : Displacement} (found : dag.node? value.node = some node)
      (opcode : node.opcode = .generic .add) (operands : node.operands = [left, right])
      (absolute : AbsoluteFold dag types left displacement)
      (based : BaseFold dag right base) : BasedFold dag types value (.sum base left displacement)

theorem basedFold_of_eq {address : BasedAddress}
    (folded : foldBased dag types value = .ok (some address)) :
    BasedFold dag types value address := by
  obtain ⟨slot, slotEq, folded⟩ := except_bind_eq_ok.mp folded
  cases slot with
  | some index =>
      cases folded
      obtain ⟨node, found, opcode, payload⟩ := frameSlot_eq_some slotEq
      exact .slot found opcode payload
  | none =>
      obtain ⟨node, fetched, folded⟩ := except_bind_eq_ok.mp folded
      have found := Dag.fetch_eq_ok_iff.mp fetched
      split at folded
      · rename_i left right opcode operands
        obtain ⟨rightFold, rightEq, folded⟩ := except_bind_eq_ok.mp folded
        cases rightFold with
        | some displacement =>
            obtain ⟨base, based, folded⟩ := except_bind_eq_ok.mp folded
            cases folded
            exact .right found opcode operands (absoluteFold_of_eq rightEq) (baseFold_of_eq based)
        | none =>
            obtain ⟨leftFold, leftEq, folded⟩ := except_bind_eq_ok.mp folded
            cases leftFold with
            | some displacement =>
                obtain ⟨base, based, folded⟩ := except_bind_eq_ok.mp folded
                cases folded
                exact .left found opcode operands (absoluteFold_of_eq leftEq) (baseFold_of_eq based)
            | none => cases folded
      · cases folded

namespace Attempt

theorem absolute_finds {displacement : Displacement} :
    (absolute dag types value).Finds displacement ↔
      foldAbsolute dag types value = .ok (some displacement) := by
  unfold absolute Finds
  dsimp only
  split <;> simp_all

theorem based_finds {address : BasedAddress} :
    (based dag types value).Finds address ↔ foldBased dag types value = .ok (some address) := by
  unfold based Finds
  dsimp only
  split <;> simp_all

end Attempt

/-! ### Operands -/

mutual

/-- The ways in which an operand has the form that a matcher asks for, with what is captured. -/
inductive Matches (dag : Dag) (types : AddressTypes) : Matcher → Value → List Capture → Prop where
  | chain {value : Value} (typed : dag.valueType value = .ok .chain) :
      Matches dag types .chain value [.value value]
  | reg {value : Value} {type : ValueType} (typed : dag.valueType value = .ok type)
      (data : type ≠ .chain) : Matches dag types .reg value [.value value]
  | imm {value : Value} {node : Node} {number : Int} {type : ValueType}
      (found : dag.node? value.node = some node) (opcode : node.opcode = .generic .constant)
      (payload : node.payload = .constant number) (typed : dag.valueType value = .ok type) :
      Matches dag types .imm value [.constant number type]
  | exactly {value : Value} {node : Node} {number : Int}
      (found : dag.node? value.node = some node) (opcode : node.opcode = .generic .constant)
      (payload : node.payload = .constant number) : Matches dag types (.exactly number) value []
  | mem {value : Value} {displacement : Displacement}
      (absolute : AbsoluteFold dag types value displacement) :
      Matches dag types .mem value [.displacement displacement]
  | off {value : Value} {address : BasedAddress} (based : BasedFold dag types value address) :
      Matches dag types .off value
        [address.base.capture types, .displacement address.displacement]
  | node {value : Value} {node : Node} {op : GenericOp} {matchers : List Matcher}
      {captures : List Capture} (found : dag.node? value.node = some node)
      (absorbed : Matcher.absorbs op matchers.length value node = true)
      (operands : MatchesAll dag types matchers node.operands captures) :
      Matches dag types (.node op matchers) value captures

/-- The same for operands one after another, as far as both lists go. -/
inductive MatchesAll (dag : Dag) (types : AddressTypes) :
    List Matcher → List Value → List Capture → Prop where
  | nil (values : List Value) : MatchesAll dag types [] values []
  | short (matcher : Matcher) (matchers : List Matcher) :
      MatchesAll dag types (matcher :: matchers) [] []
  | cons {matcher : Matcher} {matchers : List Matcher} {value : Value} {values : List Value}
      {first rest : List Capture} (head : Matches dag types matcher value first)
      (tail : MatchesAll dag types matchers values rest) :
      MatchesAll dag types (matcher :: matchers) (value :: values) (first ++ rest)

end

/-- Two operands are matched one by one. -/
theorem matchesAll_pair_iff {first second : Matcher} {left right : Value} {captures : List Capture} :
    MatchesAll dag types [first, second] [left, right] captures ↔
      ∃ leftCaptures rightCaptures, Matches dag types first left leftCaptures ∧
        Matches dag types second right rightCaptures ∧
        captures = leftCaptures ++ rightCaptures := by
  constructor
  · intro matched
    cases matched with
    | cons head tail =>
        cases tail with
        | cons next last =>
            cases last
            exact ⟨_, _, head, next, by rw [List.append_nil]⟩
  · rintro ⟨leftCaptures, rightCaptures, head, next, rfl⟩
    have last := MatchesAll.cons next (.nil [])
    rw [List.append_nil] at last
    exact .cons head last

mutual

/-- What a matcher finds, it finds by one of the rules. -/
theorem matches_of_finds : ∀ {matcher : Matcher} {value : Value} {captures : List Capture},
    (matcher.attempt dag types value).Finds captures → Matches dag types matcher value captures
  | .chain, value, captures, finds => by
      simp only [Matcher.attempt, Attempt.finds_bind, Attempt.finds_ask, Attempt.finds_require,
        Attempt.finds_pure, beq_iff_eq] at finds
      obtain ⟨type, typed, _, rfl, rfl⟩ := finds
      exact .chain typed
  | .reg, value, captures, finds => by
      simp only [Matcher.attempt, Attempt.finds_bind, Attempt.finds_ask, Attempt.finds_require,
        Attempt.finds_pure, bne_iff_ne] at finds
      obtain ⟨type, typed, _, data, rfl⟩ := finds
      exact .reg typed data
  | .imm, value, captures, finds => by
      simp only [Matcher.attempt, Attempt.finds_bind, Attempt.finds_ask] at finds
      obtain ⟨node, fetched, finds⟩ := finds
      have found := Dag.fetch_eq_ok_iff.mp fetched
      split at finds
      · rename_i number opcode payload
        simp only [Attempt.finds_bind, Attempt.finds_ask, Attempt.finds_pure] at finds
        obtain ⟨type, typed, rfl⟩ := finds
        exact .imm found opcode payload typed
      · exact absurd finds Attempt.not_finds_failure
  | .exactly number, value, captures, finds => by
      simp only [Matcher.attempt, Attempt.finds_bind, Attempt.finds_ask, Attempt.finds_require,
        Attempt.finds_pure, Bool.and_eq_true, beq_iff_eq] at finds
      obtain ⟨node, fetched, _, ⟨opcode, payload⟩, rfl⟩ := finds
      exact .exactly (Dag.fetch_eq_ok_iff.mp fetched) opcode payload
  | .mem, value, captures, finds => by
      simp only [Matcher.attempt, Attempt.finds_bind, Attempt.finds_pure] at finds
      obtain ⟨displacement, folded, rfl⟩ := finds
      exact .mem (absoluteFold_of_eq (Attempt.absolute_finds.mp folded))
  | .off, value, captures, finds => by
      simp only [Matcher.attempt, Attempt.finds_bind, Attempt.finds_pure] at finds
      obtain ⟨address, folded, rfl⟩ := finds
      exact .off (basedFold_of_eq (Attempt.based_finds.mp folded))
  | .node op matchers, value, captures, finds => by
      simp only [Matcher.attempt, Attempt.finds_bind, Attempt.finds_ask,
        Attempt.finds_require] at finds
      obtain ⟨node, fetched, _, absorbed, finds⟩ := finds
      exact .node (Dag.fetch_eq_ok_iff.mp fetched) absorbed (matchesAll_of_finds finds)

/-- What a list of matchers finds, it finds by the rules. -/
theorem matchesAll_of_finds : ∀ {matchers : List Matcher} {values : List Value}
    {captures : List Capture}, (Matcher.attemptAll dag types matchers values).Finds captures →
    MatchesAll dag types matchers values captures
  | [], values, captures, finds => by
      simp only [Matcher.attemptAll, Attempt.finds_success] at finds
      subst finds
      exact .nil values
  | matcher :: matchers, [], captures, finds => by
      simp only [Matcher.attemptAll, Attempt.finds_success] at finds
      subst finds
      exact .short matcher matchers
  | matcher :: matchers, value :: values, captures, finds => by
      simp only [Matcher.attemptAll, Attempt.finds_bind, Attempt.finds_pure] at finds
      obtain ⟨first, head, rest, tail, rfl⟩ := finds
      exact .cons (matches_of_finds head) (matchesAll_of_finds tail)

end

/-! ### Where captured values come from -/

/-- The value is an operand of a node or of something that the node depends on. -/
def Dag.Beneath (dag : Dag) (id : NodeId) (source : Value) : Prop :=
  ∃ user, Relation.ReflTransGen dag.Depends id user ∧ source ∈ dag.operandsOf user

namespace Dag.Beneath

variable {id : NodeId} {source : Value}

theorem of_mem (member : source ∈ dag.operandsOf id) : dag.Beneath id source :=
  ⟨id, .refl, member⟩

theorem head {operand : NodeId} (edge : dag.Depends id operand)
    (beneath : dag.Beneath operand source) :
    dag.Beneath id source := by
  obtain ⟨user, reached, member⟩ := beneath
  exact ⟨user, Relation.ReflTransGen.head edge reached, member⟩

theorem transGen (beneath : dag.Beneath id source) :
    Relation.TransGen dag.Depends id source.node := by
  obtain ⟨user, reached, member⟩ := beneath
  exact Relation.TransGen.tail' reached ⟨source, member, rfl⟩

end Dag.Beneath

/-- A value that a match hands on: the operand itself, or something beneath it. -/
inductive HandedOn (dag : Dag) (value : Value) : Value → Prop where
  | self {type : ValueType} (typed : dag.valueType value = .ok type) : HandedOn dag value value
  | operand {source : Value} (beneath : dag.Beneath value.node source) : HandedOn dag value source

/-- What an operand of a node hands on is beneath the node. -/
theorem HandedOn.beneath {id : NodeId} {operand source : Value}
    (member : operand ∈ dag.operandsOf id) (handed : HandedOn dag operand source) :
    dag.Beneath id source := by
  cases handed with
  | self typed => exact .of_mem member
  | operand beneath => exact .head ⟨operand, member, rfl⟩ beneath

/-- The base of a folded address is an operand of the address. -/
theorem BasedFold.mem_operandsOf {address : BasedAddress} {source : Value}
    (based : BasedFold dag types value address)
    (register : address.base.capture types = .value source) :
    source ∈ dag.operandsOf value.node := by
  cases based with
  | slot found opcode payload => simp [BasedAddress.base, AddressBase.capture] at register
  | right found opcode operands absolute base =>
      cases base with
      | frame => simp [BasedAddress.base, AddressBase.capture] at register
      | register =>
          simp only [BasedAddress.base, AddressBase.capture, Capture.value.injEq] at register
          subst register
          exact Dag.mem_operandsOf.mpr ⟨_, found, by simp [operands]⟩
  | left found opcode operands absolute base =>
      cases base with
      | frame => simp [BasedAddress.base, AddressBase.capture] at register
      | register =>
          simp only [BasedAddress.base, AddressBase.capture, Capture.value.injEq] at register
          subst register
          exact Dag.mem_operandsOf.mpr ⟨_, found, by simp [operands]⟩

mutual

/-- Every captured value is handed on by the operand. -/
theorem Matches.handedOn {matcher : Matcher} {value : Value} {captures : List Capture} :
    Matches dag types matcher value captures →
      ∀ {source : Value}, Capture.value source ∈ captures → HandedOn dag value source
  | .chain typed, source, captured => by
      simp only [List.mem_singleton, Capture.value.injEq] at captured
      subst captured
      exact .self typed
  | .reg typed data, source, captured => by
      simp only [List.mem_singleton, Capture.value.injEq] at captured
      subst captured
      exact .self typed
  | .imm _ _ _ _, source, captured => by simp at captured
  | .exactly _ _ _, source, captured => by simp at captured
  | .mem _, source, captured => by simp at captured
  | .off based, source, captured => by
      simp only [List.mem_cons, reduceCtorEq, List.not_mem_nil, or_false] at captured
      exact .operand (.of_mem (based.mem_operandsOf captured.symm))
  | .node found absorbed operands, source, captured => by
      obtain ⟨operand, member, handed⟩ := operands.handedOn captured
      exact .operand (handed.beneath (Dag.mem_operandsOf.mpr ⟨_, found, member⟩))

/-- Every captured value is handed on by one of the operands. -/
theorem MatchesAll.handedOn {matchers : List Matcher} {values : List Value}
    {captures : List Capture} : MatchesAll dag types matchers values captures →
      ∀ {source : Value}, Capture.value source ∈ captures →
        ∃ value ∈ values, HandedOn dag value source
  | .nil _, source, captured => by simp at captured
  | .short _ _, source, captured => by simp at captured
  | .cons head tail, source, captured => by
      rcases List.mem_append.mp captured with inHead | inTail
      · exact ⟨_, by simp, head.handedOn inHead⟩
      · obtain ⟨value, member, handed⟩ := tail.handedOn inTail
        exact ⟨value, by simp [member], handed⟩

end

mutual

/-- A match gives as many operands as the matcher accounts for. -/
theorem Matches.length_captures {matcher : Matcher} {value : Value} {captures : List Capture} :
    Matches dag types matcher value captures → captures.length = matcher.arity
  | .chain _ | .reg _ _ | .imm _ _ _ _ | .mem _ => by simp [Matcher.arity]
  | .exactly _ _ _ | .off _ => by simp [Matcher.arity]
  | .node _ absorbed operands => by
      simp only [Matcher.absorbs, Bool.and_eq_true, beq_iff_eq] at absorbed
      rw [Matcher.arity]
      exact operands.length_captures absorbed.2

/-- A match of all operands gives as many operands as the matchers account for. -/
theorem MatchesAll.length_captures {matchers : List Matcher} {values : List Value}
    {captures : List Capture} : MatchesAll dag types matchers values captures →
      values.length = matchers.length → captures.length = Matcher.arities matchers
  | .nil _, _ => by simp [Matcher.arities]
  | .short _ _, length => by simp at length
  | .cons head tail, length => by
      rw [List.length_append, Matcher.arities, head.length_captures,
        tail.length_captures (Nat.succ.inj length)]

end

/-- Whether a matcher hands on the operand itself. -/
def Matcher.passesOn : Matcher → Bool
  | .chain | .reg => true
  | _ => false

/-- A matcher that folds its operand hands on only what is beneath it. -/
theorem Matches.beneath {matcher : Matcher} {captures : List Capture} {source : Value}
    (found : Matches dag types matcher value captures) (folds : matcher.passesOn = false)
    (captured : Capture.value source ∈ captures) : dag.Beneath value.node source := by
  cases found with
  | chain typed => simp [Matcher.passesOn] at folds
  | reg typed data => simp [Matcher.passesOn] at folds
  | imm => simp at captured
  | exactly => simp at captured
  | mem => simp at captured
  | off based =>
      simp only [List.mem_cons, reduceCtorEq, List.not_mem_nil, or_false] at captured
      exact .of_mem (based.mem_operandsOf captured.symm)
  | node nodeFound absorbed operands =>
      obtain ⟨operand, member, handed⟩ := operands.handedOn captured
      exact handed.beneath (Dag.mem_operandsOf.mpr ⟨_, nodeFound, member⟩)

/-! ### Patterns -/

variable {Features : Type}

/-- A pattern covers a node: the opcode, the number of operands and the type are those of the
pattern, and the captures are those of the node itself and then of its operands. -/
structure Pattern.Covers (pattern : Pattern Features) (dag : Dag) (types : AddressTypes)
    (id : NodeId) (node : Node) (own rest : List Capture) : Prop where
  found : dag.node? id = some node
  opcode : node.opcode = .generic pattern.op
  length : node.operands.length = pattern.operands.length
  typed : pattern.typeTest.holds dag node = .ok true
  root : match pattern.root with
    | some matcher => Matches dag types matcher { node := id } own
    | none => own = []
  operands : MatchesAll dag types pattern.operands node.operands rest

/-- What a pattern finds, it finds because it covers the node. -/
theorem Pattern.covers_of_finds {pattern : Pattern Features} {id : NodeId} {captures : List Capture}
    (finds : (pattern.matchNode dag types id).Finds captures) :
    ∃ node own rest, pattern.Covers dag types id node own rest ∧ captures = own ++ rest := by
  simp only [Pattern.matchNode, Attempt.finds_bind, Attempt.finds_ask, Attempt.finds_require,
    Bool.and_eq_true, beq_iff_eq] at finds
  obtain ⟨node, fetched, _, ⟨opcode, length⟩, holds, typed, _, rfl, finds⟩ := finds
  have found := Dag.fetch_eq_ok_iff.mp fetched
  cases root : pattern.root with
  | none =>
      simp only [root, Attempt.finds_bind, Attempt.finds_success, Attempt.finds_pure] at finds
      obtain ⟨own, rfl, rest, restFinds, rfl⟩ := finds
      exact ⟨node, [], rest, ⟨found, opcode, length, typed, by simp [root],
        matchesAll_of_finds restFinds⟩, rfl⟩
  | some matcher =>
      simp only [root, Attempt.finds_bind, Attempt.finds_pure] at finds
      obtain ⟨own, ownFinds, rest, restFinds, rfl⟩ := finds
      have ownMatches := matches_of_finds ownFinds
      exact ⟨node, own, rest, ⟨found, opcode, length, typed, by simpa [root] using ownMatches,
        matchesAll_of_finds restFinds⟩, rfl⟩

namespace Pattern.Covers

variable {pattern : Pattern Features} {id : NodeId} {node : Node} {own rest : List Capture}
  {source : Value}

/-- A value captured from the operands is beneath the node. -/
theorem beneath_of_rest (covers : pattern.Covers dag types id node own rest)
    (captured : Capture.value source ∈ rest) : dag.Beneath id source := by
  obtain ⟨operand, member, handed⟩ := covers.operands.handedOn captured
  exact handed.beneath (Dag.mem_operandsOf.mpr ⟨node, covers.found, member⟩)

/-- The instruction has as many operands as the pattern accounts for, whatever it covers. -/
theorem length_captures (covers : pattern.Covers dag types id node own rest) :
    (own ++ rest).length = pattern.arity := by
  have ownLength : own.length = (pattern.root.map Matcher.arity).getD 0 := by
    have root := covers.root
    cases rootMatcher : pattern.root with
    | none =>
        simp only [rootMatcher] at root
        rw [root]
        rfl
    | some matcher =>
        simp only [rootMatcher] at root
        exact root.length_captures
  rw [List.length_append, Pattern.arity, ownLength, covers.operands.length_captures covers.length]

/-- What the node itself gives comes from the matcher of the root. -/
theorem exists_root (covers : pattern.Covers dag types id node own rest) {capture : Capture}
    (captured : capture ∈ own) :
    ∃ matcher, pattern.root = some matcher ∧ Matches dag types matcher { node := id } own := by
  have root := covers.root
  cases rootMatcher : pattern.root with
  | none =>
      simp only [rootMatcher] at root
      simp [root] at captured
  | some matcher =>
      simp only [rootMatcher] at root
      exact ⟨matcher, rfl, root⟩

/-- A captured value is the node itself or beneath it. -/
theorem handedOn (covers : pattern.Covers dag types id node own rest)
    (captured : Capture.value source ∈ own ++ rest) : HandedOn dag { node := id } source := by
  rcases List.mem_append.mp captured with ownCaptured | restCaptured
  · obtain ⟨matcher, _, ownMatches⟩ := covers.exists_root ownCaptured
    exact ownMatches.handedOn ownCaptured
  · exact .operand (covers.beneath_of_rest restCaptured)

end Pattern.Covers

/-- A pattern that does not hand on the node itself. -/
def Pattern.Folds (pattern : Pattern Features) : Prop :=
  ∀ matcher, pattern.root = some matcher → matcher.passesOn = false

/-- A value captured by such a pattern is beneath the node. -/
theorem Pattern.Covers.beneath {pattern : Pattern Features} {id : NodeId} {node : Node}
    {own rest : List Capture} {source : Value} (folds : pattern.Folds)
    (covers : pattern.Covers dag types id node own rest)
    (captured : Capture.value source ∈ own ++ rest) : dag.Beneath id source := by
  rcases List.mem_append.mp captured with ownCaptured | restCaptured
  · obtain ⟨matcher, root, ownMatches⟩ := covers.exists_root ownCaptured
    exact ownMatches.beneath (folds matcher root) ownCaptured
  · exact covers.beneath_of_rest restCaptured

/-! ### Faults of matching

Matching asks the graph about nodes and types. If every answer that is missing is missing for a cause
of some kind, then matching breaks off only for such a cause. -/

/-- Questions about the known values of a graph break off only for causes of a kind, and the operands
of what is known are known. -/
structure Dag.Answers (dag : Dag) (types : AddressTypes) (allowed : Fault → Prop)
    (known : Value → Prop) : Prop where
  fetch : ∀ value, known value → Confined allowed (dag.fetch value.node)
  valueType : ∀ value, known value → Confined allowed (dag.valueType value)
  operands : ∀ value node, known value → dag.node? value.node = some node →
    ∀ operand ∈ node.operands, known operand
  results : ∀ id node, dag.node? id = some node → node.results = [] →
    allowed (.outOfBounds 0 0)
  immediate : Confined allowed types.immediate.sizeInBits

section Answers

variable {allowed : Fault → Prop} {known : Value → Prop}

theorem confined_foldAbsolute (answers : dag.Answers types allowed known) (isKnown : known value) :
    Confined allowed (foldAbsolute dag types value) := by
  refine (answers.fetch value isKnown).bind ?_
  intro node _
  split
  · refine (answers.valueType value isKnown).bind ?_
    intro type _
    split
    · exact answers.immediate.bind fun _ _ => confined_ok _
    · exact confined_ok _
  · exact confined_ok _
  · exact confined_ok _
  · exact confined_ok _

theorem confined_frameSlot (answers : dag.Answers types allowed known) (isKnown : known value) :
    Confined allowed (frameSlot dag value) := by
  refine (answers.fetch value isKnown).bind ?_
  intro node _
  split <;> exact confined_ok _

theorem confined_baseOf (answers : dag.Answers types allowed known) (isKnown : known value) :
    Confined allowed (baseOf dag value) := by
  refine (confined_frameSlot answers isKnown).bind ?_
  intro slot _
  cases slot <;> exact confined_ok _

theorem confined_foldSum {left right : Value} (answers : dag.Answers types allowed known)
    (leftKnown : known left) (rightKnown : known right) :
    Confined allowed (foldSum dag types left right) := by
  refine (confined_foldAbsolute answers rightKnown).bind ?_
  intro rightFold _
  cases rightFold with
  | some displacement => exact (confined_baseOf answers leftKnown).bind fun _ _ => confined_ok _
  | none =>
      refine (confined_foldAbsolute answers leftKnown).bind ?_
      intro leftFold _
      cases leftFold with
      | some displacement => exact (confined_baseOf answers rightKnown).bind fun _ _ => confined_ok _
      | none => exact confined_ok _

theorem confined_foldBased (answers : dag.Answers types allowed known) (isKnown : known value) :
    Confined allowed (foldBased dag types value) := by
  refine (confined_frameSlot answers isKnown).bind ?_
  intro slot _
  cases slot with
  | some index => exact confined_ok _
  | none =>
      refine (answers.fetch value isKnown).bind ?_
      intro node fetched
      have operands := answers.operands value node isKnown (Dag.fetch_eq_ok_iff.mp fetched)
      split
      · rename_i left right opcode twoOperands
        rw [twoOperands] at operands
        exact confined_foldSum answers (operands left (by simp)) (operands right (by simp))
      · exact confined_ok _

theorem Attempt.confined_absolute (answers : dag.Answers types allowed known)
    (isKnown : known value) : Confined allowed (absolute dag types value).result := by
  have folded := confined_foldAbsolute answers isKnown
  unfold absolute
  dsimp only
  split <;> exact folded

theorem Attempt.confined_based (answers : dag.Answers types allowed known)
    (isKnown : known value) : Confined allowed (based dag types value).result := by
  have folded := confined_foldBased answers isKnown
  unfold based
  dsimp only
  split <;> exact folded

mutual

theorem Matcher.confined_attempt (answers : dag.Answers types allowed known) :
    ∀ (matcher : Matcher) (value : Value), known value →
      Confined allowed (matcher.attempt dag types value).result
  | .chain, value, isKnown => by
      refine Attempt.confined_bind (Attempt.confined_ask (answers.valueType value isKnown)) ?_
      intro type _
      exact Attempt.confined_bind (Attempt.confined_require _) fun _ _ => Attempt.confined_pure _
  | .reg, value, isKnown => by
      refine Attempt.confined_bind (Attempt.confined_ask (answers.valueType value isKnown)) ?_
      intro type _
      exact Attempt.confined_bind (Attempt.confined_require _) fun _ _ => Attempt.confined_pure _
  | .imm, value, isKnown => by
      refine Attempt.confined_bind (Attempt.confined_ask (answers.fetch value isKnown)) ?_
      intro node _
      split
      · exact Attempt.confined_bind (Attempt.confined_ask (answers.valueType value isKnown))
          fun _ _ => Attempt.confined_pure _
      · exact confined_ok none
  | .exactly number, value, isKnown => by
      refine Attempt.confined_bind (Attempt.confined_ask (answers.fetch value isKnown)) ?_
      intro node _
      exact Attempt.confined_bind (Attempt.confined_require _) fun _ _ => Attempt.confined_pure _
  | .mem, value, isKnown =>
      Attempt.confined_bind (Attempt.confined_absolute answers isKnown) fun _ _ =>
        Attempt.confined_pure _
  | .off, value, isKnown =>
      Attempt.confined_bind (Attempt.confined_based answers isKnown) fun _ _ =>
        Attempt.confined_pure _
  | .node op matchers, value, isKnown => by
      refine Attempt.confined_bind (Attempt.confined_ask (answers.fetch value isKnown)) ?_
      intro node fetched
      have found := Dag.fetch_eq_ok_iff.mp (Attempt.finds_ask.mp fetched)
      exact Attempt.confined_bind (Attempt.confined_require _) fun _ _ =>
        Matcher.confined_attemptAll answers matchers node.operands
          (answers.operands value node isKnown found)

theorem Matcher.confined_attemptAll (answers : dag.Answers types allowed known) :
    ∀ (matchers : List Matcher) (values : List Value), (∀ value ∈ values, known value) →
      Confined allowed (Matcher.attemptAll dag types matchers values).result
  | [], _, _ => confined_ok (some [])
  | _ :: _, [], _ => confined_ok (some [])
  | matcher :: matchers, value :: values, allKnown => by
      refine Attempt.confined_bind (Matcher.confined_attempt answers matcher value ?_) fun _ _ => ?_
      · exact allKnown value List.mem_cons_self
      · refine Attempt.confined_bind (Matcher.confined_attemptAll answers matchers values ?_)
          fun _ _ => Attempt.confined_pure _
        exact fun other member => allKnown other (List.mem_cons_of_mem _ member)

end

theorem TypeTest.confined_holds {node : Node} (answers : dag.Answers types allowed known)
    (test : TypeTest) (found : dag.node? value.node = some node) (isKnown : known value) :
    Confined allowed (test.holds dag node) := by
  cases test with
  | any => exact confined_ok true
  | result type =>
      intro cause failed
      simp only [TypeTest.holds] at failed
      split at failed
      · cases failed
      · rename_i noResults
        cases failed
        exact answers.results value.node node found noResults
  | operand index type =>
      unfold TypeTest.holds
      dsimp only
      split
      · rename_i operand listed
        have operandKnown := answers.operands value node isKnown found operand
          (List.mem_of_getElem? listed)
        exact (answers.valueType operand operandKnown).bind fun _ _ => confined_ok _
      · exact confined_ok false

theorem Pattern.confined_matchNode {id : NodeId} (pattern : Pattern Features)
    (answers : dag.Answers types allowed known) (isKnown : known { node := id }) :
    Confined allowed (pattern.matchNode dag types id).result := by
  refine Attempt.confined_bind (Attempt.confined_ask (answers.fetch _ isKnown)) ?_
  intro node fetched
  have found := Dag.fetch_eq_ok_iff.mp (Attempt.finds_ask.mp fetched)
  have continues : ∀ own : List Capture, Confined allowed (do
      let rest ← Matcher.attemptAll dag types pattern.operands node.operands
      return own ++ rest : Attempt (List Capture)).result := by
    intro own
    refine Attempt.confined_bind ?_ fun _ _ => Attempt.confined_pure _
    exact Matcher.confined_attemptAll answers _ _ (answers.operands _ node isKnown found)
  refine Attempt.confined_bind (Attempt.confined_require _) fun _ _ => ?_
  refine Attempt.confined_bind (Attempt.confined_ask
    (TypeTest.confined_holds answers _ found isKnown)) fun _ _ => ?_
  refine Attempt.confined_bind (Attempt.confined_require _) fun _ _ => ?_
  split
  · exact Attempt.confined_bind (Matcher.confined_attempt answers _ _ isKnown) fun own _ =>
      continues own
  · exact Attempt.confined_bind (confined_ok (some [])) fun own _ => continues own

end Answers

theorem orderly_fetch (dag : Dag) (id : NodeId) : Confined Fault.Orderly (dag.fetch id) := by
  intro cause failed
  unfold Dag.fetch at failed
  split at failed
  · cases failed
  · cases failed
    simp [Fault.Orderly]

/-- Matching reads the graph and releases nothing, so it cannot run into a use that was never
counted. -/
theorem Dag.answers_orderly (dag : Dag) (types : AddressTypes) :
    dag.Answers types Fault.Orderly fun _ => True where
  fetch value _ := orderly_fetch dag value.node
  valueType value _ := by
    refine (orderly_fetch dag value.node).bind ?_
    intro node _ cause failed
    split at failed
    · cases failed
    · cases failed
      simp [Fault.Orderly]
  operands _ _ _ _ _ _ := trivial
  results _ _ _ _ := by simp [Fault.Orderly]
  immediate := by
    intro cause failed
    unfold SimpleType.sizeInBits at failed
    split at failed
    · cases failed
    · cases failed
      simp [Fault.Orderly]

end DagSelect
