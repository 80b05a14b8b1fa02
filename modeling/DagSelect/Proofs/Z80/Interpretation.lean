/-
Module: DagSelect.Proofs.Z80.Interpretation
Purpose: What a match says about data. In a graph whose values are given by an assignment, every
  value that a matcher accepts and every leaf that it asks for stand in the relation that the
  matcher denotes: constants are cut to their width, symbols and stack slots are addresses, and a
  folded sum is the sum of its parts. So a pattern that covers a node covers its data.
Main exports: Interprets, Capture.datum, AbsoluteFold.datum_eq, BasedFold.datum_eq, Matches.denotes,
  Pattern.Covers.covering
-/
import DagSelect.Proofs.Z80.Soundness

namespace DagSelect

open Z80

variable {Token : Type}

/-! ### The data of captures -/

/-- The datum of the leaf for the absolute part of an address. -/
def Displacement.datum (environment : Environment Token) : Displacement → Datum Token
  | .immediate value type =>
    Datum.ofType (.simple type) (.int (signExtend value (type.bits?.getD 0)))
  | .global symbol offset type =>
    Datum.ofType (.simple type) (.int (environment.symbol symbol + offset))
  | .external symbol type => Datum.ofType (.simple type) (.int (environment.external symbol))

/-- The datum of the operand that a capture becomes. -/
def Capture.datum (environment : Environment Token) (assignment : Value → Datum Token) :
    Capture → Datum Token
  | .value source => assignment source
  | .constant number type =>
    Datum.ofType type (.int (signExtend number (type.bits?.getD 0)))
  | .displacement part => part.datum environment
  | .frame index type => Datum.ofType (.simple type) (.int (environment.frame index))

/-- The leaf of a capture gives its datum. -/
theorem Capture.nodeMeaning_leaf (processor : Processor) {environment : Environment Token}
    {assignment : Value → Datum Token} {capture : Capture} {leaf : Node}
    (isLeaf : capture.leaf? = some leaf) :
    nodeMeaning processor environment leaf [] [] 0 = capture.datum environment assignment := by
  cases capture with
  | value source => cases isLeaf
  | constant number type =>
      cases isLeaf
      rfl
  | displacement part => cases part <;> cases isLeaf <;> rfl
  | frame index type =>
      cases isLeaf
      rfl

/-- The operands that captures become have the data of the captures, if the assignment gives the new
leaves what they stand for and nothing else to the values that were there. -/
theorem Capture.map_place (processor : Processor) {environment : Environment Token}
    {assignment extended : Value → Datum Token} {captures : List Capture} {next : Nat}
    (old : ∀ source, Capture.value source ∈ captures → extended source = assignment source)
    (new : ∀ offset leaf, (leaves captures)[offset]? = some leaf →
      extended { node := next + offset } = nodeMeaning processor environment leaf [] [] 0) :
    (place next captures).map extended = captures.map (datum environment assignment) := by
  induction captures generalizing next with
  | nil => rfl
  | cons capture rest inductionHypothesis =>
      have restOld : ∀ source, Capture.value source ∈ rest →
          extended source = assignment source :=
        fun source member => old source (List.mem_cons_of_mem _ member)
      cases isLeaf : capture.leaf? with
      | none =>
          obtain ⟨source, rfl⟩ : ∃ source, capture = .value source := by
            cases capture <;> simp_all [leaf?]
          have headValue := old source List.mem_cons_self
          have tailValues := inductionHypothesis restOld new
          simp only [place, List.map_cons, headValue, tailValues, datum]
      | some leaf =>
          have leavesAre : leaves (capture :: rest) = leaf :: leaves rest := by
            simp [leaves, isLeaf]
          have headValue : extended { node := next } = capture.datum environment assignment := by
            rw [← nodeMeaning_leaf processor isLeaf]
            exact new 0 leaf (by rw [leavesAre]; rfl)
          have tailValues := @inductionHypothesis (next + 1) restOld (by
            intro offset other there
            rw [Nat.add_assoc, Nat.add_comm 1]
            exact new (offset + 1) other (by rw [leavesAre]; exact there))
          rw [place_cons, place_of_leaf next isLeaf, List.map_append, List.map_cons]
          have one : (leaves [capture]).length = 1 := by simp [leaves, isLeaf]
          rw [one, tailValues, headValue]
          rfl

/-! ### Values of a graph -/

/-- A value of a node that is not dead. -/
def Dag.Live (dag : Dag) (value : Value) : Prop :=
  ∃ node, dag.node? value.node = some node ∧ node.state ≠ .dead ∧ value.result < node.results.length

theorem Dag.Live.typeOf_of_single {dag : Dag} {value : Value} {node : Node} {type : ValueType}
    (live : dag.Live value) (found : dag.node? value.node = some node)
    (single : node.results = [type]) : dag.typeOf value = type := by
  obtain ⟨same, sameFound, _, bound⟩ := live
  cases found.symm.trans sameFound
  rw [single] at bound
  rw [Dag.typeOf_of_found found, single, Nat.lt_one_iff.mp bound]
  rfl

theorem Dag.Live.head?_results {dag : Dag} {value : Value} {node : Node} (live : dag.Live value)
    (found : dag.node? value.node = some node) (first : value.result = 0) :
    node.results.head? = some (dag.typeOf value) := by
  obtain ⟨same, sameFound, _, bound⟩ := live
  cases found.symm.trans sameFound
  rw [Dag.typeOf_of_found found, first]
  cases results : node.results with
  | nil => simp [results] at bound
  | cons type rest => rfl

/-- A well-typed graph on the way through selection, with an assignment that agrees with it. -/
structure Interprets (processor : Processor) (environment : Environment Token) (dag : Dag)
    (assignment : Value → Datum Token) : Prop where
  counted : dag.Counted
  settled : dag.Settled
  typed : dag.Typed (.simple processor.pointerType)
  solves : Solves processor environment dag assignment

namespace Interprets

variable {processor : Processor} {environment : Environment Token} {dag : Dag}
  {assignment : Value → Datum Token} {value : Value} {node : Node} {op : GenericOp}

/-- What something points at is live. -/
theorem live_of_pointed (interprets : Interprets processor environment dag assignment)
    (resolves : dag.Resolves value) (pointed : dag.Pointed value.node) : dag.Live value := by
  obtain ⟨node, found, alive⟩ := interprets.settled.exists_of_pointed resolves pointed
  obtain ⟨same, sameFound, bound⟩ := resolves
  cases found.symm.trans sameFound
  exact ⟨node, found, alive, bound⟩

/-- Operands are live. -/
theorem live_of_mem (interprets : Interprets processor environment dag assignment) {id : NodeId}
    (found : dag.node? id = some node) {operand : Value} (member : operand ∈ node.operands) :
    dag.Live operand := by
  have listed : operand ∈ dag.operandsOf id := Dag.mem_operandsOf.mpr ⟨node, found, member⟩
  exact interprets.live_of_pointed (interprets.counted.operands _ _ listed)
    (Or.inl ⟨id, operand, listed, rfl⟩)

theorem nodeTyped (interprets : Interprets processor environment dag assignment)
    (live : dag.Live value) (found : dag.node? value.node = some node)
    (generic : node.opcode = .generic op) :
    dag.NodeTyped (.simple processor.pointerType) op node.shape := by
  obtain ⟨same, sameFound, alive, _⟩ := live
  cases found.symm.trans sameFound
  exact interprets.typed value.node node.shape op (Dag.shape_found found) alive generic

/-- A live value of a generic node is what its opcode says. -/
theorem eq_meaning (interprets : Interprets processor environment dag assignment)
    (live : dag.Live value) (found : dag.node? value.node = some node)
    (generic : node.opcode = .generic op) :
    assignment value = (op.meaning environment node.payload node.results
      (node.operands.map dag.typeOf) (node.operands.map assignment) value.result).ofType
        (dag.typeOf value) := by
  obtain ⟨same, sameFound, alive, bound⟩ := live
  cases found.symm.trans sameFound
  have agrees := interprets.solves value.node node.shape (Dag.shape_found found) alive
    value.result bound
  simp only [nodeMeaning, Node.shape_opcode, generic] at agrees
  rw [Dag.typeOf_of_found found]
  exact agrees

/-- A live value of a leaf that can be folded is its payload, as a value of its type. -/
theorem eq_payload (interprets : Interprets processor environment dag assignment)
    (live : dag.Live value) (found : dag.node? value.node = some node)
    (generic : node.opcode = .generic op) (leaf : op.targetLeaf?.isSome = true) :
    assignment value = (node.payload.datum environment).ofType (dag.typeOf value) ∧
    node.results = [dag.typeOf value] ∧
    (op = .constant ∨ dag.typeOf value = .simple processor.pointerType) := by
  obtain ⟨type, results, _, pointer⟩ :=
    GenericOp.eq_of_accepts_leaf leaf (interprets.nodeTyped live found generic).accepted
  have single : node.results = [type] := results
  have isType := live.typeOf_of_single found single
  rw [interprets.eq_meaning live found generic, GenericOp.meaning_of_targetLeaf leaf, isType]
  exact ⟨rfl, single, pointer⟩

/-- A live constant is its number modulo the power of two of its width. -/
theorem eq_constant (interprets : Interprets processor environment dag assignment)
    (live : dag.Live value) (found : dag.node? value.node = some node)
    (generic : node.opcode = .generic .constant) {number : Int}
    (payload : node.payload = .constant number) :
    ∃ bits, (dag.typeOf value).width? = some bits ∧ 1 ≤ bits ∧
      assignment value = .int (number % 2 ^ bits) := by
  obtain ⟨isPayload, results, _⟩ := interprets.eq_payload live found generic rfl
  obtain ⟨type, rest, bits, holds, sized, positive⟩ :=
    (interprets.nodeTyped live found generic).constant rfl
  have isType : dag.typeOf value = type := (List.cons.inj (results.symm.trans holds)).1
  rw [isType] at isPayload ⊢
  refine ⟨bits, sized, positive, ?_⟩
  rw [isPayload, payload, Datum.ofType_of_width sized]
  rfl

/-- A live sum of pointer type adds two pointers. -/
theorem eq_sum (interprets : Interprets processor environment dag assignment)
    (live : dag.Live value) (found : dag.node? value.node = some node)
    (generic : node.opcode = .generic .add) {left right : Value}
    (operands : node.operands = [left, right])
    (pointer : dag.typeOf value = .simple processor.pointerType) :
    dag.typeOf left = .simple processor.pointerType ∧
    dag.typeOf right = .simple processor.pointerType ∧
    assignment value = addressSum processor.pointerBits (assignment left) (assignment right) := by
  obtain ⟨type, results, operandTypes⟩ :=
    GenericOp.eq_of_accepts_binary rfl (interprets.nodeTyped live found generic).accepted
  have single : node.results = [type] := results
  cases (live.typeOf_of_single found single).symm.trans pointer
  simp only [Node.shape_operands, operands, List.map_cons, List.map_nil, List.cons.injEq,
    and_true] at operandTypes
  refine ⟨operandTypes.1, operandTypes.2, ?_⟩
  have width := processor.width?_pointerType
  rw [interprets.eq_meaning live found generic, pointer, single, operands, List.map_cons,
    List.map_singleton, List.map_cons, List.map_singleton, GenericOp.meaning_of_width rfl width,
    Datum.ofType_of_width width, Datum.number_int, GenericOp.compute_emod]
  rfl

end Interprets

/-! ### Folded addresses -/

theorem ValueType.bits?_of_width? {type : ValueType} {bits : Nat}
    (sized : type.width? = some bits) :
    type.bits? = some bits := by
  unfold width? at sized
  split at sized
  · exact sized
  · cases sized

/-- A constant leaf has the datum of the constant. -/
theorem ofType_signExtend {type : ValueType} {bits : Nat} (sized : type.width? = some bits)
    (number : Int) :
    (Datum.int (signExtend number (type.bits?.getD 0)) : Datum Token).ofType type =
      .int (number % 2 ^ bits) := by
  rw [Datum.ofType_of_width sized, ValueType.bits?_of_width? sized]
  simp only [Datum.number, Option.getD_some, signExtend_emod]

section Folds

variable {processor : Processor} {environment : Environment Token} {dag : Dag}
  {assignment : Value → Datum Token} {value : Value}

/-- A pointer that is folded as an absolute address has the datum of the leaf. -/
theorem AbsoluteFold.datum_eq {displacement : Displacement}
    (interprets : Interprets processor environment dag assignment) (live : dag.Live value)
    (pointer : dag.typeOf value = .simple processor.pointerType)
    (folded : AbsoluteFold dag processor.addressTypes value displacement) :
    displacement.datum environment = assignment value := by
  cases folded with
  | @immediate node number type bits found opcode payload typed scalar sized =>
      obtain ⟨width, isWidth, _, isNumber⟩ := interprets.eq_constant live found opcode payload
      cases isWidth.symm.trans (pointer ▸ processor.width?_pointerType)
      cases sized.symm.trans processor.sizeInBits_pointerType
      rw [isNumber, ← signExtend_emod]
      exact ofType_signExtend processor.width?_pointerType _
  | global found opcode payload =>
      obtain ⟨isPayload, _, _⟩ := interprets.eq_payload live found opcode rfl
      rw [isPayload, pointer, payload]
      rfl
  | external found opcode payload =>
      obtain ⟨isPayload, _, _⟩ := interprets.eq_payload live found opcode rfl
      rw [isPayload, pointer, payload]
      rfl

/-- The base of a folded address has the datum of the operand. -/
theorem BaseFold.datum_eq {base : AddressBase}
    (interprets : Interprets processor environment dag assignment) (live : dag.Live value)
    (folded : BaseFold dag value base) :
    (base.capture processor.addressTypes).datum environment assignment = assignment value := by
  cases folded with
  | frame found opcode payload =>
      obtain ⟨isPayload, _, pointer⟩ := interprets.eq_payload live found opcode rfl
      rw [isPayload, pointer.resolve_left (by decide), payload]
      rfl
  | register => rfl

/-- A stack slot is the sum of its base and the offset zero. -/
theorem addressSum_zero {bits : Nat} (x : Int) :
    addressSum bits (Datum.int (x % 2 ^ bits) : Datum Token) (.int 0) = .int (x % 2 ^ bits) := by
  simp only [addressSum, Datum.number, GenericOp.compute_add_zero, Int.emod_emod]

/-- A pointer that is folded as a based address is the sum of the base and the displacement. -/
theorem BasedFold.datum_eq {address : BasedAddress}
    (interprets : Interprets processor environment dag assignment) (live : dag.Live value)
    (pointer : dag.typeOf value = .simple processor.pointerType)
    (folded : BasedFold dag processor.addressTypes value address) :
    assignment value = addressSum processor.pointerBits
      ((address.base.capture processor.addressTypes).datum environment assignment)
      (address.displacement.datum environment) := by
  cases folded with
  | @slot node index found opcode payload =>
      obtain ⟨isPayload, _, _⟩ := interprets.eq_payload live found opcode rfl
      have isNumber : assignment value =
          .int (environment.frame index % 2 ^ processor.pointerBits) := by
        rw [isPayload, pointer, payload, Datum.ofType_of_width processor.width?_pointerType]
        rfl
      have base := (BaseFold.frame found opcode payload).datum_eq interprets live
      have offset : Displacement.datum environment (.immediate 0 .i8) = .int 0 := rfl
      rw [BasedAddress.base, base, isNumber]
      change _ = addressSum _ _ (Displacement.datum environment (.immediate 0 .i8))
      rw [offset, addressSum_zero]
  | @right left right node base displacement found opcode operands absolute based =>
      obtain ⟨_, rightPointer, isSum⟩ := interprets.eq_sum live found opcode operands pointer
      have leftLive : dag.Live left := interprets.live_of_mem found (by simp [operands])
      have rightLive : dag.Live right := interprets.live_of_mem found (by simp [operands])
      rw [isSum, BasedAddress.base, based.datum_eq interprets leftLive, BasedAddress.displacement,
        absolute.datum_eq interprets rightLive rightPointer]
  | @left left right node base displacement found opcode operands absolute based =>
      obtain ⟨leftPointer, _, isSum⟩ := interprets.eq_sum live found opcode operands pointer
      have leftLive : dag.Live left := interprets.live_of_mem found (by simp [operands])
      have rightLive : dag.Live right := interprets.live_of_mem found (by simp [operands])
      rw [isSum, BasedAddress.base, based.datum_eq interprets rightLive, BasedAddress.displacement,
        absolute.datum_eq interprets leftLive leftPointer]
      simp only [addressSum, GenericOp.compute_add_comm]

end Folds

/-! ### Matches -/

section Matches

variable {processor : Processor} {environment : Environment Token} {dag : Dag}
  {assignment : Value → Datum Token}

mutual

/-- A match stands for what its matcher denotes. -/
theorem Matches.denotes {matcher : Matcher} {value : Value} {captures : List Capture}
    (interprets : Interprets processor environment dag assignment) :
    Matches dag processor.addressTypes matcher value captures → dag.Live value →
      Denotes processor environment matcher (dag.typeOf value) (assignment value)
        (captures.map (Capture.datum environment assignment))
  | .chain _, _ => rfl
  | .reg _ _, _ => rfl
  | .imm found opcode payload typed, live => by
      obtain ⟨bits, sized, _, isNumber⟩ := interprets.eq_constant live found opcode payload
      rw [Dag.typeOf_of_valueType typed] at sized
      simp only [Denotes, List.map_cons, List.map_nil, Capture.datum, isNumber,
        ofType_signExtend sized]
  | .exactly found opcode payload, live =>
      ⟨rfl, interprets.eq_constant live found opcode payload⟩
  | .mem absolute, live => fun pointer => by
      rw [← absolute.datum_eq interprets live pointer]
      rfl
  | .off based, live => fun pointer =>
      ⟨_, _, rfl, based.datum_eq interprets live pointer⟩
  | @Matches.node _ _ _ node op matchers _ found absorbed operands, live => by
      simp only [Matcher.absorbs, Bool.and_eq_true, beq_iff_eq] at absorbed
      obtain ⟨⟨⟨⟨first, generic⟩, _⟩, _⟩, length⟩ := absorbed
      have operandsLive : ∀ operand ∈ node.operands, dag.Live operand :=
        fun operand member => interprets.live_of_mem found member
      have isMeaning := interprets.eq_meaning live found generic
      have accepted := (interprets.nodeTyped live found generic).accepted
      rw [first] at isMeaning
      exact ⟨node.payload, node.results, _, _, live.head?_results found first, accepted,
        operands.denotes interprets length operandsLive, isMeaning⟩

/-- Matches one after another stand for what their matchers denote. -/
theorem MatchesAll.denotes {matchers : List Matcher} {values : List Value}
    {captures : List Capture} (interprets : Interprets processor environment dag assignment) :
    MatchesAll dag processor.addressTypes matchers values captures →
      values.length = matchers.length → (∀ value ∈ values, dag.Live value) →
      DenotesAll processor environment matchers (values.map dag.typeOf) (values.map assignment)
        (captures.map (Capture.datum environment assignment))
  | .nil values, length, _ => by
      cases List.length_eq_zero_iff.mp length
      exact denotesAll_nil.mpr ⟨rfl, rfl, rfl⟩
  | .short _ _, length, _ => by simp at length
  | .cons head tail, length, live => by
      rw [List.map_append]
      refine denotesAll_cons.mpr ⟨_, _, _, _, _, _, rfl, rfl, rfl, ?_, ?_⟩
      · exact head.denotes interprets (live _ List.mem_cons_self)
      · exact tail.denotes interprets (Nat.succ.inj length)
          fun value member => live value (List.mem_cons_of_mem _ member)

end

/-- A type test of a node is one of its types. -/
theorem TypeTest.fits_of_holds {test : TypeTest} {node : Node}
    (holds : test.holds dag node = .ok true) :
    test.Fits node.results (node.operands.map dag.typeOf) := by
  cases test with
  | any => trivial
  | result type =>
      simp only [TypeTest.holds] at holds
      split at holds
      · rename_i results
        simp only [Except.ok.injEq, beq_iff_eq] at holds
        rw [results, holds]
        rfl
      · cases holds
  | operand index type =>
      simp only [TypeTest.holds] at holds
      split at holds
      · rename_i value there
        obtain ⟨found, typed, holds⟩ := except_bind_eq_ok.mp holds
        simp only [pure, Except.pure, Except.ok.injEq, beq_iff_eq] at holds
        simp only [TypeTest.Fits, List.getElem?_map, there, Option.map_some,
          Dag.typeOf_of_valueType typed, holds]
      · cases holds

/-- A pattern that covers a node covers its data. -/
theorem Pattern.Covers.covering {pattern : Pattern Processor} {id : NodeId} {node : Node}
    {own rest : List Capture} (interprets : Interprets processor environment dag assignment)
    (covers : pattern.Covers dag processor.addressTypes id node own rest)
    (guard : pattern.guard.holds processor = true) (live : dag.Live { node := id }) :
    Covering processor environment pattern node.payload node.results
      (node.operands.map dag.typeOf) (node.operands.map assignment)
      (own.map (Capture.datum environment assignment))
      (rest.map (Capture.datum environment assignment)) where
  guard := guard
  accepted := (interprets.nodeTyped live covers.found covers.opcode).accepted
  fits := TypeTest.fits_of_holds covers.typed
  root := by
    have root := covers.root
    cases rootMatcher : pattern.root with
    | none =>
        simp only [rootMatcher] at root
        rw [root]
        rfl
    | some matcher =>
        simp only [rootMatcher] at root
        have known := root.denotes interprets live
        rw [interprets.eq_meaning live covers.found covers.opcode] at known
        have isHead : node.results.headD .chain = dag.typeOf { node := id } := by
          rw [List.headD_eq_head?_getD, live.head?_results covers.found rfl]
          rfl
        simp only [isHead]
        exact known
  operands := covers.operands.denotes interprets covers.length
    fun _ member => interprets.live_of_mem covers.found member

end Matches

end DagSelect
