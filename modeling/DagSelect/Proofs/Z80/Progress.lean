/-
Module: DagSelect.Proofs.Z80.Progress
Purpose: The graphs that every processor of the family selects. Support is a matter of one node at a
  time: of its opcode, its result types, and what its operands are. A node that is supported has a
  rule in the table that asks for no more than that, so it is covered whenever its turn comes, and a
  graph of supported nodes is selected in the order of its lines.
Main exports: Z80.Demand, Z80.Processor.forms, Z80.Processor.supports,
  Z80.Processor.reaches_of_form, LabelledDag.Drafted.exists_ok_of_supports,
  selects_of_supports
-/
import DagSelect.Proofs.Completeness
import DagSelect.Proofs.Liveness
import DagSelect.Proofs.Payload
import DagSelect.Proofs.Z80.Faults

namespace DagSelect

/-- Whether a value is there and its type passes a test. -/
def Dag.hasType (dag : Dag) (test : ValueType → Bool) (value : Value) : Bool :=
  match dag.valueType value with
  | .ok type => test type
  | .error _ => false

theorem Dag.hasType_iff {dag : Dag} {test : ValueType → Bool} {value : Value} :
    dag.hasType test value = true ↔ ∃ type, dag.valueType value = .ok type ∧ test type = true := by
  unfold hasType
  cases typed : dag.valueType value with
  | ok type => simp
  | error cause => simp

theorem Dag.valueType_first {dag : Dag} {id : NodeId} {node : Node} {type : ValueType}
    (found : dag.node? id = some node) (first : node.results.head? = some type) :
    dag.valueType { node := id } = .ok type := by
  rw [valueType_eq_ok_iff]
  exact ⟨node, found, by rw [← first, List.head?_eq_getElem?]⟩

/-- Whether a value belongs to the constant with a number. -/
def Dag.hasConstant (dag : Dag) (number : Int) (value : Value) : Bool :=
  (dag.node? value.node).any fun node =>
    node.opcode == .generic .constant && node.payload == .constant number

theorem Dag.hasConstant_iff {dag : Dag} {number : Int} {value : Value} :
    dag.hasConstant number value = true ↔
      ∃ node, dag.node? value.node = some node ∧ node.opcode = .generic .constant ∧
        node.payload = .constant number := by
  simp only [hasConstant, Option.any_eq_true, Bool.and_eq_true, beq_iff_eq]

namespace Payload

variable {payload : Payload}

theorem kind_eq_constant : payload.kind = .constant ↔ ∃ value, payload = .constant value := by
  cases payload <;> simp [kind]

theorem kind_eq_global : payload.kind = .global ↔ ∃ symbol offset, payload = .global symbol offset := by
  cases payload <;> simp [kind]

theorem kind_eq_external : payload.kind = .external ↔ ∃ symbol, payload = .external symbol := by
  cases payload <;> simp [kind]

theorem kind_eq_frameIndex : payload.kind = .frameIndex ↔ ∃ index, payload = .frameIndex index := by
  cases payload <;> simp [kind]

end Payload

namespace Z80

/-! ### What support asks for -/

/-- What support asks of an operand. -/
inductive Demand where
  | chain
  /-- Any value but a chain. -/
  | data
  /-- A value that a register can hold. -/
  | legal
  /-- The constant with this number. -/
  | literal (number : Int)
  deriving DecidableEq, Repr

/-- The matcher that asks for no more. -/
def Demand.matcher : Demand → Matcher
  | .chain => .chain
  | .data | .legal => .reg
  | .literal number => .exactly number

namespace Processor

/-- Whether an operand is what is asked for. -/
def meets (processor : Processor) (dag : Dag) : Demand → Value → Bool
  | .chain => dag.hasType (· == .chain)
  | .data => dag.hasType (· != .chain)
  | .legal => dag.hasType processor.isLegal
  | .literal number => dag.hasConstant number

/-- Whether operands are what is asked for, one by one. -/
def meetsAll (processor : Processor) (dag : Dag) : List Demand → List Value → Bool
  | [], [] => true
  | demand :: demands, value :: values =>
    processor.meets dag demand value && processor.meetsAll dag demands values
  | _, _ => false

/-- The operands with which a processor supports nodes of an opcode that need selection. There may
be several forms, or none, depending on the result types. -/
def forms (processor : Processor) (op : GenericOp) (results : List ValueType) :
    List (List Demand) :=
  let legal := results.head?.any processor.isLegal
  let byte := results.head? == some (.simple .i8)
  match op with
  | .constant => if results.length = 1 ∧ legal then [[]] else []
  | .globalAddress | .externalSymbol | .frameIndex =>
    if results = [.simple processor.pointerType] then [[]] else []
  | .load => if legal then [[.chain, .data]] else []
  | .store => [[.chain, .legal, .data]]
  | .add | .sub => if legal then [[.data, .data]] else []
  | .and | .or | .xor => if byte then [[.data, .data]] else []
  | .shl | .srl | .sra => if byte then [[.data, .literal 1]] else []
  | .mul => if byte ∧ (processor.z180Ops || processor.ez80Ops) then [[.data, .data]] else []
  | .ret => [[.chain], [.chain, .data]]
  | _ => []

/-- Whether a processor supports a node of a graph. -/
def supports (processor : Processor) (dag : Dag) (node : Node) : Bool :=
  match node.opcode with
  | .machine _ => false
  | .generic op =>
    op.needsNoSelection ||
      (processor.forms op node.results).any fun form => processor.meetsAll dag form node.operands

/-! ### Legal types -/

theorem legalTypes_eq (processor : Processor) :
    processor.legalTypes.map Prod.fst =
      (widths.filter fun width => width.guard.holds processor).map WidthForms.type := by
  obtain ⟨triple, mode, undocOps, z180Ops, ez80Ops, ez80_of_bits24⟩ := processor
  cases mode <;> cases undocOps <;> cases ez80Ops <;> rfl

/-- A register can only hold values of a width that can be moved. -/
theorem exists_width_of_isLegal {processor : Processor} {type : ValueType}
    (legal : processor.isLegal type = true) :
    ∃ width ∈ widths, type = .simple width.type ∧ width.guard.holds processor = true := by
  cases type with
  | extended => cases legal
  | simple type =>
      obtain ⟨registerClass, found⟩ := Option.isSome_iff_exists.mp legal
      have listed : type ∈ processor.legalTypes.map Prod.fst := by
        obtain ⟨_, _, split, _⟩ := List.lookup_eq_some_iff.mp found
        rw [split]
        simp
      rw [legalTypes_eq, List.mem_map] at listed
      obtain ⟨width, kept, rfl⟩ := listed
      obtain ⟨member, guarded⟩ := List.mem_filter.mp kept
      exact ⟨width, member, rfl, guarded⟩

theorem isScalarInteger_of_isLegal {processor : Processor} {type : ValueType}
    (legal : processor.isLegal type = true) : type.isScalarInteger = true := by
  have integers : ∀ width ∈ widths, (ValueType.simple width.type).isScalarInteger = true := by
    decide
  obtain ⟨width, listed, rfl, _⟩ := exists_width_of_isLegal legal
  exact integers width listed

/-! ### Rules that ask for no more -/

section Rules

variable {processor : Processor} {width : WidthForms}

theorem memoryPatterns_listed (listed : width ∈ widths) :
    width.memoryPatterns ⊆ patterns := by
  intro pattern member
  have inTable : pattern ∈ widths.flatMap WidthForms.memoryPatterns :=
    List.mem_flatMap.mpr ⟨width, listed, member⟩
  simp [patterns, inTable]

theorem has_load (listed : width ∈ widths) (guarded : width.guard.holds processor = true) :
    processor.Has .load (.result width.type) [.chain, .reg] :=
  ⟨rule .load width.loadIndirect (.result width.type) width.guard [.chain, .reg],
    memoryPatterns_listed listed (by simp [WidthForms.memoryPatterns]), guarded, asksFor_rule⟩

theorem has_store (listed : width ∈ widths) (guarded : width.guard.holds processor = true) :
    processor.Has .store (.operand 1 width.type) [.chain, .reg, .reg] :=
  ⟨rule .store width.storeIndirect (.operand 1 width.type) width.guard [.chain, .reg, .reg],
    memoryPatterns_listed listed (by simp [WidthForms.memoryPatterns]), guarded, asksFor_rule⟩

theorem has_byte {op : GenericOp} (byte : isByteOp op = true) :
    processor.Has op (.result .i8) [.reg, .reg] := by
  obtain ⟨register, immediate, listed⟩ := accumulator_listed byte
  exact ⟨rule op register (.result .i8) .always [.reg, .reg],
    listed (by simp [accumulatorPatterns]), rfl, asksFor_rule⟩

theorem has_sum {op : GenericOp} (sum : op = .add ∨ op = .sub) (listed : width ∈ widths)
    (guarded : width.guard.holds processor = true) :
    processor.Has op (.result width.type) [.reg, .reg] := by
  rcases List.mem_cons.mp listed with rfl | wide
  · rcases sum with rfl | rfl
    · exact has_byte rfl
    · exact has_byte rfl
  · rcases List.mem_pair.mp wide with rfl | rfl
    · rcases sum with rfl | rfl
      · exact ⟨rule .add .ADD16aa (.result .i16) .always [.reg, .reg],
          by simp [patterns, widePatterns], rfl, asksFor_rule⟩
      · exact ⟨rule .sub .SBC16aa (.result .i16) .always [.reg, .reg],
          by simp [patterns, widePatterns], rfl, asksFor_rule⟩
    · rcases sum with rfl | rfl
      · exact ⟨rule .add .ADD24aa (.result .i24) Z80.is24Bit [.reg, .reg],
          by simp [patterns, widePatterns], guarded, asksFor_rule⟩
      · exact ⟨rule .sub .SBC24aa (.result .i24) Z80.is24Bit [.reg, .reg],
          by simp [patterns, widePatterns], guarded, asksFor_rule⟩

/-- The shifts by one. -/
theorem has_shift {op : GenericOp} (shift : op ∈ [GenericOp.shl, .srl, .sra]) :
    processor.Has op (.result .i8) [.reg, .exactly 1] := by
  simp only [List.mem_cons, List.not_mem_nil, or_false] at shift
  rcases shift with rfl | rfl | rfl
  · exact ⟨rule .shl .SLA8r (.result .i8) .always [.reg, .exactly 1],
      by simp [patterns, shiftPatterns], rfl, asksFor_rule⟩
  · exact ⟨rule .srl .SRL8r (.result .i8) .always [.reg, .exactly 1],
      by simp [patterns, shiftPatterns], rfl, asksFor_rule⟩
  · exact ⟨rule .sra .SRA8r (.result .i8) .always [.reg, .exactly 1],
      by simp [patterns, shiftPatterns], rfl, asksFor_rule⟩

theorem has_mul (multiplies : (processor.z180Ops || processor.ez80Ops) = true) :
    processor.Has .mul (.result .i8) [.reg, .reg] :=
  ⟨rule .mul .MLT8rr (.result .i8) hasMultiply [.reg, .reg], by simp [patterns, shiftPatterns],
    multiplies, asksFor_rule⟩

theorem has_ret : processor.Has .ret .any [.chain] :=
  ⟨rule .ret .RET .any .always [.chain], by simp [patterns, returnPatterns], rfl, asksFor_rule⟩

theorem has_retValue : processor.Has .ret .any [.chain, .reg] :=
  ⟨{ rule .ret .RET .any .always [.chain, .reg] with name := "RET_value" },
    by simp [patterns, returnPatterns], rfl, asksFor_rule⟩

/-- The processor has a rule for a leaf of some opcode and type. -/
def HasLeaf (processor : Processor) (op : GenericOp) (type : SimpleType) (matcher : Matcher) :
    Prop :=
  ∃ pattern ∈ patterns, pattern.guard.holds processor = true ∧ pattern.op = op ∧
    pattern.typeTest = .result type ∧ pattern.root = some matcher ∧ pattern.operands = []

theorem hasLeaf_constant (listed : width ∈ widths) (guarded : width.guard.holds processor = true) :
    processor.HasLeaf .constant width.type .imm := by
  refine ⟨leafRule .constant width.immediate width.type width.guard .imm, ?_, guarded, rfl, rfl, rfl,
    rfl⟩
  have inTable := List.mem_map_of_mem
    (f := fun width => leafRule .constant width.immediate width.type width.guard .imm) listed
  simp only [patterns, leafPatterns, List.mem_append]
  tauto

theorem hasLeaf_symbol {op : GenericOp} (symbol : op = .globalAddress ∨ op = .externalSymbol) :
    processor.HasLeaf op processor.pointerType .mem := by
  cases mode : processor.mode with
  | bits16 =>
      have guarded : Z80.is16Bit.holds processor = true := by simp [Z80.is16Bit, is16Bit, mode]
      rw [pointerType, mode]
      rcases symbol with rfl | rfl
      · exact ⟨{ leafRule .globalAddress .LD16ri .i16 Z80.is16Bit .mem with
          name := "LD16ri_global" }, by simp [patterns, leafPatterns], guarded, rfl, rfl, rfl, rfl⟩
      · exact ⟨{ leafRule .externalSymbol .LD16ri .i16 Z80.is16Bit .mem with
          name := "LD16ri_external" }, by simp [patterns, leafPatterns], guarded, rfl, rfl, rfl, rfl⟩
  | bits24 =>
      have guarded : Z80.is24Bit.holds processor = true := by simp [Z80.is24Bit, is24Bit, mode]
      rw [pointerType, mode]
      rcases symbol with rfl | rfl
      · exact ⟨{ leafRule .globalAddress .LD24ri .i24 Z80.is24Bit .mem with
          name := "LD24ri_global" }, by simp [patterns, leafPatterns], guarded, rfl, rfl, rfl, rfl⟩
      · exact ⟨{ leafRule .externalSymbol .LD24ri .i24 Z80.is24Bit .mem with
          name := "LD24ri_external" }, by simp [patterns, leafPatterns], guarded, rfl, rfl, rfl, rfl⟩

theorem hasLeaf_frameIndex : processor.HasLeaf .frameIndex processor.pointerType .off := by
  cases mode : processor.mode with
  | bits16 =>
      have guarded : Z80.is16Bit.holds processor = true := by simp [Z80.is16Bit, is16Bit, mode]
      rw [pointerType, mode]
      exact ⟨leafRule .frameIndex .ADD16fi .i16 Z80.is16Bit .off, by simp [patterns, leafPatterns],
        guarded, rfl, rfl, rfl, rfl⟩
  | bits24 =>
      -- There is no other rule at this width, but wide pointers come with the instructions.
      have guarded : Z80.has24BitEz80Ops.holds processor = true := by
        simp [Z80.has24BitEz80Ops, has24BitEz80Ops, is24Bit, mode, processor.ez80_of_bits24 mode]
      rw [pointerType, mode]
      exact ⟨leafRule .frameIndex .LEA24ro .i24 Z80.has24BitEz80Ops .off,
        by simp [patterns, leafPatterns], guarded, rfl, rfl, rfl, rfl⟩

end Rules

/-! ### Supported nodes are covered -/

section Covering

variable {processor : Processor} {dag : Dag} {types : AddressTypes} {id : NodeId} {node : Node}
  {op : GenericOp}

theorem exists_matches {demand : Demand} {value : Value}
    (met : processor.meets dag demand value = true) :
    ∃ captures, Matches dag types demand.matcher value captures := by
  cases demand with
  | chain =>
      obtain ⟨type, typed, isChain⟩ := Dag.hasType_iff.mp met
      rw [beq_iff_eq.mp isChain] at typed
      exact ⟨_, .chain typed⟩
  | data =>
      obtain ⟨type, typed, isData⟩ := Dag.hasType_iff.mp met
      exact ⟨_, .reg typed (bne_iff_ne.mp isData)⟩
  | legal =>
      obtain ⟨type, typed, legal⟩ := Dag.hasType_iff.mp met
      refine ⟨_, .reg typed ?_⟩
      rintro rfl
      cases isScalarInteger_of_isLegal legal
  | literal number =>
      obtain ⟨constant, found, isConstant, payload⟩ := Dag.hasConstant_iff.mp met
      exact ⟨_, .exactly found isConstant payload⟩

theorem length_of_meetsAll : ∀ {form : List Demand} {values : List Value},
    processor.meetsAll dag form values = true → values.length = form.length
  | [], [], _ => rfl
  | [], _ :: _, met => by cases met
  | _ :: _, [], met => by cases met
  | _ :: _, _ :: _, met =>
      congrArg Nat.succ (length_of_meetsAll (Bool.and_eq_true_iff.mp met).2)

theorem exists_matchesAll : ∀ {form : List Demand} {values : List Value},
    processor.meetsAll dag form values = true →
    ∃ captures, MatchesAll dag types (form.map Demand.matcher) values captures
  | [], _, _ => ⟨[], .nil _⟩
  | _ :: _, [], met => by cases met
  | _ :: _, _ :: _, met => by
      obtain ⟨headMet, tailMet⟩ := Bool.and_eq_true_iff.mp met
      obtain ⟨_, head⟩ := exists_matches headMet
      obtain ⟨_, tail⟩ := exists_matchesAll tailMet
      exact ⟨_, .cons head tail⟩

/-- The processor has a rule for an opcode that covers a node. -/
def Reaches (processor : Processor) (dag : Dag) (op : GenericOp) (id : NodeId) (node : Node) :
    Prop :=
  ∃ pattern ∈ patterns, pattern.guard.holds processor = true ∧ pattern.op = op ∧
    ∃ own rest, pattern.Covers dag processor.addressTypes id node own rest

theorem Has.reaches {test : TypeTest} {form : List Demand}
    (has : processor.Has op test (form.map Demand.matcher)) (found : dag.node? id = some node)
    (generic : node.opcode = .generic op) (typed : test.holds dag node = .ok true)
    (met : processor.meetsAll dag form node.operands = true) : processor.Reaches dag op id node := by
  obtain ⟨pattern, listed, guarded, asks⟩ := has
  obtain ⟨captures, operands⟩ := exists_matchesAll met
  have length := length_of_meetsAll met
  exact ⟨pattern, listed, guarded, asks.op, [], captures,
    asks.covers found generic typed (by rw [length, List.length_map]) operands⟩

theorem HasLeaf.reaches {type : SimpleType} {matcher : Matcher} {captures : List Capture}
    (has : processor.HasLeaf op type matcher) (found : dag.node? id = some node)
    (generic : node.opcode = .generic op) (typed : node.results.head? = some (.simple type))
    (met : processor.meetsAll dag [] node.operands = true)
    (matched : Matches dag processor.addressTypes matcher { node := id } captures) :
    processor.Reaches dag op id node := by
  obtain ⟨pattern, listed, guarded, sameOp, test, root, noOperands⟩ := has
  refine ⟨pattern, listed, guarded, sameOp, captures, [], ?_⟩
  constructor
  · exact found
  · rw [sameOp, generic]
  · rw [noOperands]
    exact length_of_meetsAll met
  · rw [test]
    exact TypeTest.holds_result_iff.mpr typed
  · rw [root]
    exact matched
  · rw [noOperands]
    exact .nil _

theorem exists_width_of_head {results : List ValueType}
    (legal : results.head?.any processor.isLegal = true) :
    ∃ width ∈ widths, results.head? = some (.simple width.type) ∧
      width.guard.holds processor = true := by
  obtain ⟨type, first, legal⟩ := (Option.any_eq_true _ _).mp legal
  obtain ⟨width, listed, rfl, guarded⟩ := exists_width_of_isLegal legal
  exact ⟨width, listed, first, guarded⟩

/-- The rules for stores ask for the type of the value that is stored. -/
theorem reaches_store (found : dag.node? id = some node) (generic : node.opcode = .generic .store)
    (met : processor.meetsAll dag [.chain, .legal, .data] node.operands = true) :
    processor.Reaches dag .store id node := by
  obtain ⟨chain, value, address, operands⟩ := List.length_eq_three.mp (length_of_meetsAll met)
  have stored : processor.meets dag .legal value = true := by
    rw [operands] at met
    simp only [meetsAll, Bool.and_eq_true] at met
    exact met.2.1
  obtain ⟨type, typed, legal⟩ := Dag.hasType_iff.mp stored
  obtain ⟨width, listed, rfl, guarded⟩ := exists_width_of_isLegal legal
  refine (has_store listed guarded).reaches found generic ?_ met
  simp [TypeTest.holds, operands, typed, bind, Except.bind, pure, Except.pure]

theorem mem_if_singleton {condition : Prop} [Decidable condition] {form only : List Demand}
    (member : form ∈ (if condition then [only] else [])) : condition ∧ form = only := by
  rwa [List.mem_ite_nil_right, List.mem_singleton] at member

/-- A node with a supported form is covered, if it carries what its opcode asks for. -/
theorem reaches_of_form {form : List Demand} (found : dag.node? id = some node)
    (generic : node.opcode = .generic op) (payload : node.payload.kind = op.payloadKind)
    (listed : form ∈ processor.forms op node.results)
    (met : processor.meetsAll dag form node.operands = true) : processor.Reaches dag op id node := by
  -- Except for stores and returns, the rules ask for the type of the first result.
  have typed : ∀ {type}, node.results.head? = some (.simple type) →
      (TypeTest.result type).holds dag node = .ok true := TypeTest.holds_result_iff.mpr
  have pointer : node.results = [.simple processor.pointerType] →
      node.results.head? = some (.simple processor.pointerType) := fun results => by rw [results]; rfl
  cases op with
  | constant =>
      obtain ⟨⟨_, legal⟩, rfl⟩ := mem_if_singleton listed
      obtain ⟨width, widthListed, first, guarded⟩ := exists_width_of_head legal
      obtain ⟨number, carried⟩ := Payload.kind_eq_constant.mp payload
      exact (hasLeaf_constant widthListed guarded).reaches found generic first met
        (.imm found generic carried (Dag.valueType_first found first))
  | globalAddress =>
      obtain ⟨results, rfl⟩ := mem_if_singleton listed
      obtain ⟨symbol, offset, carried⟩ := Payload.kind_eq_global.mp payload
      exact (hasLeaf_symbol (Or.inl rfl)).reaches found generic (pointer results) met
        (.mem (.global found generic carried))
  | externalSymbol =>
      obtain ⟨results, rfl⟩ := mem_if_singleton listed
      obtain ⟨symbol, carried⟩ := Payload.kind_eq_external.mp payload
      exact (hasLeaf_symbol (Or.inr rfl)).reaches found generic (pointer results) met
        (.mem (.external found generic carried))
  | frameIndex =>
      obtain ⟨results, rfl⟩ := mem_if_singleton listed
      obtain ⟨index, carried⟩ := Payload.kind_eq_frameIndex.mp payload
      exact hasLeaf_frameIndex.reaches found generic (pointer results) met
        (.off (.slot found generic carried))
  | load =>
      obtain ⟨legal, rfl⟩ := mem_if_singleton listed
      obtain ⟨width, widthListed, first, guarded⟩ := exists_width_of_head legal
      exact (has_load widthListed guarded).reaches found generic (typed first) met
  | store =>
      obtain rfl := List.mem_singleton.mp listed
      exact reaches_store found generic met
  | add =>
      obtain ⟨legal, rfl⟩ := mem_if_singleton listed
      obtain ⟨width, widthListed, first, guarded⟩ := exists_width_of_head legal
      exact (has_sum (Or.inl rfl) widthListed guarded).reaches found generic (typed first) met
  | sub =>
      obtain ⟨legal, rfl⟩ := mem_if_singleton listed
      obtain ⟨width, widthListed, first, guarded⟩ := exists_width_of_head legal
      exact (has_sum (Or.inr rfl) widthListed guarded).reaches found generic (typed first) met
  | and =>
      obtain ⟨byte, rfl⟩ := mem_if_singleton listed
      exact (has_byte rfl).reaches found generic (typed (beq_iff_eq.mp byte)) met
  | or =>
      obtain ⟨byte, rfl⟩ := mem_if_singleton listed
      exact (has_byte rfl).reaches found generic (typed (beq_iff_eq.mp byte)) met
  | xor =>
      obtain ⟨byte, rfl⟩ := mem_if_singleton listed
      exact (has_byte rfl).reaches found generic (typed (beq_iff_eq.mp byte)) met
  | shl =>
      obtain ⟨byte, rfl⟩ := mem_if_singleton listed
      exact (has_shift (by simp)).reaches found generic (typed (beq_iff_eq.mp byte)) met
  | srl =>
      obtain ⟨byte, rfl⟩ := mem_if_singleton listed
      exact (has_shift (by simp)).reaches found generic (typed (beq_iff_eq.mp byte)) met
  | sra =>
      obtain ⟨byte, rfl⟩ := mem_if_singleton listed
      exact (has_shift (by simp)).reaches found generic (typed (beq_iff_eq.mp byte)) met
  | mul =>
      obtain ⟨⟨byte, multiplies⟩, rfl⟩ := mem_if_singleton listed
      exact (has_mul multiplies).reaches found generic (typed (beq_iff_eq.mp byte)) met
  | ret =>
      rcases List.mem_pair.mp listed with rfl | rfl
      · exact has_ret.reaches found generic rfl met
      · exact has_retValue.reaches found generic rfl met
  | _ => cases listed

end Covering

/-! ### Supported graphs -/

section Graphs

variable {processor : Processor} {input dag : Dag} {id : NodeId} {node : Node} {op : GenericOp}

/-- An operand that has not had its turn still meets what it met in the input. -/
theorem meets_of_advances {demand : Demand} {value : Value} (advances : input.Advances dag)
    (resolves : input.Resolves value)
    (waiting : dag.shape.node? value.node = input.shape.node? value.node)
    (met : processor.meets input demand value = true) :
    processor.meets dag demand value = true := by
  have typed : ∀ {test : ValueType → Bool}, input.hasType test value = true →
      dag.hasType test value = true := by
    intro test met
    obtain ⟨type, typed, passes⟩ := Dag.hasType_iff.mp met
    exact Dag.hasType_iff.mpr ⟨type, (advances.valueType_eq resolves).mpr typed, passes⟩
  cases demand with
  | chain => exact typed met
  | data => exact typed met
  | legal => exact typed met
  | literal number =>
      obtain ⟨constant, found, isConstant, payload⟩ := Dag.hasConstant_iff.mp met
      rw [Dag.shape_found found] at waiting
      obtain ⟨uses, found⟩ := Dag.exists_uses_of_shape waiting
      exact Dag.hasConstant_iff.mpr ⟨_, found, isConstant, payload⟩

theorem meetsAll_mono : ∀ {form : List Demand} {values : List Value},
    (∀ demand, ∀ value ∈ values, processor.meets input demand value = true →
      processor.meets dag demand value = true) →
    processor.meetsAll input form values = true → processor.meetsAll dag form values = true
  | [], [], _, _ => rfl
  | [], _ :: _, _, met => by cases met
  | _ :: _, [], _, met => by cases met
  | _ :: _, value :: _, kept, met => by
      obtain ⟨headMet, tailMet⟩ := Bool.and_eq_true_iff.mp met
      refine Bool.and_eq_true_iff.mpr ⟨kept _ value List.mem_cons_self headMet, ?_⟩
      exact meetsAll_mono (fun demand other member =>
        kept demand other (List.mem_cons_of_mem _ member)) tailMet

theorem exists_form_of_supports (supported : processor.supports dag node = true)
    (generic : node.opcode = .generic op) (needs : op.needsNoSelection = false) :
    ∃ form ∈ processor.forms op node.results,
      processor.meetsAll dag form node.operands = true := by
  simpa [supports, generic, needs] using supported

/-- In a graph of supported nodes, no constant is folded with a type that is no integer. -/
theorem not_misfolds_of_supports {type : ValueType}
    (supported : ∀ node ∈ dag.nodes, processor.supports dag node = true) :
    ¬ dag.Misfolds id type := by
  rintro ⟨_, _, _, _, _, _, found, isConstant, _, _, typed, noInteger⟩
  obtain ⟨form, listed, _⟩ :=
    exists_form_of_supports (supported _ (List.mem_of_getElem? found)) isConstant rfl
  obtain ⟨⟨single, legal⟩, _⟩ := mem_if_singleton listed
  obtain ⟨first, results⟩ := List.length_eq_one_iff.mp single
  obtain ⟨_, sameFound, there⟩ := Dag.valueType_eq_ok_iff.mp typed
  cases found.symm.trans sameFound
  rw [results] at legal there
  cases List.mem_singleton.mp (List.mem_of_getElem? there)
  exact absurd (noInteger.symm.trans (isScalarInteger_of_isLegal legal)) Bool.false_ne_true

/-- A supported node is covered if it is as in the input and its operands have not had their
turn. -/
theorem not_refuses_of_supports {machine : String → Option MachineOp}
    (supported : ∀ node ∈ input.nodes, processor.supports input node = true)
    (inputCounted : input.Counted) (asRead : ∀ id node, input.node? id = some node →
      node.AsRead machine id) (counted : dag.Counted) (advances : input.Advances dag)
    (waiting : ∀ other, other < id → dag.shape.node? other = input.shape.node? other) :
    ¬ processor.target.Refuses id dag node op := by
  intro refuses
  obtain ⟨_, _, uses, inputFound⟩ :=
    advances.exists_input refuses.found refuses.used refuses.generic refuses.needs
  have read := asRead id _ inputFound
  obtain ⟨form, listed, inputMet⟩ := exists_form_of_supports
    (supported _ (List.mem_of_getElem? inputFound)) refuses.generic refuses.needs
  have met : processor.meetsAll dag form node.operands = true := by
    apply meetsAll_mono _ inputMet
    intro demand value member
    apply meets_of_advances advances
    · exact inputCounted.operands id value (Dag.mem_operandsOf.mpr ⟨_, inputFound, member⟩)
    · exact waiting value.node (read.earlier value member)
  have payload : node.payload.kind = op.payloadKind := by
    have kind := read.written.kind_eq
    rw [refuses.generic] at kind
    exact kind
  obtain ⟨pattern, patternListed, guarded, sameOp, own, rest, covers⟩ :=
    reaches_of_form refuses.found refuses.generic payload listed met
  apply Target.cover_ne_none (processor.answers counted advances.full)
    (advances.full.resolves refuses.found) patternListed guarded covers
  rw [sameOp]
  exact refuses.uncovered

end Graphs

end Processor

end Z80

/-- Walking the lines from the last one, the nodes before a node are as they were when its turn
comes. -/
theorem LabelledDag.Drafted.waiting {graph : LabelledDag} {machine : String → Option MachineOp}
    (drafted : graph.Drafted machine) {Features : Type} {target : Target Features}
    {visited rest : List NodeId} {id other : NodeId} {first last : Run}
    (firstDag : first.dag = graph.dag) (split : graph.order.reverse = visited ++ id :: rest)
    (inside : id < graph.dag.size) (visits : target.Visits visited first last)
    (lower : other < id) : last.dag.shape.node? other = graph.dag.shape.node? other := by
  have falling : graph.order.reverse.Pairwise (· > ·) := by
    rw [drafted.order, List.pairwise_reverse]
    exact List.pairwise_lt_range
  have absent : other ∉ visited := by
    rw [split, List.pairwise_append] at falling
    intro member
    exact Nat.lt_asymm lower (falling.2.2 other member id List.mem_cons_self)
  obtain ⟨node, found⟩ := Dag.exists_node?_of_lt (Nat.lt_trans lower inside)
  have there := Dag.shape_found found
  rw [there]
  exact visits.unchanged (firstDag ▸ there) absent

/-- Nothing goes wrong in the selection of a supported graph. -/
theorem LabelledDag.Drafted.exists_ok_of_supports {graph : LabelledDag}
    {machine : String → Option MachineOp} (drafted : graph.Drafted machine)
    {processor : Z80.Processor}
    (supported : ∀ node ∈ graph.dag.nodes, processor.supports graph.dag node = true)
    (name : String) (session : Session) (log : List LogRecord) :
    ∃ after, (processor.target.selectFunction name graph.order).run ⟨graph.dag, session, log⟩ =
      .ok () after := by
  have isOrder := drafted.isDependencyOrder
  apply Target.exists_ok_of_turns drafted.counted (fun id => ⟨isOrder.lt_size, isOrder.mem⟩)
  intro visited id rest first last firstDag split inside visits counted
  have advances := visits.advances (firstDag ▸ drafted.counted) (firstDag ▸ drafted.unvisited)
    (firstDag ▸ drafted.full)
  rw [firstDag] at advances
  constructor
  · intro node op
    apply Z80.Processor.not_refuses_of_supports supported drafted.counted drafted.nodes counted
      advances
    exact fun other => drafted.waiting firstDag split inside visits
  · intro cause breaks
    obtain ⟨type, _, misfolds, pointed⟩ := Z80.Processor.misfolds_of_breaks counted advances.full
      (advances.lt_size inside) breaks
    obtain ⟨inputMisfolds, _⟩ := misfolds.of_advances advances drafted.counted pointed
    exact Z80.Processor.not_misfolds_of_supports supported inputMisfolds

/-- Every processor selects the graphs that it supports, in the order of their lines. Then no node
is left to select: each has had its turn, and is dead or has its final form. -/
theorem selects_of_supports (processor : Z80.Processor) {text : String}
    {context context' : TypeContext} {graph : LabelledDag}
    (read : (readDag Z80.machineOp? text).run context = .ok graph context')
    (supported : ∀ node ∈ graph.dag.nodes, processor.supports graph.dag node = true)
    (name : String) (session : Session) (log : List LogRecord) :
    ∃ after, (processor.target.selectFunction name graph.order).run ⟨graph.dag, session, log⟩ =
        .ok () after ∧
      ∀ id node, after.dag.node? id = some node →
        node.state ≠ .unvisited ∧ (node.state ≠ .dead → node.opcode.isFinal = true) := by
  obtain ⟨drafted, _⟩ := readDag_drafted read
  obtain ⟨after, selects⟩ := drafted.exists_ok_of_supports supported name session log
  obtain ⟨first, last, firstDag, _, _, ⟨_, visits, complete⟩, lastDag, _⟩ :=
    (processor.target.selectFunction_ends name graph.order _ drafted.counted).of_ok selects
  have settled := visits.settled (firstDag ▸ drafted.counted) (firstDag ▸ drafted.unvisited)
  refine ⟨after, selects, ?_⟩
  rw [lastDag]
  intro id node found
  exact ⟨complete id node found, settled.isFinal found (complete id node found)⟩

/-- The plainest processor supports the graph that increments a variable, so it selects it and
leaves no node to select. -/
theorem selects_supported_incrementGraph :
    (∀ node ∈ incrementGraph.dag.nodes,
      Z80.Processor.plain.supports incrementGraph.dag node = true) ∧
    ∃ after, (Z80.Processor.plain.target.selectFunction "increment" incrementGraph.order).run
        { dag := incrementGraph.dag } = .ok () after ∧
      ∀ id node, after.dag.node? id = some node →
        node.state ≠ .unvisited ∧ (node.state ≠ .dead → node.opcode.isFinal = true) := by
  have supported : ∀ node ∈ incrementGraph.dag.nodes,
      Z80.Processor.plain.supports incrementGraph.dag node = true := by decide +kernel
  exact ⟨supported, selects_of_supports Z80.Processor.plain readDag_incrementText supported _ _ _⟩

end DagSelect
