/-
Module: DagSelect.Proofs.Z80.Soundness
Purpose: Every pattern of the family computes what it replaces. A matcher is read as a relation
  between the datum of an operand and the data that it captures; what a pattern knows of the node it
  covers is then a matter of types and data alone, without a graph. The table is gone through by the
  families in which it is written down.
Main exports: Denotes, DenotesAll, TypeTest.Fits, Covering, Sound, patterns_sound
-/
import DagSelect.Proofs.Z80.Meaning

namespace DagSelect

/-- The type that a pattern asks for, in terms of the types of results and operands. -/
def TypeTest.Fits (results operands : List ValueType) : TypeTest → Prop
  | .any => True
  | .result type => results.head? = some (.simple type)
  | .operand index type => operands[index]? = some (.simple type)

namespace Z80

variable {Token : Type}

mutual

/-- What a matcher knows of the type and the datum of an operand, and of the data that it captures.
Addresses are only known if they have the type of pointers. -/
def Denotes (processor : Processor) (environment : Environment Token) :
    Matcher → ValueType → Datum Token → List (Datum Token) → Prop
  | .chain, _, x, captured => captured = [x]
  | .reg, _, x, captured => captured = [x]
  | .imm, _, x, captured => captured = [x]
  | .exactly number, type, x, captured => captured = [] ∧
    ∃ bits, type.width? = some bits ∧ 1 ≤ bits ∧ x = .int (number % 2 ^ bits)
  | .mem, type, x, captured => type = .simple processor.pointerType → captured = [x]
  | .off, type, x, captured => type = .simple processor.pointerType →
    ∃ base displacement, captured = [base, displacement] ∧
      x = addressSum processor.pointerBits base displacement
  | .node op matchers, type, x, captured => ∃ payload results types data,
    results.head? = some type ∧
    op.accepts (.simple processor.pointerType) results types = true ∧
    DenotesAll processor environment matchers types data captured ∧
    x = (op.meaning environment payload results types data 0).ofType type

/-- The same for operands one after another. -/
def DenotesAll (processor : Processor) (environment : Environment Token) :
    List Matcher → List ValueType → List (Datum Token) → List (Datum Token) → Prop
  | [], [], [], captured => captured = []
  | matcher :: matchers, type :: types, x :: data, captured => ∃ first rest,
    captured = first ++ rest ∧ Denotes processor environment matcher type x first ∧
    DenotesAll processor environment matchers types data rest
  | _, _, _, _ => False

end

/-- What is known of a node that a pattern covers: the types and the data of its operands, and the
data captured from the node itself and from the operands. -/
structure Covering (processor : Processor) (environment : Environment Token)
    (pattern : Pattern Processor) (payload : Payload) (results types : List ValueType)
    (data own rest : List (Datum Token)) : Prop where
  guard : pattern.guard.holds processor = true
  accepted : pattern.op.accepts (.simple processor.pointerType) results types = true
  fits : pattern.typeTest.Fits results types
  root : match pattern.root with
    | some matcher => Denotes processor environment matcher (results.headD .chain)
        ((pattern.op.meaning environment payload results types data 0).ofType
          (results.headD .chain)) own
    | none => own = []
  operands : DenotesAll processor environment pattern.operands types data rest

/-- The instruction of a pattern gives what the node gives. -/
def Sound (processor : Processor) (pattern : Pattern Processor) : Prop :=
  ∀ (Token : Type) (environment : Environment Token) (payload : Payload)
    (results types : List ValueType) (data own rest : List (Datum Token)),
    Covering processor environment pattern payload results types data own rest →
    ∀ index, index < results.length →
      (machineMeaning processor environment pattern.emit (own ++ rest) index).ofType
          (results.getD index .chain) =
        (pattern.op.meaning environment payload results types data index).ofType
          (results.getD index .chain)

variable {processor : Processor} {environment : Environment Token} {matchers : List Matcher}
  {types : List ValueType} {data captured : List (Datum Token)}

theorem denotesAll_nil : DenotesAll processor environment [] types data captured ↔
    types = [] ∧ data = [] ∧ captured = [] := by
  cases types <;> cases data <;> simp [DenotesAll]

theorem denotesAll_cons {matcher : Matcher} :
    DenotesAll processor environment (matcher :: matchers) types data captured ↔
      ∃ type types' x data' first rest, types = type :: types' ∧ data = x :: data' ∧
        captured = first ++ rest ∧ Denotes processor environment matcher type x first ∧
        DenotesAll processor environment matchers types' data' rest := by
  cases types <;> cases data <;> simp [DenotesAll]

theorem denotesAll_cons_cons {matcher : Matcher} {type : ValueType} :
    DenotesAll processor environment (matcher :: matchers) (type :: types) data captured ↔
      ∃ x data' given rest, data = x :: data' ∧ captured = given ++ rest ∧
        Denotes processor environment matcher type x given ∧
        DenotesAll processor environment matchers types data' rest := by
  cases data <;> simp [DenotesAll]

theorem DenotesAll.pair {first second : Matcher} {type type' : ValueType}
    (known : DenotesAll processor environment [first, second] [type, type'] data captured) :
    ∃ x y given given', data = [x, y] ∧ captured = given ++ given' ∧
      Denotes processor environment first type x given ∧
      Denotes processor environment second type' y given' := by
  obtain ⟨x, _, given, _, rfl, rfl, left, restKnown⟩ := denotesAll_cons_cons.mp known
  obtain ⟨y, _, given', _, rfl, rfl, right, noneKnown⟩ := denotesAll_cons_cons.mp restKnown
  obtain ⟨_, rfl, rfl⟩ := denotesAll_nil.mp noneKnown
  exact ⟨x, y, given, given', rfl, by rw [List.append_nil], left, right⟩

/-- The number one is one at every width. -/
theorem one_emod_two_pow {bits : Nat} (positive : 1 ≤ bits) : (1 : Int) % 2 ^ bits = 1 := by
  apply Int.emod_eq_of_lt (by decide)
  exact_mod_cast Nat.one_lt_two_pow (Nat.one_le_iff_ne_zero.mp positive)

/-- A shift by one, whatever the width of the amount. -/
theorem DenotesAll.shiftByOne
    (known : DenotesAll processor environment [.reg, .exactly 1] types data captured) :
    ∃ x, data = [x, .int 1] ∧ captured = [x] := by
  obtain ⟨_, _, x, _, _, _, rfl, rfl, rfl, rfl, restKnown⟩ := denotesAll_cons.mp known
  obtain ⟨_, _, _, _, _, _, rfl, rfl, rfl, amountKnown, noneKnown⟩ := denotesAll_cons.mp restKnown
  obtain ⟨rfl, width, _, positive, rfl⟩ := amountKnown
  obtain ⟨_, rfl, rfl⟩ := denotesAll_nil.mp noneKnown
  exact ⟨x, by rw [one_emod_two_pow positive], rfl⟩

/-- An address that is one operand of the instruction. -/
theorem Denotes.direct {address : Matcher} {x : Datum Token} {given : List (Datum Token)}
    (form : address = .mem ∨ address = .reg)
    (known : Denotes processor environment address (.simple processor.pointerType) x given) :
    given = [x] := by
  rcases form with rfl | rfl
  · exact known rfl
  · exact known

/-! ### Patterns by their parts -/

variable {op : GenericOp} {instruction : Instruction} {type : SimpleType} {guard : Guard Processor}

/-- A name and a bonus do not matter. -/
theorem Sound.relabel {pattern : Pattern Processor} (sound : Sound processor pattern)
    (name : String) (addedComplexity : Int) :
    Sound processor { pattern with name, addedComplexity } := by
  intro Token environment payload results types data own rest covering
  exact sound Token environment payload results types data own rest
    ⟨covering.guard, covering.accepted, covering.fits, covering.root, covering.operands⟩

theorem sound_rule {test : TypeTest}
    (each : ∀ (Token : Type) (environment : Environment Token) (payload : Payload)
      (results types : List ValueType) (data captured : List (Datum Token)),
      guard.holds processor = true →
      op.accepts (.simple processor.pointerType) results types = true →
      test.Fits results types → DenotesAll processor environment matchers types data captured →
      ∀ index, index < results.length →
        (instruction.action.meaning environment processor.pointerBits captured index).ofType
            (results.getD index .chain) =
          (op.meaning environment payload results types data index).ofType
            (results.getD index .chain)) :
    Sound processor (rule op instruction test guard matchers) := by
  intro Token environment payload results types data own rest covering index inside
  obtain ⟨passes, accepted, fits, rfl, operands⟩ := covering
  have same := each Token environment payload results types data rest passes accepted fits operands
    index inside
  rw [← machineMeaning_toMachineOp] at same
  exact same

theorem sound_leafRule {matcher : Matcher} (leaf : op.targetLeaf?.isSome = true)
    (each : ∀ (Token : Type) (environment : Environment Token) (x : Datum Token)
      (captured : List (Datum Token)), guard.holds processor = true → x.ofType (.simple type) = x →
      (op = .constant ∨ type = processor.pointerType) →
      Denotes processor environment matcher (.simple type) x captured →
      instruction.action.meaning environment processor.pointerBits captured 0 = x) :
    Sound processor (leafRule op instruction type guard matcher) := by
  intro Token environment payload results types data own rest covering index inside
  obtain ⟨passes, accepted, fits, root, operands⟩ := covering
  obtain ⟨resultType, rfl, rfl, pointer⟩ := GenericOp.eq_of_accepts_leaf leaf accepted
  cases Option.some.inj fits
  obtain ⟨_, rfl, rfl⟩ := denotesAll_nil.mp operands
  cases Nat.lt_one_iff.mp inside
  have known : Denotes processor environment matcher (.simple type)
      ((op.meaning environment payload [.simple type] [] [] 0).ofType (.simple type)) own := root
  have same := each Token environment _ own passes Datum.ofType_ofType
    (pointer.imp_right fun same => by simpa using same) known
  rw [← machineMeaning_toMachineOp] at same
  change (machineMeaning processor environment instruction.toMachineOp (own ++ []) 0).ofType
      (.simple type) =
    (op.meaning environment payload [.simple type] [] [] 0).ofType (.simple type)
  rw [List.append_nil, same, Datum.ofType_ofType]

/-! ### Leaves -/

theorem sound_constant (action : instruction.action = .move) :
    Sound processor (leafRule .constant instruction type guard .imm) := by
  apply sound_leafRule rfl
  intro Token environment x captured _ _ _ known
  simp only [Denotes] at known
  rw [action, known]
  rfl

/-- A symbol is moved as an absolute address. -/
theorem sound_symbol (leaf : op.targetLeaf?.isSome = true) (symbol : op ≠ .constant)
    (action : instruction.action = .move) :
    Sound processor (leafRule op instruction type guard .mem) := by
  apply sound_leafRule leaf
  intro Token environment x captured _ _ pointer known
  simp only [Denotes] at known
  rw [action, known (by rw [pointer.resolve_left symbol])]
  rfl

/-- A stack slot is the sum of its base and its offset. -/
theorem sound_frameIndex {bits : Nat} (action : instruction.action = .combine .add bits)
    (width : guard.holds processor = true → processor.pointerBits = bits) :
    Sound processor (leafRule .frameIndex instruction type guard .off) := by
  apply sound_leafRule rfl
  intro Token environment x captured passes _ pointer known
  simp only [Denotes] at known
  obtain ⟨base, displacement, rfl, rfl⟩ :=
    known (by rw [pointer.resolve_left (by decide)])
  rw [action, width passes]
  rfl

/-! ### Memory -/

theorem sound_load_direct {address : Matcher} (form : address = .mem ∨ address = .reg)
    (action : instruction.action = .load type .direct) :
    Sound processor (rule .load instruction (.result type) guard [.chain, address]) := by
  apply sound_rule
  intro Token environment payload results types data captured _ accepted fits known index _
  obtain ⟨resultType, rfl, rfl⟩ := GenericOp.eq_of_accepts_load accepted
  cases Option.some.inj fits
  obtain ⟨chain, x, _, _, rfl, rfl, rfl, addressKnown⟩ := known.pair
  rw [action, addressKnown.direct form]
  rfl

theorem sound_load_indexed (action : instruction.action = .load type .indexed) :
    Sound processor (rule .load instruction (.result type) guard [.chain, .off]) := by
  apply sound_rule
  intro Token environment payload results types data captured _ accepted fits known index _
  obtain ⟨resultType, rfl, rfl⟩ := GenericOp.eq_of_accepts_load accepted
  cases Option.some.inj fits
  obtain ⟨chain, x, _, _, rfl, rfl, rfl, addressKnown⟩ := known.pair
  obtain ⟨base, displacement, rfl, rfl⟩ := addressKnown rfl
  rw [action]
  rfl

theorem sound_store_direct {address : Matcher} (form : address = .mem ∨ address = .reg)
    (action : instruction.action = .store type .direct) :
    Sound processor (rule .store instruction (.operand 1 type) guard [.chain, .reg, address]) := by
  apply sound_rule
  intro Token environment payload results types data captured _ accepted fits known index _
  obtain ⟨valueType, rfl, rfl⟩ := GenericOp.eq_of_accepts_store accepted
  cases Option.some.inj fits
  obtain ⟨chain, _, _, _, rfl, rfl, rfl, restKnown⟩ := denotesAll_cons_cons.mp known
  obtain ⟨value, x, _, _, rfl, rfl, rfl, addressKnown⟩ := restKnown.pair
  rw [action, addressKnown.direct form]
  rfl

theorem sound_store_indexed (action : instruction.action = .store type .indexed) :
    Sound processor (rule .store instruction (.operand 1 type) guard [.chain, .reg, .off]) := by
  apply sound_rule
  intro Token environment payload results types data captured _ accepted fits known index _
  obtain ⟨valueType, rfl, rfl⟩ := GenericOp.eq_of_accepts_store accepted
  cases Option.some.inj fits
  obtain ⟨chain, _, _, _, rfl, rfl, rfl, restKnown⟩ := denotesAll_cons_cons.mp known
  obtain ⟨value, x, _, _, rfl, rfl, rfl, addressKnown⟩ := restKnown.pair
  obtain ⟨base, displacement, rfl, rfl⟩ := addressKnown rfl
  rw [action]
  rfl

/-! ### Arithmetic -/

theorem sound_binary {second : Matcher} {bits : Nat} (binary : op.isBinary = true)
    (form : second = .reg ∨ second = .imm) (sized : (ValueType.simple type).width? = some bits)
    (action : instruction.action = .combine op bits) :
    Sound processor (rule op instruction (.result type) guard [.reg, second]) := by
  apply sound_rule
  intro Token environment payload results types data captured _ accepted fits known index _
  obtain ⟨resultType, rfl, rfl⟩ := GenericOp.eq_of_accepts_binary binary accepted
  cases Option.some.inj fits
  obtain ⟨x, y, _, given, rfl, rfl, rfl, secondKnown⟩ := known.pair
  have same : given = [y] := by
    rcases form with rfl | rfl <;> exact secondKnown
  rw [action, same, GenericOp.meaning_of_width (by simp [binary]) sized]
  rfl

/-- A constant operand that the instruction implies, perhaps with another operation. -/
theorem sound_binary_exactly {other : GenericOp} {bits : Nat} {number implied : Int}
    (binary : op.isBinary = true) (sized : (ValueType.simple type).width? = some bits)
    (action : instruction.action = .combineWith other bits implied)
    (same : ∀ x, other.compute bits x implied = op.compute bits x number) :
    Sound processor (rule op instruction (.result type) guard [.reg, .exactly number]) := by
  apply sound_rule
  intro Token environment payload results types data captured _ accepted fits known index _
  obtain ⟨resultType, rfl, rfl⟩ := GenericOp.eq_of_accepts_binary binary accepted
  cases Option.some.inj fits
  obtain ⟨x, y, _, _, rfl, rfl, rfl, rfl, width, isWidth, _, rfl⟩ := known.pair
  cases sized.symm.trans isWidth
  rw [action, GenericOp.meaning_of_width (by simp [binary]) sized]
  simp only [Action.meaning, List.append_nil, Datum.number, same,
    GenericOp.compute_emod_right binary]

theorem sound_shift {bits : Nat} (shift : op.isShift = true)
    (sized : (ValueType.simple type).width? = some bits)
    (action : instruction.action = .combineWith op bits 1) :
    Sound processor (rule op instruction (.result type) guard [.reg, .exactly 1]) := by
  apply sound_rule
  intro Token environment payload results types data captured _ accepted fits known index _
  obtain ⟨resultType, _, rfl, rfl⟩ := GenericOp.eq_of_accepts_shift shift accepted
  cases Option.some.inj fits
  obtain ⟨x, rfl, rfl⟩ := known.shiftByOne
  rw [action, GenericOp.meaning_of_width (by simp [shift]) sized]
  rfl

/-- A shift by one and a set lowest bit become one instruction. -/
theorem sound_shiftInOne {bits : Nat} (sized : (ValueType.simple type).width? = some bits)
    (action : instruction.action = .shiftInOne bits) :
    Sound processor (rule .or instruction (.result type) guard
      [.node .shl [.reg, .exactly 1], .exactly 1]) := by
  apply sound_rule
  intro Token environment payload results types data captured _ accepted fits known index _
  obtain ⟨resultType, rfl, rfl⟩ := GenericOp.eq_of_accepts_binary rfl accepted
  cases Option.some.inj fits
  obtain ⟨_, y, _, _, rfl, rfl, shiftKnown, oneKnown⟩ := known.pair
  obtain ⟨rfl, width, isWidth, positive, rfl⟩ := oneKnown
  obtain ⟨_, _, _, _, first, shiftAccepted, operandsKnown, rfl⟩ := shiftKnown
  obtain ⟨shiftType, _, rfl, rfl⟩ := GenericOp.eq_of_accepts_shift rfl shiftAccepted
  cases Option.some.inj first
  obtain ⟨x, rfl, rfl⟩ := operandsKnown.shiftByOne
  rw [action, GenericOp.meaning_of_width rfl sized, GenericOp.meaning_of_width rfl sized,
    Datum.ofType_of_width sized, one_emod_two_pow positive]
  simp only [Action.meaning, List.append_nil, Datum.number, GenericOp.compute_emod_left]

/-! ### Returns -/

theorem sound_ret {operands : List Matcher} (form : operands = [.chain] ∨ operands = [.chain, .reg])
    (action : instruction.action = .ret) :
    Sound processor (rule .ret instruction .any guard operands) := by
  apply sound_rule
  intro Token environment payload results types data captured _ _ _ known index _
  have same : captured = data := by
    rcases form with rfl | rfl
    · obtain ⟨_, _, chain, _, _, _, _, rfl, rfl, rfl, noneKnown⟩ := denotesAll_cons.mp known
      obtain ⟨_, rfl, rfl⟩ := denotesAll_nil.mp noneKnown
      rfl
    · obtain ⟨_, _, chain, _, _, _, _, rfl, rfl, rfl, restKnown⟩ := denotesAll_cons.mp known
      obtain ⟨_, _, value, _, _, _, _, rfl, rfl, rfl, noneKnown⟩ := denotesAll_cons.mp restKnown
      obtain ⟨_, rfl, rfl⟩ := denotesAll_nil.mp noneKnown
      rfl
  rw [action, same]
  rfl

/-! ### The table -/

/-- The instructions of a width move values of its type. -/
structure WidthForms.Moves (width : WidthForms) : Prop where
  immediate : width.immediate.action = .move
  loadAbsolute : width.loadAbsolute.action = .load width.type .direct
  loadIndexed : width.loadIndexed.action = .load width.type .indexed
  loadIndirect : width.loadIndirect.action = .load width.type .direct
  storeAbsolute : width.storeAbsolute.action = .store width.type .direct
  storeIndexed : width.storeIndexed.action = .store width.type .indexed
  storeIndirect : width.storeIndirect.action = .store width.type .direct

theorem widths_moves : ∀ width ∈ widths, width.Moves := by
  simp only [widths, List.forall_mem_cons, List.not_mem_nil, false_implies, implies_true, and_true]
  exact ⟨⟨rfl, rfl, rfl, rfl, rfl, rfl, rfl⟩, ⟨rfl, rfl, rfl, rfl, rfl, rfl, rfl⟩,
    ⟨rfl, rfl, rfl, rfl, rfl, rfl, rfl⟩⟩

theorem Processor.pointerBits_of_is16Bit (narrow : processor.is16Bit = true) :
    processor.pointerBits = 16 := by
  rw [Processor.pointerBits, beq_iff_eq.mp narrow]

theorem Processor.pointerBits_of_is24Bit (wide : processor.is24Bit = true) :
    processor.pointerBits = 24 := by
  rw [Processor.pointerBits, beq_iff_eq.mp wide]

theorem leafPatterns_sound (processor : Processor) :
    ∀ pattern ∈ leafPatterns, Sound processor pattern := by
  rw [leafPatterns, List.forall_mem_append]
  refine ⟨?_, ?_⟩
  · rw [List.forall_mem_map]
    intro width listed
    exact sound_constant (widths_moves width listed).immediate
  · simp only [List.forall_mem_cons, List.not_mem_nil, false_implies, implies_true, and_true]
    refine ⟨?_, ?_, ?_, ?_, ?_, ?_, ?_⟩
    · exact (sound_symbol rfl (by decide) rfl).relabel _ _
    · exact (sound_symbol rfl (by decide) rfl).relabel _ _
    · exact (sound_symbol rfl (by decide) rfl).relabel _ _
    · exact (sound_symbol rfl (by decide) rfl).relabel _ _
    · refine (sound_frameIndex rfl fun passes => ?_).relabel _ _
      exact Processor.pointerBits_of_is16Bit (Bool.and_eq_true_iff.mp passes).1
    · exact sound_frameIndex rfl Processor.pointerBits_of_is16Bit
    · refine sound_frameIndex rfl fun passes => ?_
      exact Processor.pointerBits_of_is24Bit (Bool.and_eq_true_iff.mp passes).1

theorem WidthForms.memoryPatterns_sound (processor : Processor) {width : WidthForms}
    (moves : width.Moves) : ∀ pattern ∈ width.memoryPatterns, Sound processor pattern := by
  simp only [memoryPatterns, List.forall_mem_cons, List.not_mem_nil, false_implies, implies_true,
    and_true]
  exact ⟨sound_load_direct (Or.inl rfl) moves.loadAbsolute, sound_load_indexed moves.loadIndexed,
    sound_load_direct (Or.inr rfl) moves.loadIndirect,
    sound_store_direct (Or.inl rfl) moves.storeAbsolute, sound_store_indexed moves.storeIndexed,
    sound_store_direct (Or.inr rfl) moves.storeIndirect⟩

theorem accumulatorPatterns_sound {register immediate : Instruction} (binary : op.isBinary = true)
    (registerAction : register.action = .combine op 8)
    (immediateAction : immediate.action = .combine op 8) :
    ∀ pattern ∈ accumulatorPatterns op register immediate, Sound processor pattern := by
  simp only [accumulatorPatterns, List.forall_mem_cons, List.not_mem_nil, false_implies,
    implies_true, and_true]
  exact ⟨sound_binary binary (Or.inl rfl) rfl registerAction,
    sound_binary binary (Or.inr rfl) rfl immediateAction⟩

theorem bytePatterns_sound (processor : Processor) :
    ∀ pattern ∈ bytePatterns, Sound processor pattern := by
  simp only [bytePatterns, List.forall_mem_append]
  refine ⟨⟨⟨⟨⟨?_, ?_⟩, ?_⟩, ?_⟩, ?_⟩, ?_⟩
  · exact accumulatorPatterns_sound rfl rfl rfl
  · exact accumulatorPatterns_sound rfl rfl rfl
  · exact accumulatorPatterns_sound rfl rfl rfl
  · exact accumulatorPatterns_sound rfl rfl rfl
  · exact accumulatorPatterns_sound rfl rfl rfl
  · simp only [List.forall_mem_cons, List.not_mem_nil, false_implies, implies_true, and_true]
    refine ⟨?_, ?_, ?_, ?_⟩
    · exact (sound_binary_exactly rfl rfl rfl fun _ => rfl).relabel _ _
    · exact (sound_binary_exactly rfl rfl rfl fun _ =>
        GenericOp.compute_add_neg_one.symm).relabel _ _
    · exact (sound_binary_exactly rfl rfl rfl fun _ => rfl).relabel _ _
    · exact sound_binary_exactly rfl rfl rfl fun _ => rfl

theorem widePatterns_sound {bits : Nat} {add sub inc dec : Instruction}
    (sized : (ValueType.simple type).width? = some bits)
    (addAction : add.action = .combine .add bits) (subAction : sub.action = .combine .sub bits)
    (incAction : inc.action = .combineWith .add bits 1)
    (decAction : dec.action = .combineWith .sub bits 1) :
    ∀ pattern ∈ widePatterns type guard add sub inc dec, Sound processor pattern := by
  simp only [widePatterns, List.forall_mem_cons, List.not_mem_nil, false_implies, implies_true,
    and_true]
  refine ⟨?_, ?_, ?_, ?_, ?_⟩
  · exact sound_binary rfl (Or.inl rfl) sized addAction
  · exact sound_binary rfl (Or.inl rfl) sized subAction
  · exact (sound_binary_exactly rfl sized incAction fun _ => rfl).relabel _ _
  · exact (sound_binary_exactly rfl sized decAction fun _ =>
      GenericOp.compute_add_neg_one.symm).relabel _ _
  · exact (sound_binary_exactly rfl sized decAction fun _ => rfl).relabel _ _

theorem shiftPatterns_sound (processor : Processor) :
    ∀ pattern ∈ shiftPatterns, Sound processor pattern := by
  simp only [shiftPatterns, List.forall_mem_cons, List.not_mem_nil, false_implies, implies_true,
    and_true]
  exact ⟨sound_shift rfl rfl rfl, sound_shift rfl rfl rfl, sound_shift rfl rfl rfl,
    sound_shiftInOne rfl rfl, sound_binary rfl (Or.inl rfl) rfl rfl⟩

theorem returnPatterns_sound (processor : Processor) :
    ∀ pattern ∈ returnPatterns, Sound processor pattern := by
  simp only [returnPatterns, List.forall_mem_cons, List.not_mem_nil, false_implies, implies_true,
    and_true]
  exact ⟨sound_ret (Or.inl rfl) rfl, (sound_ret (Or.inr rfl) rfl).relabel _ _⟩

/-- Every pattern of the family is sound on every processor. -/
theorem patterns_sound (processor : Processor) : ∀ pattern ∈ patterns, Sound processor pattern := by
  simp only [patterns, List.forall_mem_append]
  refine ⟨⟨⟨⟨⟨⟨leafPatterns_sound processor, ?_⟩, bytePatterns_sound processor⟩, ?_⟩, ?_⟩,
    shiftPatterns_sound processor⟩, returnPatterns_sound processor⟩
  · intro pattern listed
    obtain ⟨width, isWidth, listed⟩ := List.mem_flatMap.mp listed
    exact WidthForms.memoryPatterns_sound processor (widths_moves width isWidth) pattern listed
  · exact widePatterns_sound rfl rfl rfl rfl rfl
  · exact widePatterns_sound rfl rfl rfl rfl rfl

end Z80

end DagSelect
