/-
Module: DagSelect.Proofs.Z80.Meaning
Purpose: What the instructions of the family compute, as their templates say, and the value of a
  graph that holds generic nodes and instructions. A value is found by going down its operands; an
  assignment of data to values that agrees with every node is what this finds, if the graph has no
  cycles.
Main exports: Action, Instruction.action, Action.meaning, nodeMeaning, Dag.evalAt, Dag.eval, Solves,
  evalAt_eq_of_solves, assignmentBelow, exists_solves
-/
import DagSelect.Proofs.Completeness
import DagSelect.Proofs.Typing
import DagSelect.Z80.Target

namespace DagSelect.Z80

variable {Token : Type}

/-! ### Instructions -/

/-- How an instruction gets the address that it works on. -/
inductive Addressing where
  /-- One operand holds it. -/
  | direct
  /-- It is the sum of two operands. -/
  | indexed
  deriving DecidableEq

/-- What an instruction does with its operands. -/
inductive Action where
  /-- Gives its operand. -/
  | move
  | load (type : SimpleType) (addressing : Addressing)
  | store (type : SimpleType) (addressing : Addressing)
  /-- Computes with two operands of a width. -/
  | combine (op : GenericOp) (bits : Nat)
  /-- Computes with one operand of a width and a number. -/
  | combineWith (op : GenericOp) (bits : Nat) (number : Int)
  /-- Shifts left and sets the lowest bit. -/
  | shiftInOne (bits : Nat)
  | ret
  deriving DecidableEq

/-- The action of an instruction. -/
def Instruction.action : Instruction → Action
  | .LD8ri | .LD16ri | .LD24ri => .move
  | .LD8am | .LD8gp => .load .i8 .direct
  | .LD16am | .LD16gp => .load .i16 .direct
  | .LD24am | .LD24gp => .load .i24 .direct
  | .LD8go => .load .i8 .indexed
  | .LD16go => .load .i16 .indexed
  | .LD24go => .load .i24 .indexed
  | .LD8ma | .LD8pg => .store .i8 .direct
  | .LD16ma | .LD16pg => .store .i16 .direct
  | .LD24ma | .LD24pg => .store .i24 .direct
  | .LD8og => .store .i8 .indexed
  | .LD16og => .store .i16 .indexed
  | .LD24og => .store .i24 .indexed
  | .LEA16ro | .ADD16fi => .combine .add 16
  | .LEA24ro => .combine .add 24
  | .ADD8ar | .ADD8ai => .combine .add 8
  | .ADD16aa => .combine .add 16
  | .ADD24aa => .combine .add 24
  | .SUB8ar | .SUB8ai => .combine .sub 8
  | .SBC16aa => .combine .sub 16
  | .SBC24aa => .combine .sub 24
  | .INC8r => .combineWith .add 8 1
  | .INC16r => .combineWith .add 16 1
  | .INC24r => .combineWith .add 24 1
  | .DEC8r => .combineWith .sub 8 1
  | .DEC16r => .combineWith .sub 16 1
  | .DEC24r => .combineWith .sub 24 1
  | .AND8ar | .AND8ai => .combine .and 8
  | .OR8ar | .OR8ai => .combine .or 8
  | .XOR8ar | .XOR8ai => .combine .xor 8
  | .CPL => .combineWith .xor 8 (-1)
  | .SLA8r => .combineWith .shl 8 1
  | .SRL8r => .combineWith .srl 8 1
  | .SRA8r => .combineWith .sra 8 1
  | .SLL8r => .shiftInOne 8
  | .MLT8rr => .combine .mul 8
  | .RET => .ret

/-- The address that is a sum, for pointers of a width. -/
def addressSum (bits : Nat) (base displacement : Datum Token) : Datum Token :=
  .int (GenericOp.compute .add bits base.number displacement.number)

/-- What an action gives for one of its results. Chains come first among the operands, then what is
stored, then the address. -/
def Action.meaning (environment : Environment Token) (pointerBits : Nat) (action : Action)
    (data : List (Datum Token)) (index : Nat) : Datum Token :=
  match action, data with
  | .move, [x] => x
  | .load type .direct, [chain, address] =>
    environment.load (.simple type) [chain, address] index
  | .load type .indexed, [chain, base, displacement] =>
    environment.load (.simple type) [chain, addressSum pointerBits base displacement] index
  | .store type .direct, [chain, value, address] =>
    environment.store (.simple type) [chain, value, address] index
  | .store type .indexed, [chain, value, base, displacement] =>
    environment.store (.simple type) [chain, value, addressSum pointerBits base displacement] index
  | .combine op bits, [x, y] => .int (op.compute bits x.number y.number)
  | .combineWith op bits number, [x] => .int (op.compute bits x.number number)
  | .shiftInOne bits, [x] =>
    .int (GenericOp.compute .or bits (GenericOp.compute .shl bits x.number 1) 1)
  | .ret, data => environment.apply (.generic .ret) data index
  | _, _ => .int 0

theorem Instruction.ofMachineOp?_toMachineOp (instruction : Instruction) :
    Instruction.ofMachineOp? instruction.toMachineOp = some instruction := by
  cases instruction <;> decide

/-! ### Graphs -/

/-- The width of a pointer. -/
def Processor.pointerBits (processor : Processor) : Nat :=
  match processor.mode with
  | .bits16 => 16
  | .bits24 => 24

theorem Processor.width?_pointerType (processor : Processor) :
    (ValueType.simple processor.pointerType).width? = some processor.pointerBits := by
  unfold Processor.pointerType Processor.pointerBits
  cases processor.mode <;> rfl

theorem Processor.sizeInBits_pointerType (processor : Processor) :
    processor.pointerType.sizeInBits = .ok processor.pointerBits := by
  unfold Processor.pointerType Processor.pointerBits
  cases processor.mode <;> rfl

/-- What an instruction of the graph gives for one of its results. Nothing is known of what is no
instruction of the family. -/
def machineMeaning (processor : Processor) (environment : Environment Token) (op : MachineOp)
    (data : List (Datum Token)) (index : Nat) : Datum Token :=
  match Instruction.ofMachineOp? op with
  | some instruction => instruction.action.meaning environment processor.pointerBits data index
  | none => environment.apply (.machine op) data index

theorem machineMeaning_toMachineOp (processor : Processor) (environment : Environment Token)
    (instruction : Instruction) :
    machineMeaning processor environment instruction.toMachineOp =
      instruction.action.meaning environment processor.pointerBits := by
  funext data index
  rw [machineMeaning, instruction.ofMachineOp?_toMachineOp]

/-- What a node gives for one of its results, from the types and the data of its operands. -/
def nodeMeaning (processor : Processor) (environment : Environment Token) (node : Node)
    (types : List ValueType) (data : List (Datum Token)) (index : Nat) : Datum Token :=
  Datum.ofType (node.results.getD index .chain) <|
    match node.opcode with
    | .generic op => op.meaning environment node.payload node.results types data index
    | .machine op => machineMeaning processor environment op data index

end DagSelect.Z80

namespace DagSelect

variable {Token : Type}

/-- The datum of a value, at most `depth` nodes deep. -/
def Dag.evalAt (dag : Dag) (processor : Z80.Processor) (environment : Environment Token) :
    Nat → Value → Option (Datum Token)
  | 0, _ => none
  | depth + 1, value => do
    let node ← dag.node? value.node
    let data ← node.operands.mapM (evalAt dag processor environment depth)
    return Z80.nodeMeaning processor environment node (node.operands.map dag.typeOf) data
      value.result

/-- The datum of a value. No way down a graph without cycles is longer than the number of nodes. -/
def Dag.eval (dag : Dag) (processor : Z80.Processor) (environment : Environment Token)
    (value : Value) : Option (Datum Token) :=
  dag.evalAt processor environment (dag.size + 1) value

/-! ### Assignments -/

/-- The assignment agrees with every node that is not dead. -/
def Solves (processor : Z80.Processor) (environment : Environment Token) (dag : Dag)
    (assignment : Value → Datum Token) : Prop :=
  ∀ id node, dag.shape.node? id = some node → node.state ≠ .dead →
    ∀ index, index < node.results.length →
      assignment ⟨id, index⟩ = Z80.nodeMeaning processor environment node
        (node.operands.map dag.typeOf) (node.operands.map assignment) index

theorem mapM_eq_some_map {α β : Type} {list : List α} {f : α → Option β} {g : α → β}
    (each : ∀ a ∈ list, f a = some (g a)) : list.mapM f = some (list.map g) := by
  induction list with
  | nil => rfl
  | cons head tail inductionHypothesis =>
      have headValue := each head (by simp)
      have tailValue := inductionHypothesis fun a member => each a (by simp [member])
      simp [List.mapM_cons, headValue, tailValue]

section Solves

variable {dag : Dag} {processor : Z80.Processor} {environment : Environment Token}
  {assignment : Value → Datum Token} {rank : NodeId → Nat}

/-- In a settled graph without cycles, going down from a value finds what the assignment gives it.
-/
theorem evalAt_eq_of_solves (solves : Solves processor environment dag assignment)
    (ranked : dag.Ranked rank) (counted : dag.Counted) (settled : dag.Settled) {depth : Nat}
    {value : Value} {node : Node} (deep : rank value.node < depth)
    (found : dag.node? value.node = some node) (notDead : node.state ≠ .dead)
    (bound : value.result < node.results.length) :
    dag.evalAt processor environment depth value = some (assignment value) := by
  induction depth generalizing value node with
  | zero => exact absurd deep (Nat.not_lt_zero _)
  | succ depth inductionHypothesis =>
      have operands : ∀ operand ∈ node.operands,
          dag.evalAt processor environment depth operand = some (assignment operand) := by
        intro operand member
        have listed : operand ∈ dag.operandsOf value.node :=
          Dag.mem_operandsOf.mpr ⟨node, found, member⟩
        have edge : dag.Depends value.node operand.node := ⟨operand, listed, rfl⟩
        have resolves := counted.operands value.node operand listed
        obtain ⟨operandNode, operandFound, operandAlive⟩ :=
          settled.exists_of_pointed resolves (Or.inl ⟨value.node, edge⟩)
        obtain ⟨same, sameFound, operandBound⟩ := resolves
        cases operandFound.symm.trans sameFound
        have lower := ranked value.node operand.node edge
        exact inductionHypothesis (Nat.lt_of_lt_of_le lower (Nat.lt_succ_iff.mp deep))
          operandFound operandAlive operandBound
      simp only [Dag.evalAt, found, Option.bind_eq_bind, Option.bind_some,
        mapM_eq_some_map operands, Option.pure_def, Option.some.injEq]
      exact (solves value.node node.shape (Dag.shape_found found) notDead value.result bound).symm

/-- In a graph with ranks, the data of the values below a rank: a node is given its values when its
operands have theirs. -/
def assignmentBelow (processor : Z80.Processor) (environment : Environment Token) (dag : Dag)
    (rank : NodeId → Nat) : Nat → Value → Datum Token
  | 0, _ => .int 0
  | bound + 1, value =>
    match dag.shape.node? value.node with
    | some node =>
      if rank value.node = bound then
        Z80.nodeMeaning processor environment node (node.operands.map dag.typeOf)
          (node.operands.map (assignmentBelow processor environment dag rank bound)) value.result
      else assignmentBelow processor environment dag rank bound value
    | none => .int 0

theorem assignmentBelow_succ_of_ne {bound : Nat} {value : Value} {node : Node}
    (found : dag.shape.node? value.node = some node) (other : rank value.node ≠ bound) :
    assignmentBelow processor environment dag rank (bound + 1) value =
      assignmentBelow processor environment dag rank bound value := by
  simp only [assignmentBelow, found, if_neg other]

/-- The data of the values below a rank agree with the nodes below it. -/
theorem assignmentBelow_eq (ranked : dag.Ranked rank) (counted : dag.Counted) {bound : Nat}
    {id : NodeId} {node : Node} (found : dag.shape.node? id = some node) (low : rank id < bound)
    (index : Nat) :
    assignmentBelow processor environment dag rank bound ⟨id, index⟩ =
      Z80.nodeMeaning processor environment node (node.operands.map dag.typeOf)
        (node.operands.map (assignmentBelow processor environment dag rank bound)) index := by
  induction bound with
  | zero => exact absurd low (Nat.not_lt_zero _)
  | succ bound inductionHypothesis =>
      have operands :
          node.operands.map (assignmentBelow processor environment dag rank (bound + 1)) =
            node.operands.map (assignmentBelow processor environment dag rank bound) := by
        apply List.map_congr_left
        intro operand member
        have edge : dag.Depends id operand.node :=
          Dag.depends_shape.mp (Dag.depends_of_mem found member)
        obtain ⟨operandNode, operandFound, _⟩ := counted.resolves_of_mem found member
        exact assignmentBelow_succ_of_ne (Dag.shape_found operandFound)
          (Nat.ne_of_lt (Nat.lt_of_lt_of_le (ranked id operand.node edge) (Nat.lt_succ_iff.mp low)))
      rw [operands]
      by_cases top : rank id = bound
      · simp only [assignmentBelow, found, if_pos top]
      · have lower : rank id < bound := Nat.lt_of_le_of_ne (Nat.lt_succ_iff.mp low) top
        rw [assignmentBelow_succ_of_ne found top]
        exact inductionHypothesis lower

/-- A graph without cycles has an assignment that agrees with all its nodes. -/
theorem exists_solves {bound : Nat} (ranked : dag.Ranked rank) (counted : dag.Counted)
    (bounded : ∀ id, rank id < bound) :
    ∃ assignment, Solves processor environment dag assignment :=
  ⟨assignmentBelow processor environment dag rank bound, fun id _ found _ index _ =>
    assignmentBelow_eq ranked counted found (bounded id) index⟩

end Solves

end DagSelect
