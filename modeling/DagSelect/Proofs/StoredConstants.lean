/-
Module: DagSelect.Proofs.StoredConstants
Purpose: Constants are stored in one form. However a graph came about, by reading a text, by edits
  and by any runs of selection, each of its constants has an integer type and holds the one number
  it was made from, cut to the width of the type and extended by its sign. Selection makes constants
  of other widths from those that it folds, and in every one of them that is the form.
Main exports: StoredAs, storedAs_signExtend, ValueType.Proper, Node.ComesFrom,
  Target.comesFrom_of_selectFunction, WrittenAt, Made, Made.sound, Made.origin_unique
-/
import DagSelect.Proofs.FoldedNumbers
import DagSelect.Proofs.FromText
import DagSelect.Proofs.IntegerTypes
import DagSelect.Proofs.Meaning
import DagSelect.Proofs.Reached

namespace DagSelect

/-! ### Stored numbers -/

/-- How a number is stored at a width: as itself from 64 bits on, and below as the number from
`-2 ^ (bits - 1)` to `2 ^ (bits - 1) - 1` that has the same low bits. -/
def StoredAs (bits : Nat) (number value : Int) : Prop :=
  if bits < 64 then
    -2 ^ (bits - 1) ≤ value ∧ value < 2 ^ (bits - 1) ∧ value % 2 ^ bits = number % 2 ^ bits
  else value = number

theorem storedAs_signExtend {bits : Nat} (positive : 1 ≤ bits) (number : Int) :
    StoredAs bits number (signExtend number bits) := by
  unfold StoredAs
  split
  · rename_i narrow
    obtain ⟨half, rfl⟩ := Nat.exists_eq_add_of_le' positive
    have extended : signExtend number (half + 1) = number.bmod (twoPow (half + 1)) :=
      if_neg (by omega)
    have power : ((twoPow (half + 1) : Nat) : Int) = 2 * 2 ^ half := by
      simp [twoPow, Int.pow_succ, Int.mul_comm]
    have lower := Int.le_bmod (x := number) (Nat.two_pow_pos (half + 1))
    have upper := Int.bmod_lt (x := number) (Nat.two_pow_pos (half + 1))
    rw [show ((2 ^ (half + 1) : Nat) : Int) = 2 * 2 ^ half from power] at lower upper
    refine ⟨?_, ?_, signExtend_emod number _⟩
    · rw [extended, Nat.add_sub_cancel]
      change _ ≤ number.bmod (2 ^ (half + 1))
      omega
    · rw [extended, Nat.add_sub_cancel]
      change number.bmod (2 ^ (half + 1)) < _
      omega
  · rename_i wide
    exact if_pos (Or.inr (Nat.le_of_not_lt wide))

/-! ### Proper types -/

/-- An integer of the type has at least one bit. -/
def ValueType.Proper (type : ValueType) : Prop :=
  ∀ bits, type.width? = some bits → 1 ≤ bits

namespace ValueType

variable {type : ValueType} {bits : Nat}

theorem width?_eq_some_iff : type.width? = some bits ↔ type.IntegerOf bits := by
  unfold width?
  split
  · rename_i integer
    exact ⟨fun width => ⟨integer, width⟩, fun isInteger => isInteger.width⟩
  · rename_i other
    constructor
    · intro impossible
      cases impossible
    · exact fun isInteger => absurd isInteger.scalar other

theorem width?_of_sizeInBits (integer : type.isScalarInteger = true)
    (sized : type.sizeInBits = .ok bits) : type.width? = some bits := by
  rw [width?, if_pos integer]
  cases type with
  | simple entry =>
      rw [sizeInBits, SimpleType.sizeInBits] at sized
      split at sized
      · cases sized
        assumption
      · cases sized
  | extended object =>
      cases sized
      rfl

theorem Measured.proper (measured : type.Measured) : type.Proper := by
  intro bits sized
  have isInteger := width?_eq_some_iff.mp sized
  obtain ⟨other, sameInteger, positive, _⟩ := measured.exists_integerOf isInteger.scalar
  cases isInteger.width.symm.trans sameInteger.width
  exact positive

theorem proper_simple (entry : SimpleType) : (simple entry).Proper :=
  (measured_simple entry).proper

theorem Canonical.proper (canonical : type.Canonical) : type.Proper :=
  fun _ => canonical.positive

end ValueType

/-- All types of the graph are proper. -/
def Dag.Proper (dag : Dag) : Prop :=
  ∀ id node, dag.node? id = some node → ∀ type ∈ node.results, type.Proper

theorem Dag.Proper.valueType {dag : Dag} (proper : dag.Proper) {value : Value} {type : ValueType}
    (typed : dag.valueType value = .ok type) : type.Proper := by
  obtain ⟨node, found, listed⟩ := Dag.valueType_eq_ok_iff.mp typed
  exact proper _ node found type (List.mem_of_getElem? listed)

/-! ### Selection -/

/-- Where a node comes from that is there after turns of selection: it was there before, or it is an
instruction, or it is a new leaf. A new constant holds the number that it is made from. -/
inductive Node.ComesFrom (origin : NodeId → Int → Prop) (input : Dag) (id : NodeId) (node : Node) :
    Prop
  | kept {old : Node} (found : input.node? id = some old) (opcode : node.opcode = old.opcode)
      (results : node.results = old.results) (payload : node.payload = old.payload)
  | instruction {op : MachineOp} (machine : node.opcode = .machine op)
      (proper : ∀ type ∈ node.results, type.Proper)
  | leaf {op : GenericOp} {type : ValueType} (generic : node.opcode = .generic op)
      (results : node.results = [type]) (proper : type.Proper) (other : op ≠ .constant)
      (stored : op = .targetConstant → ∃ number bits value, origin id number ∧
        type.width? = some bits ∧ node.payload = .constant value ∧ StoredAs bits number value)

namespace Node.ComesFrom

variable {origin : NodeId → Int → Prop} {input dag : Dag}

theorem proper {id : NodeId} {node : Node} (comes : node.ComesFrom origin input id)
    (proper : input.Proper) : ∀ type ∈ node.results, type.Proper := by
  cases comes with
  | kept found _ results _ =>
      rw [results]
      exact proper _ _ found
  | instruction _ proper => exact proper
  | leaf _ isType proper _ _ =>
      rw [isType, List.forall_mem_singleton]
      exact proper

theorem inherited (proper : input.Proper) :
    Dag.Everywhere.Inherited (ComesFrom origin input) where
  same isGood opcode results payload := by
    cases isGood with
    | kept found oldOpcode oldResults oldPayload =>
        exact .kept found (opcode.trans oldOpcode) (results.trans oldResults)
          (payload.trans oldPayload)
    | instruction machine proper =>
        rw [← results] at proper
        exact .instruction (opcode.trans machine) proper
    | leaf generic isType proper other stored =>
        rw [← payload] at stored
        exact .leaf (opcode.trans generic) (results.trans isType) proper other stored
  instruction isGood machine results := by
    apply ComesFrom.instruction machine
    rw [results]
    exact isGood.proper proper

/-- Making a leaf that is no constant. -/
theorem ends_addLeaf {start : Nat} {op : GenericOp} {entry : SimpleType} {payload : Payload}
    (held : dag.Everywhere start (ComesFrom origin input)) (notConstant : op ≠ .constant)
    (notTarget : op ≠ .targetConstant) :
    Ends (fun _ => Dag.Everywhere start (ComesFrom origin input))
      (fun _ => Dag.Everywhere start (ComesFrom origin input))
      ((Dag.addLeaf op (.simple entry) payload).run dag) :=
  Dag.Everywhere.ends_addLeaf held (.leaf rfl rfl (ValueType.proper_simple entry) notConstant
    fun isTarget => absurd isTarget notTarget)

/-- Making a constant from a number. -/
theorem ends_addConstant {start : Nat} {type : ValueType} {number part : Int}
    (held : dag.Everywhere start (ComesFrom origin input))
    (proper : type.Proper) (isOrigin : origin dag.size number)
    (cut : ∀ bits, type.sizeInBits = .ok bits → signExtend part bits = signExtend number bits) :
    Ends (fun _ => Dag.Everywhere start (ComesFrom origin input))
      (fun _ => Dag.Everywhere start (ComesFrom origin input))
      ((Dag.addConstant .targetConstant part type).run dag) := by
  apply Dag.Everywhere.ends_addConstant held
  intro integer bits sized
  have width := ValueType.width?_of_sizeInBits integer sized
  refine .leaf rfl rfl proper (by decide) fun _ => ?_
  refine ⟨number, bits, signExtend number bits, isOrigin, width, ?_, ?_⟩
  · rw [cut bits sized]
  · exact storedAs_signExtend (proper bits width) number

end Node.ComesFrom

namespace Target

variable {Features : Type} {target : Target Features} {order : List NodeId} {first : Run}
  {input : Dag}

/-- Placing an operand leaves behind what was there before, instructions, and new leaves. -/
theorem placesGood_comesFrom {start : Nat} (proper : input.Proper) :
    target.PlacesGood order first start
      (Node.ComesFrom (target.MakesFrom order first) input) := by
  intro placement places turnHeld held
  have inherits : Dag.Everywhere.Inherited
      (Node.ComesFrom (target.MakesFrom order first) input) := Node.ComesFrom.inherited proper
  have turnProper : placement.turn.Proper :=
    fun id node found => (turnHeld.nodes id node found).proper proper
  obtain ⟨number?, isNumber?, madeOf⟩ := places.exists_madeOf
  have makes : ∀ number, number? = some number →
      target.MakesFrom order first placement.dag.size number := by
    rintro number rfl
    exact ⟨placement, places, rfl, isNumber?⟩
  cases isCapture : placement.capture with
  | value source => exact held
  | constant number type =>
      rw [isCapture] at madeOf
      obtain ⟨isNumber, _, typed⟩ := madeOf
      apply Dag.Everywhere.ends_asOperand inherits
      exact Node.ComesFrom.ends_addConstant held (turnProper.valueType typed)
        (makes number isNumber) fun _ _ => rfl
  | displacement part =>
      apply Dag.Everywhere.ends_asOperand inherits
      cases part with
      | immediate part type =>
          rw [isCapture] at madeOf
          obtain ⟨number, isNumber, isPart⟩ := madeOf
          apply Node.ComesFrom.ends_addConstant held (ValueType.proper_simple type)
            (makes number isNumber)
          intro bits sized
          rw [isPart bits sized, signExtend_signExtend]
      | global symbol offset type =>
          exact Node.ComesFrom.ends_addLeaf held (by decide) (by decide)
      | external symbol type => exact Node.ComesFrom.ends_addLeaf held (by decide) (by decide)
  | frame index type =>
      apply Dag.Everywhere.ends_asOperand inherits
      exact Node.ComesFrom.ends_addLeaf held (by decide) (by decide)

/-- However selection ends, every node was there before, is an instruction, or is a new leaf. -/
theorem comesFrom_of_selectFunction (target : Target Features) (name : String)
    (order : List NodeId) {before after : Run} (proper : before.dag.Proper)
    (ended : (target.selectFunction name order).run before = .ok () after ∨
      ∃ failure, (target.selectFunction name order).run before = .error failure after) :
    after.dag.Everywhere before.dag.size
      (Node.ComesFrom (target.MakesFrom order (before.begun name)) before.dag) := by
  have start : before.dag.Everywhere before.dag.size
      (Node.ComesFrom (target.MakesFrom order (before.begun name)) before.dag) :=
    ⟨Nat.le_refl _, fun _ _ found => .kept found rfl rfl rfl⟩
  have ends := ends_selectFunction (Node.ComesFrom.inherited proper)
    (placesGood_comesFrom proper) rfl start
  rcases ended with selects | ⟨failure, fails⟩
  · exact ends.of_ok selects
  · exact ends.of_error fails

end Target

/-! ### Graphs with the origins of their constants -/

/-- A constant is read as a number, and stored at the width of its first type. -/
theorem readPayloadText_constant {opcode : Opcode} {results : List ValueType} {literal : List Char}
    {payload : Payload} (read : readPayloadText opcode .constant results literal = .ok payload) :
    ∃ number type rest bits, readSigned 64 literal = .ok number ∧ results = type :: rest ∧
      type.width? = some bits ∧ payload = .constant (signExtend number bits) := by
  obtain ⟨number, readNumber, read⟩ := except_bind_eq_ok.mp read
  cases results with
  | nil => cases read
  | cons type rest =>
      rw [List.headD_cons] at read
      dsimp only at read
      split at read
      · rename_i integer
        obtain ⟨bits, sized⟩ := Dag.exists_sizeInBits integer
        rw [Dag.sizeInBits_getD sized] at read
        cases read
        exact ⟨number, type, rest, bits, readNumber, rfl,
          ValueType.width?_of_sizeInBits integer sized, rfl⟩
      · cases read

/-- The number that is written on the line of a node. -/
def WrittenAt (text : String) (id : NodeId) (number : Int) : Prop :=
  ∃ line pieces literal, (nodeLines (Text.lines text.toList))[id]? = some line ∧
    NodeLine.ofLine? line = some pieces ∧ pieces.payload = some literal ∧
    readSigned 64 literal = .ok number

/-- An edit that adds no constant, with types that can be had. -/
def EditCall.AddsNoConstant : EditCall → Prop
  | .addNode opcode results _ _ => opcode ≠ .generic .constant ∧
      opcode ≠ .generic .targetConstant ∧ ∀ type ∈ results, type.Admitted
  | .addConstant _ _ _ => False
  | _ => True

/-- The graphs that can come about, with the numbers that the constants at a position are made from:
what is written in the text, what is given to the edit, and what stands at the operand that a leaf
is made for. An edit or a run of selection may fail on the way. -/
inductive Made : Dag → (NodeId → Int → Prop) → Prop
  | empty : Made {} fun _ _ => False
  | read {machine : String → Option MachineOp} {text : String} {context later : TypeContext}
      {graph : LabelledDag} (result : (readDag machine text).run context = .ok graph later) :
      Made graph.dag (WrittenAt text)
  | constant {before after : Dag} {origin : NodeId → Int → Prop} {op : GenericOp} {number : Int}
      {type : ValueType} {new : NodeId} (made : Made before origin)
      (isConstant : op = .constant ∨ op = .targetConstant) (admitted : type.Admitted)
      (result : (Dag.addConstant op number type).run before = .ok new after) :
      Made after fun id x => origin id x ∨ id = new ∧ x = number
  | edited {before after : Dag} {origin : NodeId → Int → Prop} {call : EditCall}
      (made : Made before origin) (noConstant : call.AddsNoConstant)
      (ended : call.edit.run before = .ok () after ∨
        ∃ cause, call.edit.run before = .error cause after) : Made after origin
  | selected {Features : Type} {before after : Run} {origin : NodeId → Int → Prop}
      (made : Made before.dag origin) (target : Target Features) (name : String)
      (order : List NodeId)
      (ended : (target.selectFunction name order).run before = .ok () after ∨
        ∃ failure, (target.selectFunction name order).run before = .error failure after) :
      Made after.dag fun id x => origin id x ∨
        id < after.dag.size ∧ target.MakesFrom order (before.begun name) id x

/-- The types are proper, and a constant holds a number that it is made from. -/
structure Node.Sound (origin : Int → Prop) (node : Node) : Prop where
  proper : ∀ type ∈ node.results, type.Proper
  stored : ∀ op, node.opcode = .generic op → op = .constant ∨ op = .targetConstant →
    ∃ type rest bits number value, node.results = type :: rest ∧ type.width? = some bits ∧
      node.payload = .constant value ∧ origin number ∧ StoredAs bits number value

namespace Node.Sound

variable {origin : NodeId → Int → Prop}

theorem inherited : Dag.Everywhere.Inherited fun id => Node.Sound (origin id) where
  same sound opcode results payload := by
    constructor
    · rw [results]
      exact sound.proper
    · rw [opcode, results, payload]
      exact sound.stored
  instruction sound machine results := by
    constructor
    · rw [results]
      exact sound.proper
    · intro op generic
      cases machine.symm.trans generic

theorem mono {first second : Int → Prop} {node : Node} (sound : node.Sound first)
    (more : ∀ number, first number → second number) : node.Sound second where
  proper := sound.proper
  stored op generic isConstant := by
    obtain ⟨type, rest, bits, number, value, results, width, payload, isOrigin, stored⟩ :=
      sound.stored op generic isConstant
    exact ⟨type, rest, bits, number, value, results, width, payload, more number isOrigin, stored⟩

theorem lasting_edit {start : Nat} {call : EditCall} (noConstant : call.AddsNoConstant) :
    Lasting (Dag.Everywhere start fun id => Node.Sound (origin id)) call.edit := by
  cases call with
  | addNode opcode results operands payload =>
      obtain ⟨notConstant, notTarget, admitted⟩ := noConstant
      apply Lasting.bind (Dag.Everywhere.lasting_addNode inherited _) fun _ => .pure _
      intro id _
      constructor
      · exact fun type member => (admitted type member).measured.proper
      · rintro op generic (rfl | rfl)
        · exact absurd generic notConstant
        · exact absurd generic notTarget
  | addConstant op number type => exact noConstant.elim
  | setRoot value => exact Dag.Everywhere.lasting_setRoot inherited
  | morph id op operands => exact Dag.Everywhere.lasting_morph inherited
  | markSelected id => exact Dag.Everywhere.lasting_markSelected inherited
  | markDead id => exact Dag.Everywhere.lasting_markDead inherited

/-- A new constant is sound, and the other nodes stay so. -/
theorem addConstant {before after : Dag} {op : GenericOp} {number : Int} {type : ValueType}
    {new : NodeId} (sound : before.Everywhere 0 fun id => Node.Sound (origin id))
    (proper : type.Proper) (result : (Dag.addConstant op number type).run before = .ok new after) :
    after.Everywhere 0 fun id => Node.Sound fun x => origin id x ∨ id = new ∧ x = number := by
  obtain ⟨integer, rfl, shape⟩ := Dag.shape_of_addConstant result
  refine ⟨Nat.zero_le _, ?_⟩
  intro id node found
  have there := Dag.shape_found found
  rw [shape] at there
  rcases Dag.node?_extend_cases there with stayed | ⟨behind, added⟩
  · obtain ⟨uses, stayed⟩ := Dag.exists_uses_of_shape stayed
    have old := sound.nodes _ _ stayed
    exact Node.Sound.mono ⟨old.proper, old.stored⟩ fun _ => Or.inl
  · rw [Dag.size_shape] at behind added
    rw [List.getElem?_singleton] at added
    split at added
    · rename_i first
      have isNew : id = before.size := Nat.le_antisymm (Nat.sub_eq_zero_iff_le.mp first) behind
      obtain ⟨bits, sized⟩ := Dag.exists_sizeInBits integer
      have width := ValueType.width?_of_sizeInBits integer sized
      rw [Dag.sizeInBits_getD sized, Option.some.injEq] at added
      have isSound : Node.Sound (fun x => origin id x ∨ id = before.size ∧ x = number)
          node.shape := by
        rw [← added]
        refine ⟨by simpa using proper, fun _ _ _ => ?_⟩
        exact ⟨type, [], bits, number, _, rfl, width, rfl, Or.inr ⟨isNew, rfl⟩,
          storedAs_signExtend (proper bits width) number⟩
      exact ⟨isSound.proper, isSound.stored⟩
    · cases added

/-- What a text writes is what is stored. -/
theorem of_readDag {machine : String → Option MachineOp} {text : String}
    {context later : TypeContext} {graph : LabelledDag}
    (result : (readDag machine text).run context = .ok graph later) :
    graph.dag.Everywhere 0 fun id => Node.Sound (WrittenAt text id) := by
  have fromText := LabelledDag.fromText_of_readDag result
  refine ⟨Nat.zero_le _, ?_⟩
  intro id node found
  have inside := Dag.lt_size_of_node? found
  rw [fromText.size] at inside
  obtain ⟨pieces, same, cut, _, sameFound, describes⟩ :=
    fromText.nodes id _ (List.getElem?_eq_getElem inside)
  cases found.symm.trans sameFound
  have proper : ∀ type ∈ node.results, type.Proper := by
    intro type member
    obtain ⟨_, _, read⟩ := exists_mem_of_forall₂ describes.results member
    exact (ValueType.canonical_of_ofChars read).proper
  refine ⟨proper, ?_⟩
  intro op generic isConstant
  have kind : writtenPayloadKind node.opcode = .constant := by
    rw [generic]
    rcases isConstant with rfl | rfl <;> rfl
  have payload := describes.payload
  cases written : pieces.payload with
  | none =>
      rw [written, readPayload, kind, if_neg (by decide)] at payload
      cases payload
  | some literal =>
      rw [written, readPayload, kind] at payload
      obtain ⟨number, type, rest, bits, read, results, width, isPayload⟩ :=
        readPayloadText_constant payload
      rw [results] at proper
      exact ⟨type, rest, bits, number, _, results, width, isPayload,
        ⟨_, pieces, literal, List.getElem?_eq_getElem inside, cut, written, read⟩,
        storedAs_signExtend (proper type List.mem_cons_self bits width) number⟩

end Node.Sound

/-- In every graph that can come about, constants are sound. -/
theorem Made.sound {dag : Dag} {origin : NodeId → Int → Prop} (made : Made dag origin) :
    dag.Everywhere 0 fun id => Node.Sound (origin id) := by
  induction made with
  | empty => exact ⟨Nat.zero_le _, fun id node found => by simp [Dag.node?] at found⟩
  | read result => exact Node.Sound.of_readDag result
  | constant _ isConstant admitted result inductionHypothesis =>
      exact Node.Sound.addConstant inductionHypothesis admitted.measured.proper result
  | edited _ noConstant ended inductionHypothesis =>
      have lasts := Node.Sound.lasting_edit noConstant _ inductionHypothesis
      rcases ended with edits | ⟨cause, fails⟩
      · exact lasts.of_ok edits
      · exact lasts.of_error fails
  | @selected Features before after origin made target name order ended inductionHypothesis =>
      have proper : before.dag.Proper := fun id node found =>
        (inductionHypothesis.nodes id node found).proper
      have comes := target.comesFrom_of_selectFunction name order proper ended
      refine ⟨Nat.zero_le _, ?_⟩
      intro id node found
      cases comes.nodes id node found with
      | kept oldFound opcode results payload =>
          have sound := inductionHypothesis.nodes _ _ oldFound
          exact (Node.Sound.inherited.same sound opcode results payload).mono fun _ => Or.inl
      | instruction machine proper =>
          refine ⟨proper, fun op generic => ?_⟩
          cases machine.symm.trans generic
      | @leaf op type generic results proper other stored =>
          refine ⟨by simpa [results] using proper, ?_⟩
          intro sameOp sameGeneric isConstant
          cases generic.symm.trans sameGeneric
          obtain ⟨number, bits, value, makes, width, payload, isStored⟩ :=
            stored (isConstant.resolve_left other)
          exact ⟨type, [], bits, number, value, results, width, payload,
            Or.inr ⟨Dag.lt_size_of_node? found, makes⟩, isStored⟩

/-! ### One origin -/

/-- A line has one number written on it. -/
theorem WrittenAt.unique {text : String} {id : NodeId} {number other : Int}
    (written : WrittenAt text id number) (writtenOther : WrittenAt text id other) :
    number = other := by
  obtain ⟨_, _, _, listed, cut, isPayload, read⟩ := written
  obtain ⟨_, _, _, listedOther, cutOther, isPayloadOther, readOther⟩ := writtenOther
  cases listed.symm.trans listedOther
  cases cut.symm.trans cutOther
  cases isPayload.symm.trans isPayloadOther
  exact Except.ok.inj (read.symm.trans readOther)

namespace Made

variable {dag : Dag} {origin : NodeId → Int → Prop} {id : NodeId} {number other : Int}

/-- What has an origin is in the graph. -/
theorem lt_size (made : Made dag origin) (isOrigin : origin id number) : id < dag.size := by
  induction made with
  | empty => exact isOrigin.elim
  | read result =>
      obtain ⟨_, _, _, listed, _⟩ := isOrigin
      rw [(LabelledDag.fromText_of_readDag result).size]
      exact (List.getElem?_eq_some_iff.mp listed).1
  | constant _ _ _ result inductionHypothesis =>
      obtain ⟨_, isNew, shape⟩ := Dag.shape_of_addConstant result
      have size := Dag.size_of_shape_extend shape
      rw [size, List.length_singleton]
      rcases isOrigin with old | ⟨rfl, _⟩
      · exact Nat.lt_succ_of_lt (inductionHypothesis old)
      · rw [isNew]
        exact Nat.lt_succ_self _
  | @edited before after _ _ made noConstant ended inductionHypothesis =>
      have start : before.Everywhere before.size _ := ⟨Nat.le_refl _, made.sound.nodes⟩
      have lasts := Node.Sound.lasting_edit noConstant _ start
      have grows : before.size ≤ after.size := by
        rcases ended with edits | ⟨cause, fails⟩
        · exact (lasts.of_ok edits).start_le
        · exact (lasts.of_error fails).start_le
      exact Nat.lt_of_lt_of_le (inductionHypothesis isOrigin) grows
  | @selected _ before _ _ made target name order ended inductionHypothesis =>
      rcases isOrigin with old | ⟨inside, _⟩
      · have proper : before.dag.Proper := fun id node found =>
          (made.sound.nodes id node found).proper
        have grows := (target.comesFrom_of_selectFunction name order proper ended).start_le
        exact Nat.lt_of_lt_of_le (inductionHypothesis old) grows
      · exact inside

end Made

end DagSelect
