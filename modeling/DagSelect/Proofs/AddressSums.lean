/-
Module: DagSelect.Proofs.AddressSums
Purpose: Folding a sum as an address does not depend on the order of its operands. The right operand
  is tried first, so the two orders may fold different sides; but if only one side is absolute they
  give the same address, and if both are, they give addresses that stand for the same number, which
  is the number of the sum. The one exception is an integer constant beside a symbol where folded
  constants have no width: the symbol is folded only if it is tried first.
Main exports: Dag.Adds, Absolute, Unanswered, foldBased_eq_foldSum, foldBased_eq_some_iff,
  Dag.Stands, BasedAddress.Stands, address_sums_commute
-/
import DagSelect.Proofs.Finding
import DagSelect.Proofs.Meaning
import DagSelect.Proofs.Reached

namespace DagSelect

/-- The value is a sum of two operands. -/
def Dag.Adds (dag : Dag) (value left right : Value) : Prop :=
  ∃ node, dag.node? value.node = some node ∧ node.opcode = .generic .add ∧
    node.operands = [left, right]

/-- The value can be folded as an absolute address. -/
def Absolute (dag : Dag) (types : AddressTypes) (value : Value) : Prop :=
  ∃ displacement, foldAbsolute dag types value = .ok (some displacement)

/-- An integer constant, where folded constants have no width. -/
def Unanswered (dag : Dag) (types : AddressTypes) (value : Value) : Prop :=
  types.immediate.isSized = false ∧ ∃ node number type, dag.node? value.node = some node ∧
    node.opcode = .generic .constant ∧ node.payload = .constant number ∧
    dag.valueType value = .ok type ∧ type.isScalarInteger = true

section Folding

variable {dag : Dag} {types : AddressTypes} {value left right : Value}
  {displacement : Displacement}

theorem foldBased_eq_foldSum (adds : dag.Adds value left right) :
    foldBased dag types value = foldSum dag types left right := by
  obtain ⟨node, found, opcode, operands⟩ := adds
  have noSlot : frameSlot dag value = .ok none := by
    simp only [frameSlot, Dag.fetch_eq_ok_iff.mpr found, opcode, bind, Except.bind]
    rfl
  simp only [foldBased, noSlot, Dag.fetch_eq_ok_iff.mpr found, opcode, operands, bind, Except.bind]

/-- A value of the graph is absolute, or is not, or the question has no answer. -/
theorem absolute_or (resolves : dag.Resolves value) :
    Absolute dag types value ∨ foldAbsolute dag types value = .ok none ∨
      Unanswered dag types value := by
  obtain ⟨node, found, inside⟩ := resolves
  have typed := Dag.valueType_eq_ok_iff.mpr ⟨node, found, List.getElem?_eq_getElem inside⟩
  unfold Absolute foldAbsolute
  simp only [Dag.fetch_eq_ok_iff.mpr found, bind, Except.bind]
  split
  · rename_i number opcode payload
    simp only [typed]
    split
    · rename_i scalar
      cases width : types.immediate.bits? with
      | some bits =>
          simp only [SimpleType.sizeInBits, width]
          exact Or.inl ⟨_, rfl⟩
      | none =>
          have unsized : types.immediate.isSized = false := by rw [SimpleType.isSized, width]; rfl
          exact Or.inr (Or.inr ⟨unsized, node, number, _, found, opcode, payload, typed, scalar⟩)
    · exact Or.inr (Or.inl rfl)
  · exact Or.inl ⟨_, rfl⟩
  · exact Or.inl ⟨_, rfl⟩
  · exact Or.inr (Or.inl rfl)

theorem exists_baseOf (resolves : dag.Resolves value) : ∃ base, baseOf dag value = .ok base := by
  obtain ⟨node, found, _⟩ := resolves
  have slot : ∃ slot, frameSlot dag value = .ok slot := by
    unfold frameSlot
    simp only [Dag.fetch_eq_ok_iff.mpr found, bind, Except.bind]
    split <;> exact ⟨_, rfl⟩
  obtain ⟨slot, isSlot⟩ := slot
  unfold baseOf
  simp only [isSlot, bind, Except.bind]
  cases slot <;> exact ⟨_, rfl⟩

/-- An absolute value is no stack slot. -/
theorem baseOf_of_absolute (absolute : Absolute dag types value) :
    baseOf dag value = .ok (.register value) := by
  obtain ⟨displacement, folded⟩ := absolute
  cases absoluteFold_of_eq folded with
  | immediate found opcode _ _ _ _ =>
      simp only [baseOf, frameSlot, Dag.fetch_eq_ok_iff.mpr found, opcode, bind, Except.bind]
      rfl
  | global found opcode _ =>
      simp only [baseOf, frameSlot, Dag.fetch_eq_ok_iff.mpr found, opcode, bind, Except.bind]
      rfl
  | external found opcode _ =>
      simp only [baseOf, frameSlot, Dag.fetch_eq_ok_iff.mpr found, opcode, bind, Except.bind]
      rfl

theorem foldSum_of_right {base : AddressBase}
    (folded : foldAbsolute dag types right = .ok (some displacement))
    (based : baseOf dag left = .ok base) :
    foldSum dag types left right = .ok (some (.sum base right displacement)) := by
  simp only [foldSum, folded, based, bind, Except.bind]
  rfl

theorem foldSum_of_left {base : AddressBase} (other : foldAbsolute dag types right = .ok none)
    (folded : foldAbsolute dag types left = .ok (some displacement))
    (based : baseOf dag right = .ok base) :
    foldSum dag types left right = .ok (some (.sum base left displacement)) := by
  simp only [foldSum, other, folded, based, bind, Except.bind]
  rfl

/-- A sum is folded exactly if one of its sides is absolute. The left side is asked only if the right
side has an answer. -/
theorem foldBased_eq_some_iff (adds : dag.Adds value left right) (leftResolves : dag.Resolves left)
    (rightResolves : dag.Resolves right)
    (answered : ¬ (Unanswered dag types right ∧ Absolute dag types left)) :
    (∃ address, foldBased dag types value = .ok (some address)) ↔
      Absolute dag types left ∨ Absolute dag types right := by
  constructor
  · rintro ⟨address, folded⟩
    obtain ⟨node, found, opcode, operands⟩ := adds
    cases basedFold_of_eq folded with
    | slot sameFound otherOpcode =>
        cases found.symm.trans sameFound
        cases opcode.symm.trans otherOpcode
    | right sameFound _ sameOperands absolute =>
        cases found.symm.trans sameFound
        cases operands.symm.trans sameOperands
        exact Or.inr ⟨_, foldAbsolute_eq_of_fold absolute⟩
    | left sameFound _ sameOperands absolute =>
        cases found.symm.trans sameFound
        cases operands.symm.trans sameOperands
        exact Or.inl ⟨_, foldAbsolute_eq_of_fold absolute⟩
  · intro absolute
    rw [foldBased_eq_foldSum adds]
    obtain ⟨leftBase, leftBased⟩ := exists_baseOf leftResolves
    obtain ⟨rightBase, rightBased⟩ := exists_baseOf rightResolves
    rcases absolute_or rightResolves with ⟨displacement, folded⟩ | other | unanswered
    · exact ⟨_, foldSum_of_right folded leftBased⟩
    · rcases absolute with ⟨displacement, folded⟩ | ⟨displacement, folded⟩
      · exact ⟨_, foldSum_of_left other folded rightBased⟩
      · exact ⟨_, foldSum_of_right folded leftBased⟩
    · rcases absolute with absolute | ⟨displacement, folded⟩
      · exact absurd ⟨unanswered, absolute⟩ answered
      · exact ⟨_, foldSum_of_right folded leftBased⟩

/-- If one side is absolute and the other is not, both orders give one address. -/
theorem foldBased_swap {other : Value} (adds : dag.Adds value left right)
    (otherAdds : dag.Adds other right left) (resolves : dag.Resolves right)
    (absolute : Absolute dag types left) (notAbsolute : ¬ Absolute dag types right)
    (answered : ¬ (Unanswered dag types right ∧ Absolute dag types left)) :
    ∃ address, foldBased dag types value = .ok (some address) ∧
      foldBased dag types other = .ok (some address) := by
  rw [foldBased_eq_foldSum adds, foldBased_eq_foldSum otherAdds]
  obtain ⟨base, based⟩ := exists_baseOf resolves
  rcases absolute_or resolves with absoluteToo | none | unanswered
  · exact absurd absoluteToo notAbsolute
  · obtain ⟨displacement, folded⟩ := absolute
    exact ⟨.sum base left displacement, foldSum_of_left none folded based,
      foldSum_of_right folded based⟩
  · exact absurd ⟨unanswered, absolute⟩ answered

/-- If both sides are absolute, the right one is the displacement of the left one. -/
theorem foldBased_of_absolute (adds : dag.Adds value left right)
    (absolute : Absolute dag types left)
    (folded : foldAbsolute dag types right = .ok (some displacement)) :
    foldBased dag types value = .ok (some (.sum (.register left) right displacement)) := by
  rw [foldBased_eq_foldSum adds]
  exact foldSum_of_right folded (baseOf_of_absolute absolute)

end Folding

/-! ### What sums stand for -/

variable {Token : Type}

/-- The number that a value of the graph stands for, at the width of its type: a leaf stands for its
payload, and a sum for the sum of its operands. -/
inductive Dag.Stands (environment : Environment Token) (dag : Dag) : Value → Int → Prop
  | leaf {value : Value} {node : Node} {op : GenericOp} {type : ValueType} {bits : Nat}
      (found : dag.node? value.node = some node) (opcode : node.opcode = .generic op)
      (leaf : op.targetLeaf?.isSome = true) (typed : dag.valueType value = .ok type)
      (sized : type.sizeInBits = .ok bits) :
      Stands environment dag value ((node.payload.datum environment).number % 2 ^ bits)
  | sum {value left right : Value} {type : ValueType} {bits : Nat} {x y : Int}
      (adds : dag.Adds value left right) (typed : dag.valueType value = .ok type)
      (sized : type.sizeInBits = .ok bits) (leftStands : Stands environment dag left x)
      (rightStands : Stands environment dag right y) :
      Stands environment dag value (GenericOp.compute .add bits x y)

/-- A value stands for one number. -/
theorem Dag.Stands.unique {environment : Environment Token} {dag : Dag} {value : Value} {x y : Int}
    (stands : dag.Stands environment value x) (other : dag.Stands environment value y) : x = y := by
  induction stands generalizing y with
  | leaf found opcode leaf typed sized =>
      cases other with
      | leaf sameFound _ _ otherTyped otherSized =>
          cases found.symm.trans sameFound
          cases typed.symm.trans otherTyped
          cases sized.symm.trans otherSized
          rfl
      | sum adds =>
          obtain ⟨node, sameFound, sum, _⟩ := adds
          cases found.symm.trans sameFound
          cases opcode.symm.trans sum
          cases leaf
  | sum adds typed sized _ _ leftUnique rightUnique =>
      obtain ⟨node, found, opcode, operands⟩ := adds
      cases other with
      | leaf sameFound otherOpcode leaf =>
          cases found.symm.trans sameFound
          cases opcode.symm.trans otherOpcode
          cases leaf
      | sum otherAdds otherTyped otherSized leftStands rightStands =>
          obtain ⟨_, sameFound, _, sameOperands⟩ := otherAdds
          cases found.symm.trans sameFound
          cases operands.symm.trans sameOperands
          cases typed.symm.trans otherTyped
          cases sized.symm.trans otherSized
          rw [leftUnique leftStands, rightUnique rightStands]

theorem Dag.Stands.iff {environment : Environment Token} {dag : Dag} {value : Value} {number : Int}
    (stands : dag.Stands environment value number) (x : Int) :
    dag.Stands environment value x ↔ x = number := by
  constructor
  · exact fun other => other.unique stands
  · intro same
    rw [same]
    exact stands

/-- The number of a displacement. -/
def Displacement.number (environment : Environment Token) : Displacement → Int
  | .immediate value _ => value
  | .global symbol offset _ => environment.symbol symbol + offset
  | .external symbol _ => environment.external symbol

/-- The number of the base of an address. -/
def AddressBase.Stands (environment : Environment Token) (dag : Dag) (number : Int) :
    AddressBase → Prop
  | .register value => dag.Stands environment value number
  | .frame index => number = environment.frame index

/-- The number of an address of a width. -/
def BasedAddress.Stands (environment : Environment Token) (dag : Dag) (bits : Nat) (number : Int)
    (address : BasedAddress) : Prop :=
  ∃ base, address.base.Stands environment dag base ∧
    number = (base + address.displacement.number environment) % 2 ^ bits

theorem GenericOp.compute_add_eq {bits : Nat} {x y : Int} :
    GenericOp.compute .add bits x y = (x + y) % 2 ^ bits := by
  have power : ((2 ^ bits : Nat) : Int) = 2 ^ bits := by norm_cast
  have positive : (0 : Int) < 2 ^ bits := Int.pow_pos (by decide)
  simp only [compute, ← BitVec.ofInt_add, BitVec.toNat_ofInt, power]
  exact Int.toNat_of_nonneg (Int.emod_nonneg _ (Int.ne_of_gt positive))

section Pointers

variable (environment : Environment Token) {dag : Dag} {types : AddressTypes} {bits : Nat}
  (sized : types.pointer.sizeInBits = .ok bits) (same : types.pointer = types.immediate)

include sized same

/-- An absolute pointer stands for its displacement. -/
theorem stands_of_absolute {value : Value} {displacement : Displacement}
    (typed : dag.valueType value = .ok (.simple types.pointer))
    (folded : foldAbsolute dag types value = .ok (some displacement)) :
    dag.Stands environment value (displacement.number environment % 2 ^ bits) := by
  cases absoluteFold_of_eq folded with
  | @immediate node number _ _ found opcode payload _ _ immediateSized =>
      rw [← same] at immediateSized
      cases sized.symm.trans immediateSized
      have stands : dag.Stands environment value _ := .leaf found opcode rfl typed sized
      rw [payload] at stands
      rw [Displacement.number, signExtend_emod]
      exact stands
  | global found opcode payload =>
      have stands : dag.Stands environment value _ := .leaf found opcode rfl typed sized
      rw [payload] at stands
      exact stands
  | external found opcode payload =>
      have stands : dag.Stands environment value _ := .leaf found opcode rfl typed sized
      rw [payload] at stands
      exact stands

/-- A sum of two absolute pointers and the address it is folded as stand for the sum of the
displacements. -/
theorem foldBased_stands {value left right : Value} {leftDisplacement rightDisplacement : Displacement}
    (adds : dag.Adds value left right) (typed : dag.valueType value = .ok (.simple types.pointer))
    (leftTyped : dag.valueType left = .ok (.simple types.pointer))
    (rightTyped : dag.valueType right = .ok (.simple types.pointer))
    (leftFolded : foldAbsolute dag types left = .ok (some leftDisplacement))
    (rightFolded : foldAbsolute dag types right = .ok (some rightDisplacement)) :
    dag.Stands environment value
      ((leftDisplacement.number environment + rightDisplacement.number environment) % 2 ^ bits) ∧
    (BasedAddress.sum (.register left) right rightDisplacement).Stands environment dag bits
      ((leftDisplacement.number environment + rightDisplacement.number environment) % 2 ^ bits) := by
  have leftStands := stands_of_absolute environment sized same leftTyped leftFolded
  have rightStands := stands_of_absolute environment sized same rightTyped rightFolded
  constructor
  · have stands := Dag.Stands.sum adds typed sized leftStands rightStands
    rw [GenericOp.compute_emod_left, GenericOp.compute_emod_right rfl,
      GenericOp.compute_add_eq] at stands
    exact stands
  · refine ⟨_, leftStands, ?_⟩
    simp only [BasedAddress.displacement, Int.emod_add_emod]

end Pointers

/-- Folding a sum does not depend on the order of its operands. Both orders are folded if one side is
absolute; if only one is, as the same address; and if both are pointers that are absolute, as
addresses that stand for what the sum stands for. An integer constant beside an absolute side needs
a width for folded constants. -/
theorem address_sums_commute {dag : Dag} {types : AddressTypes} {first second left right : Value}
    (firstAdds : dag.Adds first left right) (secondAdds : dag.Adds second right left)
    (leftResolves : dag.Resolves left) (rightResolves : dag.Resolves right)
    (leftAnswered : ¬ (Unanswered dag types left ∧ Absolute dag types right))
    (rightAnswered : ¬ (Unanswered dag types right ∧ Absolute dag types left)) :
    ((∃ address, foldBased dag types first = .ok (some address)) ↔
      Absolute dag types left ∨ Absolute dag types right) ∧
    ((∃ address, foldBased dag types second = .ok (some address)) ↔
      Absolute dag types left ∨ Absolute dag types right) ∧
    (Xor (Absolute dag types left) (Absolute dag types right) →
      ∃ address, foldBased dag types first = .ok (some address) ∧
        foldBased dag types second = .ok (some address)) ∧
    ∀ bits, Absolute dag types left → Absolute dag types right →
      types.pointer.sizeInBits = .ok bits → types.pointer = types.immediate →
      (∀ value ∈ [left, right, first, second],
        dag.valueType value = .ok (.simple types.pointer)) →
      ∃ address other, foldBased dag types first = .ok (some address) ∧
        foldBased dag types second = .ok (some other) ∧
        ∀ {Token : Type} (environment : Environment Token), ∃ number,
          (∀ x, dag.Stands environment first x ↔ x = number) ∧
          (∀ x, dag.Stands environment second x ↔ x = number) ∧
          address.Stands environment dag bits number ∧
          other.Stands environment dag bits number := by
  refine ⟨foldBased_eq_some_iff firstAdds leftResolves rightResolves rightAnswered, ?_, ?_, ?_⟩
  · rw [foldBased_eq_some_iff secondAdds rightResolves leftResolves leftAnswered, or_comm]
  · intro exactlyOne
    rcases exactlyOne with ⟨absolute, other⟩ | ⟨absolute, other⟩
    · exact foldBased_swap firstAdds secondAdds rightResolves absolute other rightAnswered
    · obtain ⟨address, secondFolded, firstFolded⟩ :=
        foldBased_swap secondAdds firstAdds leftResolves absolute other leftAnswered
      exact ⟨address, firstFolded, secondFolded⟩
  · intro bits leftAbsolute rightAbsolute sized same typed
    simp only [List.forall_mem_cons] at typed
    obtain ⟨leftTyped, rightTyped, firstTyped, secondTyped, _⟩ := typed
    obtain ⟨leftDisplacement, leftFolded⟩ := leftAbsolute
    obtain ⟨rightDisplacement, rightFolded⟩ := rightAbsolute
    refine ⟨_, _, foldBased_of_absolute firstAdds ⟨_, leftFolded⟩ rightFolded,
      foldBased_of_absolute secondAdds ⟨_, rightFolded⟩ leftFolded, ?_⟩
    intro Token environment
    have firstStands := foldBased_stands environment sized same firstAdds firstTyped leftTyped
      rightTyped leftFolded rightFolded
    have secondStands := foldBased_stands environment sized same secondAdds secondTyped rightTyped
      leftTyped rightFolded leftFolded
    rw [Int.add_comm] at secondStands
    exact ⟨_, firstStands.1.iff, secondStands.1.iff, firstStands.2, secondStands.2⟩

/-- A constant and a symbol, added in both orders. -/
def constantAndSymbol : Dag where
  nodes := [
    ⟨.generic .constant, [.simple .i16], [], .constant 5, .unvisited, 2⟩,
    ⟨.generic .globalAddress, [.simple .i16], [], .global "g" 0, .unvisited, 2⟩,
    ⟨.generic .add, [.simple .i16], [⟨0, 0⟩, ⟨1, 0⟩], .none, .unvisited, 0⟩,
    ⟨.generic .add, [.simple .i16], [⟨1, 0⟩, ⟨0, 0⟩], .none, .unvisited, 0⟩]

theorem reached_constantAndSymbol : Reached constantAndSymbol :=
  @Reached.edits _ _ .empty
    [.addConstant .constant 5 (.simple .i16),
     .addNode (.generic .globalAddress) [.simple .i16] [] (.global "g" 0),
     .addNode (.generic .add) [.simple .i16] [⟨0, 0⟩, ⟨1, 0⟩] .none,
     .addNode (.generic .add) [.simple .i16] [⟨1, 0⟩, ⟨0, 0⟩] .none] rfl

theorem adds_constantAndSymbol :
    constantAndSymbol.Adds ⟨2, 0⟩ ⟨0, 0⟩ ⟨1, 0⟩ ∧ constantAndSymbol.Adds ⟨3, 0⟩ ⟨1, 0⟩ ⟨0, 0⟩ :=
  ⟨⟨_, rfl, rfl, rfl⟩, ⟨_, rfl, rfl, rfl⟩⟩

/-- With 16-bit addresses the two orders are folded differently, to one number. -/
theorem constantAndSymbol_commutes :
    ∃ address other,
      foldBased constantAndSymbol ⟨.i16, .i16, .i8⟩ ⟨2, 0⟩ = .ok (some address) ∧
      foldBased constantAndSymbol ⟨.i16, .i16, .i8⟩ ⟨3, 0⟩ = .ok (some other) ∧
      address ≠ other ∧ ∀ environment : Environment Unit, ∃ number,
        (∀ x, constantAndSymbol.Stands environment ⟨2, 0⟩ x ↔ x = number) ∧
        address.Stands environment constantAndSymbol 16 number ∧
        other.Stands environment constantAndSymbol 16 number := by
  have sized : ∀ value,
      ¬ Unanswered constantAndSymbol ⟨.i16, .i16, .i8⟩ value := fun _ unanswered => by
    cases unanswered.1
  obtain ⟨_, _, _, agree⟩ := address_sums_commute adds_constantAndSymbol.1 adds_constantAndSymbol.2
    (by decide) (by decide) (fun impossible => sized _ impossible.1)
    (fun impossible => sized _ impossible.1)
  obtain ⟨address, other, firstFolded, secondFolded, stands⟩ :=
    agree 16 ⟨_, rfl⟩ ⟨_, rfl⟩ rfl rfl (by decide)
  refine ⟨address, other, firstFolded, secondFolded, ?_, ?_⟩
  · cases firstFolded
    cases secondFolded
    decide
  · intro environment
    obtain ⟨number, first, _, both⟩ := stands environment
    exact ⟨number, first, both⟩

/-- Without a width for folded constants the sum is folded in one order, and in the other the search
breaks off. -/
theorem fold_depends_on_order :
    Reached constantAndSymbol ∧ constantAndSymbol.Adds ⟨2, 0⟩ ⟨0, 0⟩ ⟨1, 0⟩ ∧
      constantAndSymbol.Adds ⟨3, 0⟩ ⟨1, 0⟩ ⟨0, 0⟩ ∧
      (∃ address, foldBased constantAndSymbol ⟨.i16, .chain, .i8⟩ ⟨2, 0⟩ = .ok (some address)) ∧
      foldBased constantAndSymbol ⟨.i16, .chain, .i8⟩ ⟨3, 0⟩ = .error (.unsized .chain) :=
  ⟨reached_constantAndSymbol, adds_constantAndSymbol.1, adds_constantAndSymbol.2, ⟨_, rfl⟩, rfl⟩

end DagSelect
