/-
Module: DagSelect.Proofs.Meaning
Purpose: What a node computes from the data of its operands. Integers of a type are taken modulo a
  power of two and arithmetic is that of bit vectors. Memory, calls and everything else are
  functions of their operands about which nothing is known; an environment gives them, and the
  values of registers, symbols and stack slots.
Main exports: Datum, Datum.ofType, Environment, GenericOp.compute, Payload.datum, GenericOp.meaning
-/
import DagSelect.Dag.Basic
import Mathlib.Algebra.Group.Int.Defs

namespace DagSelect

/-- What flows along an edge: an integer, or something else, such as a state of memory. -/
inductive Datum (Token : Type) where
  | int (number : Int)
  | token (content : Token)
  deriving DecidableEq

/-- The width of the values of a scalar integer type. -/
def ValueType.width? (type : ValueType) : Option Nat :=
  if type.isScalarInteger then type.bits? else none

/-- An environment gives what a graph leaves open. -/
structure Environment (Token : Type) where
  register : Nat → Int
  /-- The address of a global symbol. -/
  symbol : String → Int
  /-- The address of an external symbol. -/
  external : String → Int
  /-- The address of a stack slot. -/
  frame : Int → Int
  /-- The chain at the entry. -/
  entry : Token
  /-- A load of a type, from its operands, for one of its results. -/
  load : ValueType → List (Datum Token) → Nat → Datum Token
  /-- A store of a type, from its operands, for one of its results. -/
  store : ValueType → List (Datum Token) → Nat → Datum Token
  /-- Any other operation, from its operands, for one of its results. -/
  apply : Opcode → List (Datum Token) → Nat → Datum Token

variable {Token : Type}

namespace Datum

/-- The integer of a datum, and zero for anything else. -/
def number : Datum Token → Int
  | .int number => number
  | .token _ => 0

/-- A datum as a value of a type: an integer of the width of an integer type, and anything for
another type. -/
def ofType (type : ValueType) (datum : Datum Token) : Datum Token :=
  match type.width? with
  | some bits => .int (datum.number % 2 ^ bits)
  | none => datum

end Datum

namespace GenericOp

/-- The operations on two integers of the width of the result. -/
def isBinary : GenericOp → Bool
  | .add | .sub | .mul | .and | .or | .xor => true
  | _ => false

/-- The operations on an integer of the width of the result and an amount. -/
def isShift : GenericOp → Bool
  | .shl | .srl | .sra => true
  | _ => false

/-- The result of an operation on integers of a width. The second operand of a shift is its amount,
whatever its own width. -/
def compute (op : GenericOp) (bits : Nat) (x y : Int) : Int :=
  let a := BitVec.ofInt bits x
  let b := BitVec.ofInt bits y
  match op with
  | .add => (a + b).toNat
  | .sub => (a - b).toNat
  | .mul => (a * b).toNat
  | .and => (a &&& b).toNat
  | .or => (a ||| b).toNat
  | .xor => (a ^^^ b).toNat
  | .shl => (a <<< y.toNat).toNat
  | .srl => (a >>> y.toNat).toNat
  | .sra => (a.sshiftRight y.toNat).toNat
  | _ => 0

end GenericOp

/-- The datum that a payload stands for. -/
def Payload.datum (environment : Environment Token) : Payload → Datum Token
  | .none => .int 0
  | .constant value => .int value
  | .global symbol offset => .int (environment.symbol symbol + offset)
  | .external symbol => .int (environment.external symbol)
  | .frameIndex index => .int (environment.frame index)
  | .register number => .int (environment.register number)

/-- What a generic opcode gives for one of its results, before it is cut to the type of the result:
from the payload, the types of the results, and the types and data of the operands. -/
def GenericOp.meaning (environment : Environment Token) (op : GenericOp) (payload : Payload)
    (results types : List ValueType) (data : List (Datum Token)) (index : Nat) : Datum Token :=
  match op with
  | .entryToken => .token environment.entry
  | .constant | .globalAddress | .externalSymbol | .frameIndex | .register | .targetConstant
  | .targetGlobalAddress | .targetExternalSymbol | .targetFrameIndex => payload.datum environment
  | .load => environment.load (results.headD .chain) data index
  | .store => environment.store (types.getD 1 .chain) data index
  | op =>
    match op.isBinary || op.isShift, (results.headD .chain).width?, data with
    | true, some bits, [x, y] => .int (op.compute bits x.number y.number)
    | _, _, _ => environment.apply (.generic op) data index

/-- An operation on integers gives the number that it computes. -/
theorem GenericOp.meaning_of_width {environment : Environment Token} {op : GenericOp}
    {payload : Payload} {type : ValueType} {types : List ValueType} {x y : Datum Token}
    {bits index : Nat} (computes : (op.isBinary || op.isShift) = true)
    (sized : type.width? = some bits) :
    op.meaning environment payload [type] types [x, y] index =
      .int (op.compute bits x.number y.number) := by
  cases op <;> simp_all [meaning, isBinary, isShift]

/-- A leaf that can be folded gives what its payload stands for. -/
theorem GenericOp.meaning_of_targetLeaf {environment : Environment Token} {op : GenericOp}
    {payload : Payload} {results types : List ValueType} {data : List (Datum Token)} {index : Nat}
    (leaf : op.targetLeaf?.isSome = true) :
    op.meaning environment payload results types data index = payload.datum environment := by
  cases op <;> simp_all [meaning, targetLeaf?]

/-! ### Integers modulo a power of two -/

namespace Datum

variable {type : ValueType} {datum : Datum Token}

@[simp] theorem number_int (x : Int) : (Datum.int x : Datum Token).number = x := rfl

theorem ofType_of_width {bits : Nat} (sized : type.width? = some bits) :
    datum.ofType type = .int (datum.number % 2 ^ bits) := by
  rw [ofType, sized]

/-- A value of a type stays as it is. -/
theorem ofType_ofType : (datum.ofType type).ofType type = datum.ofType type := by
  unfold ofType
  cases type.width? with
  | none => rfl
  | some bits => simp [number]

end Datum

theorem ofInt_emod (bits : Nat) (x : Int) :
    BitVec.ofInt bits (x % 2 ^ bits) = BitVec.ofInt bits x := by
  apply BitVec.eq_of_toNat_eq
  simp [BitVec.toNat_ofInt]

/-- Extending the sign does not change a number modulo the power of two. -/
theorem signExtend_emod (x : Int) (bits : Nat) : signExtend x bits % 2 ^ bits = x % 2 ^ bits := by
  unfold signExtend
  split
  · rfl
  · have power : ((twoPow bits : Nat) : Int) = 2 ^ bits := by simp [twoPow]
    rw [← power, Int.bmod_emod]

namespace GenericOp

variable {op : GenericOp} {bits : Nat} {x y : Int}

theorem compute_emod_left : op.compute bits (x % 2 ^ bits) y = op.compute bits x y := by
  simp only [compute, ofInt_emod]

theorem compute_emod_right (binary : op.isBinary = true) :
    op.compute bits x (y % 2 ^ bits) = op.compute bits x y := by
  cases op <;> simp_all only [isBinary, compute, ofInt_emod, Bool.false_eq_true]

/-- A result is a number of the width. -/
theorem compute_emod : op.compute bits x y % 2 ^ bits = op.compute bits x y := by
  have small : ∀ a : BitVec bits, (a.toNat : Int) % 2 ^ bits = a.toNat := by
    intro a
    refine Int.emod_eq_of_lt (Int.natCast_nonneg _) ?_
    exact_mod_cast a.isLt
  cases op <;> simp only [compute, small, Int.zero_emod]

theorem compute_add_comm : compute .add bits x y = compute .add bits y x := by
  simp only [compute, BitVec.add_comm]

theorem compute_add_zero : compute .add bits x 0 = x % 2 ^ bits := by
  have power : ((2 ^ bits : Nat) : Int) = 2 ^ bits := by norm_cast
  have positive : (0 : Int) < 2 ^ bits := Int.pow_pos (by decide)
  have zero : BitVec.ofInt bits 0 = BitVec.ofNat bits 0 := BitVec.ofInt_ofNat bits 0
  simp only [compute, zero, BitVec.add_zero, BitVec.toNat_ofInt, power]
  exact Int.toNat_of_nonneg (Int.emod_nonneg x (Int.ne_of_gt positive))

/-- Adding minus one is taking one away. -/
theorem compute_add_neg_one : compute .add bits x (-1) = compute .sub bits x 1 := by
  simp only [compute, BitVec.ofInt_neg, BitVec.sub_eq_add_neg]

end GenericOp

end DagSelect
