/-
Module: DagSelect.ValueType.Width
Purpose: Questions about the width and the parts of a type, with the fault that each raises on a type
  it does not apply to. Widths are 32-bit numbers, so an operation that would leave that range faults.
Main exports: SimpleType.sizeInBits, ValueType.sizeInBits, ValueType.numParts, ValueType.storeSize,
  ValueType.elementType, ValueType.numElements, ValueType.bitsEq
-/
import DagSelect.Fault
import DagSelect.Power

namespace DagSelect

/-- One more than the largest width. -/
def widthBound : Nat := twoPow 32

/-- The product of two widths. -/
def mulWidth (a b : Nat) : Except Fault Nat :=
  if a * b < widthBound then .ok (a * b) else .error .productOverflow

/-- Whether a number is a power of two; zero is none. -/
def isPowerOfTwo (n : Nat) : Bool :=
  n != 0 && twoPow n.log2 == n

/-- The least power of two that is not below a width. -/
def nextPowerOfTwo (n : Nat) : Except Fault Nat :=
  let power := if n ≤ 1 then 1 else twoPow ((n - 1).log2 + 1)
  if power < widthBound then .ok power else .error .sumOverflow

/-- The quotient rounded up. -/
def divCeil (n part : Nat) : Except Fault Nat :=
  if part = 0 then .error .divisionByZero else .ok ((n + part - 1) / part)

namespace SimpleType

/-- The width of an entry. -/
def sizeInBits (type : SimpleType) : Except Fault Nat :=
  match type.bits? with
  | some bits => .ok bits
  | none => .error (.unsized type)

/-- The element type of a vector entry. -/
def elementType (type : SimpleType) : Except Fault SimpleType :=
  match type.element? with
  | some element => .ok element
  | none => .error (.elementOfNonVector (.simple type))

/-- The element count of a vector entry. -/
def numElements (type : SimpleType) : Except Fault Nat :=
  match type.count? with
  | some count => .ok count
  | none => .error (.countOfNonVector (.simple type))

/-- The floating-point entry of a width. -/
def floatingPoint (bits : Nat) : Except Fault SimpleType :=
  match float? bits with
  | some type => .ok type
  | none => .error (.badFloatWidth bits)

end SimpleType

namespace ValueType

/-- The entry of the enumeration that a type is. -/
def toSimple : ValueType → Except Fault SimpleType
  | .simple type => .ok type
  | .extended type => .error (.notSimple type)

/-- The width of a type. -/
def sizeInBits : ValueType → Except Fault Nat
  | .simple type => type.sizeInBits
  | .extended type => .ok type.bits

/-- The element type of a vector. -/
def elementType (type : ValueType) : Except Fault ValueType :=
  match type.element? with
  | some element => .ok element
  | none => .error (.elementOfNonVector type)

/-- The element count of a vector. -/
def numElements (type : ValueType) : Except Fault Nat :=
  match type.count? with
  | some count => .ok count
  | none => .error (.countOfNonVector type)

/-- The element type of a vector, and any other type itself. -/
def scalarType (type : ValueType) : ValueType :=
  type.element?.getD type

/-- The width of the scalar type. -/
def scalarSizeInBits (type : ValueType) : Except Fault Nat :=
  type.scalarType.sizeInBits

/-- Whether the width is a whole number of bytes. -/
def isByteSized (type : ValueType) : Except Fault Bool := do
  return (← type.sizeInBits) % 8 == 0

/-- Whether the width is a power-of-two number of bytes. -/
def isRound (type : ValueType) : Except Fault Bool := do
  let bits ← type.sizeInBits
  return decide (8 ≤ bits) && isPowerOfTwo bits

/-- Whether the width is a power of two. -/
def isPow2Size (type : ValueType) : Except Fault Bool := do
  return isPowerOfTwo (← type.sizeInBits)

/-- Whether a vector has a power of two of elements. -/
def isPow2Vector (type : ValueType) : Except Fault Bool := do
  return isPowerOfTwo (← type.numElements)

/-- How many parts of `partBits` bits hold a value of the type. -/
def numParts (type : ValueType) (partBits : Nat) : Except Fault Nat := do
  divCeil (← type.sizeInBits) partBits

/-- How many values of the type `part` hold a value of the type. -/
def numPartsOf (type part : ValueType) : Except Fault Nat := do
  type.numParts (← part.sizeInBits)

/-- The number of bytes that a store of the type writes. -/
def storeSize (type : ValueType) : Except Fault Nat :=
  type.numParts 8

/-- The number of bits that a store of the type writes. -/
def storeSizeInBits (type : ValueType) : Except Fault Nat := do
  mulWidth (← type.storeSize) 8

/-! ### Comparisons by width -/

/-- The same type, or another of the same width. -/
def bitsEq (a b : ValueType) : Except Fault Bool :=
  if a = b then .ok true else do return decide ((← a.sizeInBits) = (← b.sizeInBits))

/-- Another type, and a wider one. -/
def bitsGt (a b : ValueType) : Except Fault Bool :=
  if a = b then .ok false else do return decide ((← a.sizeInBits) > (← b.sizeInBits))

/-- The same type, or one that is no narrower. -/
def bitsGe (a b : ValueType) : Except Fault Bool :=
  if a = b then .ok true else do return decide ((← a.sizeInBits) ≥ (← b.sizeInBits))

/-- Another type, and a narrower one. -/
def bitsLt (a b : ValueType) : Except Fault Bool :=
  if a = b then .ok false else do return decide ((← a.sizeInBits) < (← b.sizeInBits))

/-- The same type, or one that is no wider. -/
def bitsLe (a b : ValueType) : Except Fault Bool :=
  if a = b then .ok true else do return decide ((← a.sizeInBits) ≤ (← b.sizeInBits))

end ValueType

end DagSelect
