/-
Module: DagSelect.ValueType.Derived
Purpose: Types made from another type: the integer of the same width, the next round integer, half of
  an integer, wider elements, a power of two of elements. Each gives an entry of the enumeration if
  there is one and makes an extended type otherwise.
Main exports: ValueType.changeElementsToInteger, ValueType.changeToInteger,
  ValueType.changeToScalarInteger, ValueType.roundInteger, ValueType.halfInteger,
  ValueType.widenElements, ValueType.pow2Vector
-/
import DagSelect.ValueType.Context

namespace DagSelect.ValueType

/-- The vector of as many integers, each as wide as an element. -/
def changeElementsToInteger (type : ValueType) : Interning ValueType := do
  let bits ← (← type.elementType).sizeInBits
  let element ← integer bits
  vector element (← type.numElements)

/-- One integer as wide as the whole type. -/
def changeToScalarInteger (type : ValueType) : Interning ValueType := do
  integer (← type.sizeInBits)

/-- The integer type of the same form: element by element for a vector. -/
def changeToInteger (type : ValueType) : Interning ValueType :=
  if type.isVector then type.changeElementsToInteger else type.changeToScalarInteger

/-- The integer whose width is the next power of two, and at least eight. -/
def roundInteger (type : ValueType) : Interning ValueType := do
  if !type.isScalarInteger then throw (.roundOfNonInteger type)
  let bits ← type.sizeInBits
  if bits ≤ 8 then return .simple .i8
  integer (← nextPowerOfTwo bits)

/-- The narrowest integer of the enumeration that has at least half the width, or else the integer of
exactly half the width, rounded up. -/
def halfInteger (type : ValueType) : Interning ValueType := do
  if !type.isScalarInteger then throw (.halfOfNonInteger type)
  let bits ← type.sizeInBits
  match SimpleType.integers.find? fun half => decide (bits ≤ half.scalarBits * 2) with
  | some half => return .simple half
  | none => integer (← divCeil bits 2)

/-- The vector of as many integers, each twice as wide as an element. -/
def widenElements (type : ValueType) : Interning ValueType := do
  if !(type.isVector && type.isInteger) then throw (.widenOfNonIntegerVector type)
  let bits ← (← type.elementType).sizeInBits
  let element ← integer (← mulWidth 2 bits)
  vector element (← type.numElements)

/-- The vector with the next power of two of elements. -/
def pow2Vector (type : ValueType) : Interning ValueType := do
  if ← type.isPow2Vector then return type
  let count ← nextPowerOfTwo (← type.numElements)
  vector (← type.elementType) count

end DagSelect.ValueType
