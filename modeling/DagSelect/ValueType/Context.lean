/-
Module: DagSelect.ValueType.Context
Purpose: The context that hands out extended types. It is a registry whose tables and counter fit
  its objects, and it grants an integer of an allowed width and a vector of sized scalars whose
  width is in range. A vector of extended integers refers to the integer of its own context,
  whatever context the element came from.
Main exports: TypeContext, TypeContext.new, Interning, TypeContext.forms, TypeContext.internInteger,
  TypeContext.internVector, TypeContext.integerType, TypeContext.vectorType, ValueType.integer,
  ValueType.vector
-/
import DagSelect.ValueType.Registry
import DagSelect.ValueType.Width

namespace DagSelect

/-- The widest integer that a context makes. -/
def maxIntegerBits : Nat := twoPow 24

/-- A registry whose tables and counter fit its objects. -/
structure TypeContext extends Registry where
  registered : toRegistry.Registered := by exact Registry.registered_empty _
  deriving DecidableEq, Repr

/-- A context that has made no types. -/
def TypeContext.new (owner : Nat) : TypeContext :=
  { owner }

instance : Inhabited TypeContext := ⟨.new 0⟩

/-- A computation that may make types and may fault. What it made before a fault stays made. -/
abbrev Interning := EStateM Fault TypeContext

namespace TypeContext

/-- The number of types made so far. -/
def size (context : TypeContext) : Nat :=
  context.nextId

/-- What the types of a context describe, in the order in which they were made. -/
def forms (context : TypeContext) : List ExtendedForm :=
  context.arena.map ExtendedType.form

/-- The integer of a width in the registry of the context. -/
def internInteger (bits : Nat) : Interning ExtendedType := fun context =>
  let made := context.toRegistry.internInteger bits
  .ok made.1 ⟨made.2, context.registered.internInteger bits⟩

/-- The vector of `count` elements of a key in the registry of the context. -/
def internVector (key : ElementKey) (count : Nat) : Interning ExtendedType := fun context =>
  let made := context.toRegistry.internVector key count
  .ok made.1 ⟨made.2, context.registered.internVector key count⟩

/-- The extended integer of a width. -/
def integerType (bits : Nat) : Interning ExtendedType := do
  if bits = 0 then throw .emptyInteger
  if maxIntegerBits < bits then throw (.integerTooWide bits maxIntegerBits)
  internInteger bits

/-- Whether `count` elements of a type have a width. -/
def fitsVector (element : ValueType) (count : Nat) : Bool :=
  match element.bits? with
  | some bits => decide (bits * count < widthBound)
  | none => false

/-- The extended vector of `count` elements. The element is a sized scalar of the enumeration or an
extended integer. -/
def vectorType (element : ValueType) (count : Nat) : Interning ExtendedType := do
  if count = 0 then throw .emptyVector
  match element with
  | .simple type =>
    if !type.isSized || type.isVector then throw (.badElement element)
    if !fitsVector element count then throw (.vectorTooWide count element)
    internVector (.simple type) count
  | .extended ⟨_, _, .integer bits⟩ =>
    if !fitsVector element count then throw (.vectorTooWide count element)
    internVector (.integer bits) count
  | .extended ⟨_, _, .vector _ _⟩ => throw (.badElement element)

end TypeContext

namespace ValueType

/-- The integer type of a width: an entry of the enumeration if there is one. -/
def integer (bits : Nat) : Interning ValueType := do
  match SimpleType.integer? bits with
  | some type => return .simple type
  | none => return .extended (← TypeContext.integerType bits)

/-- The vector entry of the enumeration with a given element and count. -/
def simpleVector? (element : ValueType) (count : Nat) : Option SimpleType :=
  match element with
  | .simple type => SimpleType.vector? type count
  | .extended _ => none

/-- The vector type of `count` elements: an entry of the enumeration if there is one. -/
def vector (element : ValueType) (count : Nat) : Interning ValueType := do
  match simpleVector? element count with
  | some type => return .simple type
  | none => return .extended (← TypeContext.vectorType element count)

end ValueType

end DagSelect
