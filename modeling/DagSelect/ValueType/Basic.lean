/-
Module: DagSelect.ValueType.Basic
Purpose: The type of a value that flows along an edge of the graph: an entry of the compact
  enumeration, or an extended type that a context numbered. An extended type is known by its context
  and its number there, so two of them are equal exactly when the same context made both under the
  same number.
Main exports: ElementType, ExtendedType, ValueType, ValueType.name, ValueType.rawOrder
-/
import DagSelect.SimpleType
import DagSelect.Sort

namespace DagSelect

/-- The element of an extended vector: a scalar entry of the enumeration, or the extended integer
with a number in the context that owns the vector. -/
inductive ElementType where
  | simple (type : SimpleType)
  | integer (id : Nat) (bits : Nat)
  deriving DecidableEq, Repr

/-- What an extended type describes. -/
inductive ExtendedForm where
  /-- An integer of any width. -/
  | integer (bits : Nat)
  /-- A vector of scalars of any count. -/
  | vector (element : ElementType) (count : Nat)
  deriving DecidableEq, Repr

/-- A type handed out by the context `owner` under the number `id`. -/
structure ExtendedType where
  owner : Nat
  id : Nat
  form : ExtendedForm
  deriving DecidableEq, Repr

/-- The type of a value. -/
inductive ValueType where
  | simple (type : SimpleType)
  | extended (type : ExtendedType)
  deriving DecidableEq, Repr

namespace ElementType

/-- The printed name of an element type. -/
def name : ElementType → String
  | .simple type => type.name
  | .integer _ bits => s!"i{bits}"

/-- The width of an element. -/
def bits : ElementType → Nat
  | .simple type => type.scalarBits
  | .integer _ bits => bits

/-- Whether the elements are integers. -/
def isInteger : ElementType → Bool
  | .simple type => type.isInteger
  | .integer _ _ => true

/-- Whether the elements are floats. -/
def isFloatingPoint : ElementType → Bool
  | .simple type => type.isFloatingPoint
  | .integer _ _ => false

end ElementType

namespace ExtendedType

/-- The printed name of an extended type. -/
def name (type : ExtendedType) : String :=
  match type.form with
  | .integer bits => s!"i{bits}"
  | .vector element count => s!"v{count}{element.name}"

/-- The width of an extended type. A context hands out only types whose width is below `2 ^ 32`. -/
def bits (type : ExtendedType) : Nat :=
  match type.form with
  | .integer bits => bits
  | .vector element count => element.bits * count

end ExtendedType

namespace ValueType

/-- The type of the chain that orders side effects. -/
def chain : ValueType := .simple .chain

/-- The type of the glue that keeps two nodes together. -/
def glue : ValueType := .simple .glue

/-- The printed name of a type. -/
def name : ValueType → String
  | .simple type => type.name
  | .extended type => type.name

/-! ### Classification -/

/-- Whether the type is an entry of the enumeration. -/
def isSimple : ValueType → Bool
  | .simple _ => true
  | .extended _ => false

/-- Whether a context made the type. -/
def isExtended (type : ValueType) : Bool :=
  !type.isSimple

/-- Whether the type has a fixed width. -/
def isSized : ValueType → Bool
  | .simple type => type.isSized
  | .extended _ => true

/-- Integers and vectors of integers. -/
def isInteger : ValueType → Bool
  | .simple type => type.isInteger
  | .extended ⟨_, _, .integer _⟩ => true
  | .extended ⟨_, _, .vector element _⟩ => element.isInteger

/-- Floats and vectors of floats. -/
def isFloatingPoint : ValueType → Bool
  | .simple type => type.isFloatingPoint
  | .extended ⟨_, _, .integer _⟩ => false
  | .extended ⟨_, _, .vector element _⟩ => element.isFloatingPoint

/-- Integers that are not vectors. -/
def isScalarInteger : ValueType → Bool
  | .simple type => type.isScalarInteger
  | .extended ⟨_, _, .integer _⟩ => true
  | .extended ⟨_, _, .vector _ _⟩ => false

/-- Vectors of either kind of element. -/
def isVector : ValueType → Bool
  | .simple type => type.isVector
  | .extended ⟨_, _, .integer _⟩ => false
  | .extended ⟨_, _, .vector _ _⟩ => true

/-- The placeholders of pattern writing. -/
def isOverloaded : ValueType → Bool
  | .simple type => type.isOverloaded
  | .extended _ => false

/-! ### Sizes and parts -/

/-- The width of a type, if it has one. -/
def bits? : ValueType → Option Nat
  | .simple type => type.bits?
  | .extended type => some type.bits

/-- Whether the type is a vector of exactly `bits` bits in all. -/
def isVectorOfBits (bits : Nat) (type : ValueType) : Bool :=
  type.isVector && type.bits? == some bits

/-- The element type of a vector. -/
def element? : ValueType → Option ValueType
  | .simple type => type.element?.map .simple
  | .extended ⟨owner, _, form⟩ =>
    match form with
    | .vector (.simple element) _ => some (.simple element)
    | .vector (.integer id bits) _ => some (.extended ⟨owner, id, .integer bits⟩)
    | .integer _ => none

/-- The element count of a vector. -/
def count? : ValueType → Option Nat
  | .simple type => type.count?
  | .extended ⟨_, _, .vector _ count⟩ => some count
  | .extended ⟨_, _, .integer _⟩ => none

/-! ### An order for container keys -/

/-- A total order without meaning of its own: extended types by context and number, then the
entries of the enumeration by position. -/
def rawOrder : ValueType → ValueType → Ordering
  | .simple a, .simple b => compare a.rank b.rank
  | .simple _, .extended _ => .gt
  | .extended _, .simple _ => .lt
  | .extended a, .extended b => (compare a.owner b.owner).then (compare a.id b.id)

/-- The distinct types of a list, in `rawOrder`. -/
def distinct (types : List ValueType) : List ValueType :=
  sortBy (fun a b => (rawOrder a b).isLE) types.eraseDups

end ValueType

end DagSelect
