/-
Module: DagSelect.Fault
Purpose: The preconditions that a caller of the library can break, one constructor each, and their
  wording. A fault is a mistake of the caller; that a graph has no cover is not a fault but an answer
  of the selector.
Main exports: Fault, Fault.message, the use of a question inside a computation with a state
-/
import DagSelect.ValueType.Basic
import DagSelect.Opcode
import DagSelect.Value

namespace DagSelect

/-- A broken precondition. -/
inductive Fault where
  /-- The width of a type that has none. -/
  | unsized (type : SimpleType)
  /-- The element type of something that is no vector. -/
  | elementOfNonVector (type : ValueType)
  /-- The element count of something that is no vector. -/
  | countOfNonVector (type : ValueType)
  /-- A floating-point width that no format has. -/
  | badFloatWidth (bits : Nat)
  /-- An extended type where an entry of the enumeration is needed. -/
  | notSimple (type : ExtendedType)
  /-- An integer type of no bits. -/
  | emptyInteger
  /-- An integer type wider than a context makes. -/
  | integerTooWide (bits limit : Nat)
  /-- A vector type of no elements. -/
  | emptyVector
  /-- A vector of something that is no scalar. -/
  | badElement (type : ValueType)
  /-- A vector whose width has no 32-bit number. -/
  | vectorTooWide (count : Nat) (element : ValueType)
  /-- Rounding the width of something that is no scalar integer. -/
  | roundOfNonInteger (type : ValueType)
  /-- Halving the width of something that is no scalar integer. -/
  | halfOfNonInteger (type : ValueType)
  /-- Widening the elements of something that is no integer vector. -/
  | widenOfNonIntegerVector (type : ValueType)
  /-- A product of widths that has no 32-bit number. -/
  | productOverflow
  /-- A sum of widths or of complexities that has no 32-bit number. -/
  | sumOverflow
  /-- A division into parts of no bits. -/
  | divisionByZero
  /-- A constant whose type is no scalar integer. -/
  | constantOfNonInteger (type : ValueType)
  /-- A node without results. -/
  | noResults
  /-- A payload of another kind than the opcode asks for. -/
  | payloadMismatch (op : GenericOp) (given : PayloadKind)
  /-- An operand that names no node. -/
  | noSuchNode (value : Value)
  /-- An operand that names a result its node does not have. -/
  | noSuchResult (value : Value) (results : Nat)
  /-- The release of a use that was never counted. -/
  | useUnderflow (id : NodeId)
  /-- The removal of a node that something still uses. -/
  | stillInUse (id : NodeId)
  /-- A position past the end of a sequence. -/
  | outOfBounds (length index : Nat)
  deriving DecidableEq, Repr

namespace Fault

/-- The wording of a fault. -/
def message : Fault → String
  | .unsized type => s!"value type {type.name} has no fixed size"
  | .elementOfNonVector type => s!"vector_element_type called on non-vector type {type.name}"
  | .countOfNonVector type => s!"vector_num_elements called on non-vector type {type.name}"
  | .badFloatWidth bits => s!"bad bit width for floating point type: {bits}"
  | .notSimple type => s!"expected a simple value type, found {type.name}"
  | .emptyInteger => "integer type must have a non-zero width"
  | .integerTooWide bits limit => s!"integer type i{bits} is wider than {limit} bits"
  | .emptyVector => "vector type must have at least one element"
  | .badElement type => s!"invalid vector element type {type.name}"
  | .vectorTooWide count element => s!"vector type v{count}{element.name} is too wide"
  | .roundOfNonInteger type => s!"round_integer_type called on non-integer type {type.name}"
  | .halfOfNonInteger type => s!"half_sized_integer_vt called on non-integer type {type.name}"
  | .widenOfNonIntegerVector type => s!"widen_integer_vector_element_type called on {type.name}"
  | .productOverflow => "attempt to multiply with overflow"
  | .sumOverflow => "attempt to add with overflow"
  | .divisionByZero => "attempt to divide by zero"
  | .constantOfNonInteger type => s!"constant of non-integer type {type.name}"
  | .noResults => "node must produce at least one value"
  | .payloadMismatch op given =>
    s!"assertion `left == right` failed: payload does not fit opcode {op.name}\n  left: " ++
      s!"{op.payloadKind.name}\n right: {given.name}"
  | .noSuchNode value => s!"operand {value.render} refers to no node"
  | .noSuchResult value results =>
    s!"operand {value.render} refers past the {results} results of its node"
  | .useUnderflow id => s!"use count underflow on {NodeId.label id}"
  | .stillInUse id => s!"cannot kill {NodeId.label id}, it is still in use"
  | .outOfBounds length index =>
    s!"index out of bounds: the len is {length} but the index is {index}"

end Fault

/-- A question that can fail is a computation that leaves the state alone. -/
instance Fault.liftExcept {ε σ : Type} : MonadLift (Except ε) (EStateM ε σ) where
  monadLift
    | .ok a => pure a
    | .error e => throw e

end DagSelect
