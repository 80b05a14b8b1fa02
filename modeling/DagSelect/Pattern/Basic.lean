/-
Module: DagSelect.Pattern.Basic
Purpose: Selection rules as data. A pattern turns nodes of one generic opcode into one instruction.
  It is guarded by the features of the processor and by a type, and its matchers say what may stand
  in each operand and what becomes of it.
Main exports: Matcher, Matcher.complexity, Matcher.arity, Matcher.sums, Capture, TypeTest, Guard,
  Pattern, Pattern.complexity, Pattern.sums, Pattern.Rankable
-/
import DagSelect.Address

namespace DagSelect

/-- What may stand in one operand. -/
inductive Matcher where
  /-- A chain, passed on. -/
  | chain
  /-- Any value but a chain, passed on. -/
  | reg
  /-- A constant, folded into the instruction. -/
  | imm
  /-- The constant with this value, which the instruction implies. -/
  | exactly (value : Int)
  /-- An absolute address. -/
  | mem
  /-- A based address. It becomes two operands, the base and the displacement. -/
  | off
  /-- A node of this opcode with a single user, taken into the instruction. -/
  | node (op : GenericOp) (operands : List Matcher)
  deriving Repr, Inhabited

namespace Matcher

mutual

/-- How much a matcher asks for. -/
def complexity : Matcher → Int
  | .chain => 0
  | .reg => 1
  | .imm | .mem | .off => 3
  | .exactly _ => 4
  | .node _ operands => 3 + complexities operands

/-- How much a list of matchers asks for. -/
def complexities : List Matcher → Int
  | [] => 0
  | matcher :: rest => complexity matcher + complexities rest

end

mutual

/-- How many operands of the instruction a matcher accounts for. -/
def arity : Matcher → Nat
  | .chain | .reg | .imm | .mem => 1
  | .exactly _ => 0
  | .off => 2
  | .node _ operands => arities operands

/-- How many operands of the instruction a list of matchers accounts for. -/
def arities : List Matcher → Nat
  | [] => 0
  | matcher :: rest => arity matcher + arities rest

end

mutual

/-- The numbers that adding up the complexity of a matcher goes through. -/
def sums : Matcher → List Int
  | .node op operands => sumsFrom 0 operands ++ [complexity (.node op operands)]
  | matcher => [complexity matcher]

/-- The numbers that adding the complexities of a list of matchers to a number, one by one, goes
through. -/
def sumsFrom (start : Int) : List Matcher → List Int
  | [] => []
  | matcher :: rest =>
      sums matcher ++ (start + complexity matcher) :: sumsFrom (start + complexity matcher) rest

end

end Matcher

/-- One operand of the instruction that a match asks for. -/
inductive Capture where
  /-- A value of the graph. -/
  | value (source : Value)
  /-- A new constant leaf. -/
  | constant (number : Int) (type : ValueType)
  /-- A new leaf for the absolute part of an address. -/
  | displacement (part : Displacement)
  /-- A new stack slot leaf. -/
  | frame (index : Int) (type : SimpleType)
  deriving DecidableEq, Repr

/-- The type that a pattern asks for. -/
inductive TypeTest where
  | any
  /-- The type of the first result. -/
  | result (type : SimpleType)
  /-- The type of an operand. -/
  | operand (index : Nat) (type : SimpleType)
  deriving DecidableEq, Repr, Inhabited

/-- A test of the features of a processor. -/
structure Guard (Features : Type) where
  name : String
  holds : Features → Bool

/-- The guard that every processor passes. -/
def Guard.always {Features : Type} : Guard Features where
  name := "true"
  holds _ := true

/-- A selection rule. -/
structure Pattern (Features : Type) where
  name : String
  /-- The opcode of the nodes that the rule replaces. -/
  op : GenericOp
  /-- The instruction that they become. -/
  emit : MachineOp
  typeTest : TypeTest := .any
  guard : Guard Features := .always
  /-- What the node itself must be, for rules that fold a leaf. -/
  root : Option Matcher := none
  /-- What the operands of the node must be. -/
  operands : List Matcher := []
  addedComplexity : Int := 0

namespace Pattern

variable {Features : Type}

/-- How much a pattern asks for. Of two patterns that match, the one that asks for more is used. -/
def complexity (pattern : Pattern Features) : Int :=
  (pattern.root.map Matcher.complexity).getD 0 + Matcher.complexities pattern.operands +
    pattern.addedComplexity

/-- One more than the largest number that complexities are added up and compared in. -/
def complexityBound : Int := Int.ofNat (twoPow 31)

/-- The numbers that adding up the complexity of a pattern goes through. The operands are added up
on their own, then to what the root asks for, and the added complexity comes last. -/
def sums (pattern : Pattern Features) : List Int :=
  (pattern.root.map Matcher.sums).getD [] ++ Matcher.sumsFrom 0 pattern.operands ++
    [(pattern.root.map Matcher.complexity).getD 0 + Matcher.complexities pattern.operands,
      pattern.complexity]

/-- Complexities are added up and compared as signed 32-bit numbers, so a pattern with a sum outside
that range has no place among the others. -/
def Rankable (pattern : Pattern Features) : Prop :=
  ∀ sum ∈ pattern.sums, -complexityBound ≤ sum ∧ sum < complexityBound

instance decidableRankable (pattern : Pattern Features) : Decidable pattern.Rankable :=
  inferInstanceAs (Decidable (∀ sum ∈ _, _))

/-- How many operands the instruction of a pattern has. -/
def arity (pattern : Pattern Features) : Nat :=
  (pattern.root.map Matcher.arity).getD 0 + Matcher.arities pattern.operands

end Pattern

end DagSelect
