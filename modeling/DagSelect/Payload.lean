/-
Module: DagSelect.Payload
Purpose: The data that a node carries besides its operands, and how it is written after the opcode.
Main exports: Payload, Payload.kind, Payload.render, signExtend
-/
import DagSelect.Opcode
import DagSelect.Power

namespace DagSelect

/-- The data of a node. Constants and offsets are signed 64-bit numbers, frame indices signed
32-bit ones, and registers unsigned 32-bit ones. -/
inductive Payload where
  | none
  | constant (value : Int)
  | global (symbol : String) (offset : Int)
  | external (symbol : String)
  | frameIndex (index : Int)
  | register (number : Nat)
  deriving DecidableEq, Repr, Inhabited

namespace Payload

/-- The kind of a payload. -/
def kind : Payload → PayloadKind
  | .none => .none
  | .constant _ => .constant
  | .global _ _ => .global
  | .external _ => .external
  | .frameIndex _ => .frameIndex
  | .register _ => .register

/-- An offset with its sign, and nothing for zero. -/
def renderOffset (offset : Int) : String :=
  if offset = 0 then ""
  else if offset < 0 then toString offset
  else s!"+{offset}"

/-- The written form of a payload, which stands directly after the opcode. -/
def render : Payload → String
  | .none => ""
  | .constant value => s!"<{value}>"
  | .global symbol offset => s!"<@{symbol}{renderOffset offset}>"
  | .external symbol => s!"<'{symbol}'>"
  | .frameIndex index => s!"<{index}>"
  | .register number => s!"<{number}>"

end Payload

/-- The number from `-2 ^ (bits - 1)` to `2 ^ (bits - 1) - 1` that has the same low `bits` bits as
`value`. At 64 bits and more, and at zero, the value stays as it is. -/
def signExtend (value : Int) (bits : Nat) : Int :=
  if bits = 0 ∨ 64 ≤ bits then value else value.bmod (twoPow bits)

end DagSelect
