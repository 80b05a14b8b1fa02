/-
Module: DagSelect.Address
Purpose: The addresses that an instruction can compute by itself. An absolute address is a constant
  or a symbol; a based address is a stack slot, or a sum of which one side is absolute. Folding reads
  the graph and changes nothing.
Main exports: AddressTypes, Displacement, AddressBase, BasedAddress, foldAbsolute, foldBased,
  foldAddress
-/
import DagSelect.Dag.Basic
import DagSelect.Log
import DagSelect.ValueType.Width

namespace DagSelect

/-- The types that addresses are built with. -/
structure AddressTypes where
  /-- The type of pointers and of references to symbols. -/
  pointer : SimpleType
  /-- The type of folded constant addresses. -/
  immediate : SimpleType
  /-- The type of the zero offset of a stack slot. -/
  frameOffset : SimpleType
  deriving DecidableEq, Repr, Inhabited

/-- The absolute part of an address. -/
inductive Displacement where
  | immediate (value : Int) (type : SimpleType)
  | global (symbol : String) (offset : Int) (type : SimpleType)
  | external (symbol : String) (type : SimpleType)
  deriving DecidableEq, Repr

namespace Displacement

/-- The type of a displacement. -/
def type : Displacement → SimpleType
  | .immediate _ type | .global _ _ type | .external _ type => type

/-- The written form of a displacement. -/
def render : Displacement → String
  | .immediate value type => s!"{value}:{type.name}"
  | .global symbol offset _ => s!"@{symbol}{Payload.renderOffset offset}"
  | .external symbol _ => s!"'{symbol}'"

end Displacement

/-- What a displacement is added to. -/
inductive AddressBase where
  /-- A value in a register. -/
  | register (value : Value)
  /-- A stack slot. -/
  | frame (index : Int)
  deriving DecidableEq, Repr

/-- The written form of a base in the log. -/
def AddressBase.render : AddressBase → String
  | .register value =>
    s!"Register(SdValue \x7b node: NodeId({value.node}), result: {value.result} \x7d)"
  | .frame index => s!"Frame({index})"

/-- A based address, and how it was found. -/
inductive BasedAddress where
  /-- A stack slot itself, at offset zero. -/
  | slot (index : Int) (offsetType : SimpleType)
  /-- A sum whose operand `folded` became the displacement. -/
  | sum (base : AddressBase) (folded : Value) (displacement : Displacement)
  deriving DecidableEq, Repr

namespace BasedAddress

/-- The base of the address. -/
def base : BasedAddress → AddressBase
  | .slot index _ => .frame index
  | .sum base _ _ => base

/-- The displacement of the address. -/
def displacement : BasedAddress → Displacement
  | .slot _ type => .immediate 0 type
  | .sum _ _ displacement => displacement

end BasedAddress

/-- An address in either form. -/
inductive AddressMode where
  | absolute (displacement : Displacement)
  | based (address : BasedAddress)
  deriving DecidableEq, Repr

/-! ### Folding -/

/-- Folds a value as an absolute address: a constant of integer type or a symbol. -/
def foldAbsolute (dag : Dag) (types : AddressTypes) (address : Value) :
    Except Fault (Option Displacement) := do
  let node ← dag.fetch address.node
  match node.opcode, node.payload with
  | .generic .constant, .constant value =>
    if (← dag.valueType address).isScalarInteger then
      let bits ← types.immediate.sizeInBits
      return some (.immediate (signExtend value bits) types.immediate)
    else
      return none
  | .generic .globalAddress, .global symbol offset =>
    return some (.global symbol offset types.pointer)
  | .generic .externalSymbol, .external symbol => return some (.external symbol types.pointer)
  | _, _ => return none

/-- The stack slot that a value names. -/
def frameSlot (dag : Dag) (value : Value) : Except Fault (Option Int) := do
  let node ← dag.fetch value.node
  match node.opcode, node.payload with
  | .generic .frameIndex, .frameIndex index => return some index
  | _, _ => return none

/-- A value as the base of an address: a stack slot if it names one. -/
def baseOf (dag : Dag) (value : Value) : Except Fault AddressBase := do
  match ← frameSlot dag value with
  | some index => return .frame index
  | none => return .register value

/-- Folds a sum as a based address. The right side is tried as the displacement before the left. -/
def foldSum (dag : Dag) (types : AddressTypes) (left right : Value) :
    Except Fault (Option BasedAddress) := do
  match ← foldAbsolute dag types right with
  | some displacement => return some (.sum (← baseOf dag left) right displacement)
  | none =>
    match ← foldAbsolute dag types left with
    | some displacement => return some (.sum (← baseOf dag right) left displacement)
    | none => return none

/-- Folds a value as a based address: a stack slot, or a sum with an absolute side. -/
def foldBased (dag : Dag) (types : AddressTypes) (address : Value) :
    Except Fault (Option BasedAddress) := do
  match ← frameSlot dag address with
  | some index => return some (.slot index types.frameOffset)
  | none =>
    let node ← dag.fetch address.node
    match node.opcode, node.operands with
    | .generic .add, [left, right] => foldSum dag types left right
    | _, _ => return none

/-- Folds a value as an address of either form, absolute first. -/
def foldAddress (dag : Dag) (types : AddressTypes) (address : Value) :
    Except Fault (Option AddressMode) := do
  match ← foldAbsolute dag types address with
  | some displacement => return some (.absolute displacement)
  | none => return (← foldBased dag types address).map .based

/-! ### The log of folding -/

/-- The record of a folded absolute address. -/
def Displacement.log (address : Value) (displacement : Displacement) : List LogRecord :=
  [.trace s!"  mem {address.render} -> {displacement.render}"]

/-- The records of a folded based address. -/
def BasedAddress.log (address : Value) : BasedAddress → List LogRecord
  | .slot index _ => [.trace s!"  off {address.render} -> frame {index}"]
  | .sum base folded displacement =>
    displacement.log folded ++
      [.trace s!"  off {address.render} -> {base.render} + {displacement.render}"]

/-- The records of a folded address. -/
def AddressMode.log (address : Value) : AddressMode → List LogRecord
  | .absolute displacement => displacement.log address
  | .based found => found.log address

end DagSelect
