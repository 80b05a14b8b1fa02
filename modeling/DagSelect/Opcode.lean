/-
Module: DagSelect.Opcode
Purpose: What a node computes. A generic opcode belongs to no processor and says which payload its
  nodes carry; a machine opcode is an instruction, known by number and name.
Main exports: PayloadKind, GenericOp, MachineOp, Opcode
-/
namespace DagSelect

/-- The kinds of payload a node can carry. -/
inductive PayloadKind where
  | none | constant | global | external | frameIndex | register
  deriving DecidableEq, Repr, Inhabited

/-- The printed name of a payload kind. -/
def PayloadKind.name : PayloadKind → String
  | .none => "None"
  | .constant => "Constant"
  | .global => "Global"
  | .external => "External"
  | .frameIndex => "FrameIndex"
  | .register => "Register"

/-- The opcodes that belong to no processor. -/
inductive GenericOp where
  | entryToken | tokenFactor
  | constant | globalAddress | externalSymbol | frameIndex
  | register | copyFromReg | copyToReg
  | targetConstant | targetGlobalAddress | targetExternalSymbol | targetFrameIndex
  | load | store
  | add | sub | mul | sdiv | udiv
  | and | or | xor | shl | srl | sra
  | ret
  deriving DecidableEq, Repr, Inhabited

namespace GenericOp

/-- Every generic opcode, in order. -/
def all : List GenericOp :=
  [.entryToken, .tokenFactor, .constant, .globalAddress, .externalSymbol, .frameIndex, .register,
   .copyFromReg, .copyToReg, .targetConstant, .targetGlobalAddress, .targetExternalSymbol,
   .targetFrameIndex, .load, .store, .add, .sub, .mul, .sdiv, .udiv, .and, .or, .xor, .shl, .srl,
   .sra, .ret]

/-- The printed name of a generic opcode. -/
def name : GenericOp → String
  | .entryToken => "EntryToken"
  | .tokenFactor => "TokenFactor"
  | .constant => "Constant"
  | .globalAddress => "GlobalAddress"
  | .externalSymbol => "ExternalSymbol"
  | .frameIndex => "FrameIndex"
  | .register => "Register"
  | .copyFromReg => "CopyFromReg"
  | .copyToReg => "CopyToReg"
  | .targetConstant => "TargetConstant"
  | .targetGlobalAddress => "TargetGlobalAddress"
  | .targetExternalSymbol => "TargetExternalSymbol"
  | .targetFrameIndex => "TargetFrameIndex"
  | .load => "load"
  | .store => "store"
  | .add => "add"
  | .sub => "sub"
  | .mul => "mul"
  | .sdiv => "sdiv"
  | .udiv => "udiv"
  | .and => "and"
  | .or => "or"
  | .xor => "xor"
  | .shl => "shl"
  | .srl => "srl"
  | .sra => "sra"
  | .ret => "ret"

/-- The position of a generic opcode. -/
def rank (op : GenericOp) : Nat :=
  all.idxOf op

/-- The generic opcode with a printed name. -/
def ofName? (text : String) : Option GenericOp :=
  all.find? fun op => op.name == text

/-- The kind of payload that nodes of an opcode carry. -/
def payloadKind : GenericOp → PayloadKind
  | .constant | .targetConstant => .constant
  | .globalAddress | .targetGlobalAddress => .global
  | .externalSymbol | .targetExternalSymbol => .external
  | .frameIndex | .targetFrameIndex => .frameIndex
  | .register => .register
  | _ => .none

/-- The leaves that an instruction can already take as they are. -/
def isTargetLeaf : GenericOp → Bool
  | .targetConstant | .targetGlobalAddress | .targetExternalSymbol | .targetFrameIndex => true
  | _ => false

/-- The opcodes that selection leaves as they are. -/
def needsNoSelection : GenericOp → Bool
  | .entryToken | .tokenFactor | .register | .copyFromReg | .copyToReg => true
  | op => op.isTargetLeaf

/-- The form that a foldable leaf takes as an operand of an instruction. -/
def targetLeaf? : GenericOp → Option GenericOp
  | .constant => some .targetConstant
  | .globalAddress => some .targetGlobalAddress
  | .externalSymbol => some .targetExternalSymbol
  | .frameIndex => some .targetFrameIndex
  | _ => none

end GenericOp

/-- An instruction as the graph knows it. -/
structure MachineOp where
  id : Nat
  name : String
  deriving DecidableEq, Repr, Inhabited

/-- What a node computes. -/
inductive Opcode where
  | generic (op : GenericOp)
  | machine (op : MachineOp)
  deriving DecidableEq, Repr, Inhabited

namespace Opcode

/-- The printed name of an opcode. -/
def name : Opcode → String
  | .generic op => op.name
  | .machine op => op.name

/-- The generic opcode, for a node that is not an instruction yet. -/
def generic? : Opcode → Option GenericOp
  | .generic op => some op
  | .machine _ => none

/-- Whether the node is an instruction. -/
def isMachine : Opcode → Bool
  | .generic _ => false
  | .machine _ => true

end Opcode

end DagSelect
