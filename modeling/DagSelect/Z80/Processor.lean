/-
Module: DagSelect.Z80.Processor
Purpose: One processor of the family: its pointer width, the instruction sets that it has, and what
  follows from them, which registers there are and which types they hold.
Main exports: Features, ProcessorError, Processor, Processor.build, Processor.registerClassFor?,
  Processor.addressTypes
-/
import DagSelect.Address
import DagSelect.Z80.Register
import DagSelect.Z80.Triple

namespace DagSelect.Z80

/-- What is asked of a processor. -/
structure Features where
  undocOps : Bool := false
  z180Ops : Bool := false
  ez80Ops : Bool := false
  /-- The pointer width; the family decides if it is not given. -/
  mode : Option PointerMode := none
  deriving DecidableEq, Repr, Inhabited

/-- Why there is no such processor. -/
inductive ProcessorError where
  | unknownArch (name : String)
  | mode24RequiresEz80
  deriving DecidableEq, Repr

/-- The wording of an error. -/
def ProcessorError.message : ProcessorError → String
  | .unknownArch name => s!"unknown architecture '{name}' in target triple"
  | .mode24RequiresEz80 => "24-bit mode requires the eZ80 instruction set"

/-- One processor. Wide pointers come with the eZ80 instruction set only. -/
structure Processor where
  triple : Triple
  mode : PointerMode
  undocOps : Bool
  z180Ops : Bool
  ez80Ops : Bool
  ez80_of_bits24 : mode = .bits24 → ez80Ops = true
  deriving DecidableEq, Repr

namespace Processor

/-- The pointer width of a family. -/
def defaultMode : Arch → PointerMode
  | .z80 => .bits16
  | .ez80 => .bits24

/-- The processor with given features. The eZ80 family always has its instruction set. -/
def build (triple : Triple) (features : Features) : Except ProcessorError Processor :=
  let ez80Ops := features.ez80Ops || triple.arch == .ez80
  let mode := features.mode.getD (defaultMode triple.arch)
  if h : mode = .bits24 → ez80Ops = true then
    .ok {
      triple, mode, ez80Ops
      undocOps := features.undocOps
      z180Ops := features.z180Ops
      ez80_of_bits24 := h }
  else
    .error .mode24RequiresEz80

/-- The processor for a system named by text. -/
def ofTriple (text : String) (features : Features) : Except ProcessorError Processor :=
  match Triple.read text with
  | .ok triple => build triple features
  | .error family => .error (.unknownArch family)

/-- Whether pointers have 16 bits. -/
def is16Bit (processor : Processor) : Bool :=
  processor.mode == .bits16

/-- Whether pointers have 24 bits. -/
def is24Bit (processor : Processor) : Bool :=
  processor.mode == .bits24

/-- Whether the eZ80 instructions work on 16-bit pointers. -/
def has16BitEz80Ops (processor : Processor) : Bool :=
  processor.is16Bit && processor.ez80Ops

/-- Whether the eZ80 instructions work on 24-bit pointers. -/
def has24BitEz80Ops (processor : Processor) : Bool :=
  processor.is24Bit && processor.ez80Ops

/-! ### Registers and types -/

/-- The register classes, in order. -/
def classes (processor : Processor) : List RegisterClass :=
  registerClasses processor.mode (processor.undocOps || processor.ez80Ops)

/-- Whether the processor has a register class. -/
def hasClass (processor : Processor) (registerClass : RegisterClass) : Bool :=
  processor.classes.contains registerClass

/-- Whether the halves of the index registers can be used on their own. -/
def hasIndexHalves (processor : Processor) : Bool :=
  processor.hasClass .i8

/-- Adds the type that a class holds, unless an earlier class of the same width holds it. -/
def addLegalType (legal : List (SimpleType × RegisterClass)) (registerClass : RegisterClass) :
    List (SimpleType × RegisterClass) :=
  match SimpleType.integer? registerClass.bits with
  | none => legal
  | some type =>
    if legal.any fun entry => entry.1 == type then legal else legal ++ [(type, registerClass)]

/-- The types that a register can hold, each with the class from which it is allocated. -/
def legalTypes (processor : Processor) : List (SimpleType × RegisterClass) :=
  processor.classes.foldl addLegalType []

/-- The class from which values of a type are allocated. -/
def registerClassFor? (processor : Processor) : ValueType → Option RegisterClass
  | .simple type => processor.legalTypes.lookup type
  | .extended _ => none

/-- Whether a register can hold values of a type. -/
def isLegal (processor : Processor) (type : ValueType) : Bool :=
  (processor.registerClassFor? type).isSome

/-- The type of pointers. -/
def pointerType (processor : Processor) : SimpleType :=
  match processor.mode with
  | .bits16 => .i16
  | .bits24 => .i24

/-- The types that addresses are built with. A constant address is as wide as a pointer, and a stack
slot has an offset of one byte. -/
def addressTypes (processor : Processor) : AddressTypes where
  pointer := processor.pointerType
  immediate := processor.pointerType
  frameOffset := .i8

/-! ### The log of building a processor -/

/-- The list of the legal types, as it stands in the log. -/
def renderLegalTypes (processor : Processor) : String :=
  let entries := processor.legalTypes.map fun entry => s!"(I{entry.1.scalarBits}, {entry.2.name})"
  "[" ++ String.intercalate ", " entries ++ "]"

/-- The records of building a processor. -/
def log (processor : Processor) : List LogRecord :=
  [.trace s!"legal types for {processor.mode.name}: {processor.renderLegalTypes}",
   .debug (s!"Subtarget {processor.triple.render}: mode {processor.mode.name}, " ++
    s!"undoc {processor.undocOps}, z180 {processor.z180Ops}, ez80 {processor.ez80Ops}")]

end Processor

end DagSelect.Z80
