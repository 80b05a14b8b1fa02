/-
Module: DagSelect.Z80.Patterns
Purpose: The patterns of the family, in table order. Constants, symbols and stack slots are loaded
  into registers; loads and stores come in absolute, indexed and indirect forms for every width;
  arithmetic has register, immediate and special constant forms; shifts by one have instructions of
  their own. Guards keep each pattern to the processors that have its instruction.
Main exports: patterns, patternTable
-/
import DagSelect.Pattern.Table
import DagSelect.Z80.Instruction
import DagSelect.Z80.Processor

namespace DagSelect.Z80

/-! ### Guards -/

/-- Pointers have 16 bits. -/
def is16Bit : Guard Processor := ⟨"Is16Bit", Processor.is16Bit⟩

/-- Pointers have 24 bits. -/
def is24Bit : Guard Processor := ⟨"Is24Bit", Processor.is24Bit⟩

/-- The undocumented instructions work. -/
def hasUndocOps : Guard Processor := ⟨"HasUndocOps", Processor.undocOps⟩

/-- There is a multiply instruction. -/
def hasMultiply : Guard Processor :=
  ⟨"HasZ180Ops|HasEZ80Ops", fun processor => processor.z180Ops || processor.ez80Ops⟩

/-- The eZ80 instructions work on 16-bit pointers. -/
def has16BitEz80Ops : Guard Processor := ⟨"Has16BitEZ80Ops", Processor.has16BitEz80Ops⟩

/-- The eZ80 instructions work on 24-bit pointers. -/
def has24BitEz80Ops : Guard Processor := ⟨"Has24BitEZ80Ops", Processor.has24BitEz80Ops⟩

/-! ### Forms by width -/

/-- The instructions that move values of one width. -/
structure WidthForms where
  type : SimpleType
  guard : Guard Processor
  immediate : Instruction
  loadAbsolute : Instruction
  loadIndexed : Instruction
  loadIndirect : Instruction
  storeAbsolute : Instruction
  storeIndexed : Instruction
  storeIndirect : Instruction

/-- The widths that can be moved. -/
def widths : List WidthForms :=
  [{ type := .i8, guard := .always, immediate := .LD8ri,
     loadAbsolute := .LD8am, loadIndexed := .LD8go, loadIndirect := .LD8gp,
     storeAbsolute := .LD8ma, storeIndexed := .LD8og, storeIndirect := .LD8pg },
   { type := .i16, guard := .always, immediate := .LD16ri,
     loadAbsolute := .LD16am, loadIndexed := .LD16go, loadIndirect := .LD16gp,
     storeAbsolute := .LD16ma, storeIndexed := .LD16og, storeIndirect := .LD16pg },
   { type := .i24, guard := is24Bit, immediate := .LD24ri,
     loadAbsolute := .LD24am, loadIndexed := .LD24go, loadIndirect := .LD24gp,
     storeAbsolute := .LD24ma, storeIndexed := .LD24og, storeIndirect := .LD24pg }]

/-- A pattern named after its instruction. -/
def rule (op : GenericOp) (emit : Instruction) (typeTest : TypeTest) (guard : Guard Processor)
    (operands : List Matcher) : Pattern Processor where
  name := emit.name
  op := op
  emit := emit.toMachineOp
  typeTest := typeTest
  guard := guard
  operands := operands

/-- A pattern for a leaf, named after its instruction. -/
def leafRule (op : GenericOp) (emit : Instruction) (type : SimpleType) (guard : Guard Processor)
    (root : Matcher) : Pattern Processor :=
  { rule op emit (.result type) guard [] with root := some root }

/-! ### The table -/

/-- Constants, symbols and stack slots. Symbols are as wide as pointers. -/
def leafPatterns : List (Pattern Processor) :=
  (widths.map fun width => leafRule .constant width.immediate width.type width.guard .imm) ++
  [{ leafRule .globalAddress .LD16ri .i16 is16Bit .mem with name := "LD16ri_global" },
   { leafRule .globalAddress .LD24ri .i24 is24Bit .mem with name := "LD24ri_global" },
   { leafRule .externalSymbol .LD16ri .i16 is16Bit .mem with name := "LD16ri_external" },
   { leafRule .externalSymbol .LD24ri .i24 is24Bit .mem with name := "LD24ri_external" },
   { leafRule .frameIndex .LEA16ro .i16 has16BitEz80Ops .off with addedComplexity := 1 },
   leafRule .frameIndex .ADD16fi .i16 is16Bit .off,
   leafRule .frameIndex .LEA24ro .i24 has24BitEz80Ops .off]

/-- Loads and stores of one width. -/
def WidthForms.memoryPatterns (width : WidthForms) : List (Pattern Processor) :=
  [rule .load width.loadAbsolute (.result width.type) width.guard [.chain, .mem],
   rule .load width.loadIndexed (.result width.type) width.guard [.chain, .off],
   rule .load width.loadIndirect (.result width.type) width.guard [.chain, .reg],
   rule .store width.storeAbsolute (.operand 1 width.type) width.guard [.chain, .reg, .mem],
   rule .store width.storeIndexed (.operand 1 width.type) width.guard [.chain, .reg, .off],
   rule .store width.storeIndirect (.operand 1 width.type) width.guard [.chain, .reg, .reg]]

/-- The register and immediate forms of an 8-bit operation on the accumulator. -/
def accumulatorPatterns (op : GenericOp) (register immediate : Instruction) :
    List (Pattern Processor) :=
  [rule op register (.result .i8) .always [.reg, .reg],
   rule op immediate (.result .i8) .always [.reg, .imm]]

/-- The 8-bit operations on the accumulator. -/
def bytePatterns : List (Pattern Processor) :=
  accumulatorPatterns .add .ADD8ar .ADD8ai ++ accumulatorPatterns .sub .SUB8ar .SUB8ai ++
  accumulatorPatterns .and .AND8ar .AND8ai ++ accumulatorPatterns .or .OR8ar .OR8ai ++
  accumulatorPatterns .xor .XOR8ar .XOR8ai ++
  [{ rule .add .INC8r (.result .i8) .always [.reg, .exactly 1] with name := "INC8r_add" },
   { rule .add .DEC8r (.result .i8) .always [.reg, .exactly (-1)] with name := "DEC8r_add" },
   { rule .sub .DEC8r (.result .i8) .always [.reg, .exactly 1] with name := "DEC8r_sub" },
   rule .xor .CPL (.result .i8) .always [.reg, .exactly (-1)]]

/-- The operations on register pairs of one width. -/
def widePatterns (type : SimpleType) (guard : Guard Processor) (add sub inc dec : Instruction) :
    List (Pattern Processor) :=
  [rule .add add (.result type) guard [.reg, .reg],
   rule .sub sub (.result type) guard [.reg, .reg],
   { rule .add inc (.result type) guard [.reg, .exactly 1] with name := inc.name ++ "_add" },
   { rule .add dec (.result type) guard [.reg, .exactly (-1)] with name := dec.name ++ "_add" },
   { rule .sub dec (.result type) guard [.reg, .exactly 1] with name := dec.name ++ "_sub" }]

/-- Shifts and multiplication. The instruction `SLL8r` shifts a one into the lowest bit. -/
def shiftPatterns : List (Pattern Processor) :=
  [rule .shl .SLA8r (.result .i8) .always [.reg, .exactly 1],
   rule .srl .SRL8r (.result .i8) .always [.reg, .exactly 1],
   rule .sra .SRA8r (.result .i8) .always [.reg, .exactly 1],
   rule .or .SLL8r (.result .i8) hasUndocOps [.node .shl [.reg, .exactly 1], .exactly 1],
   rule .mul .MLT8rr (.result .i8) hasMultiply [.reg, .reg]]

/-- Returns without and with a value. -/
def returnPatterns : List (Pattern Processor) :=
  [rule .ret .RET .any .always [.chain],
   { rule .ret .RET .any .always [.chain, .reg] with name := "RET_value" }]

/-- Every pattern of the family, in table order. -/
def patterns : List (Pattern Processor) :=
  leafPatterns ++ widths.flatMap WidthForms.memoryPatterns ++ bytePatterns ++
  widePatterns .i16 .always .ADD16aa .SBC16aa .INC16r .DEC16r ++
  widePatterns .i24 is24Bit .ADD24aa .SBC24aa .INC24r .DEC24r ++
  shiftPatterns ++ returnPatterns

/-- The pattern table of the family. -/
def patternTable : PatternTable Processor where
  patterns := patterns
  rankable := by decide +kernel

end DagSelect.Z80
