/-
Module: DagSelect.Z80.Target
Purpose: A processor of the family as selection sees it. Memory references in inline assembly are not
  supported.
Main exports: Processor.target, Processor.targetLog
-/
import DagSelect.Selection.Target
import DagSelect.Z80.Patterns

namespace DagSelect.Z80

/-- The answer to a memory reference in inline assembly. -/
def refuseAsmOperand (value : Value) (constraint : Char) :
    Except SelectError (List Value) × List LogRecord :=
  (.error (.unimplemented "inline asm memory operand selection"),
   [.debug s!"inline asm memory operand {value.render} ('{constraint}') requested"])

namespace Processor

/-- The processor as selection sees it. -/
def target (processor : Processor) : Target Processor where
  features := processor
  table := patternTable
  addressTypes := processor.addressTypes
  isLegal := processor.isLegal
  asmOperand := refuseAsmOperand

/-- The records of building a processor and its pattern table. -/
def targetLog (processor : Processor) : List LogRecord :=
  processor.log ++ [.debug s!"Z80 pattern table: {patternTable.size} patterns"]

end Processor

end DagSelect.Z80
