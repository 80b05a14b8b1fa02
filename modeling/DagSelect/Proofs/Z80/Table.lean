/-
Module: DagSelect.Proofs.Z80.Table
Purpose: What holds of every pattern of the family's table, and a processor to try the table on.
Main exports: Z80.Processor.plain, Z80.target_folds, Z80.Processor.Has
-/
import DagSelect.Proofs.Finding
import DagSelect.Proofs.Turn
import DagSelect.Z80.Target

namespace DagSelect.Z80

/-- The plainest processor of the family. -/
def Processor.plain : Processor where
  triple := { arch := .z80 }
  mode := .bits16
  undocOps := false
  z180Ops := false
  ez80Ops := false
  ez80_of_bits24 := by decide

/-- No pattern of the family hands on the node that it covers: the matcher of a leaf makes a new
leaf of it. -/
theorem target_folds (processor : Processor) : processor.target.Folds := by
  have folds : ∀ pattern ∈ patterns,
      (pattern.root.all fun matcher => !matcher.passesOn) = true := by
    decide +kernel
  intro pattern listed matcher root
  have own := folds pattern listed
  rw [root] at own
  simpa using own

/-- The processor has a pattern that asks for an opcode, a type and forms of the operands. -/
def Processor.Has (processor : Processor) (op : GenericOp) (test : TypeTest)
    (matchers : List Matcher) : Prop :=
  ∃ pattern ∈ patterns, pattern.guard.holds processor = true ∧ pattern.AsksFor op test matchers

/-- A rule asks for what it is made of, under whatever name. -/
theorem asksFor_rule {op : GenericOp} {emit : Instruction} {test : TypeTest}
    {guard : Guard Processor} {matchers : List Matcher} {name : String} :
    Pattern.AsksFor { rule op emit test guard matchers with name := name } op test matchers := by
  constructor <;> simp [Pattern.complexity, rule]

end DagSelect.Z80
