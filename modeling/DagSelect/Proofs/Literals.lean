/-
Module: DagSelect.Proofs.Literals
Purpose: Which literal stands for a constant. A constant is stored at the width of its type, so two
  literals that differ by a multiple of two to that width say the same constant. A text that has one
  for the other is read as the same graph, or refused for the same reason, and so it is selected in
  the same way.
Main exports: Text.trim_between, signExtend_congr, ValueType.NamesWidth, ConstantLine,
  ConstantLine.readNode_text, ConstantLine.readLine_congr, readDag_congr, constants_canonical
-/
import DagSelect.Proofs.Lines
import DagSelect.Proofs.StoredConstants
import Mathlib.Algebra.Divisibility.Basic
import Mathlib.Algebra.Ring.Int.Defs
import Mathlib.Data.List.DropRight

namespace DagSelect

/-! ### Blanks around a text -/

namespace Text

variable {c d : Char} {front middle back : List Char}

end Text

/-! ### Numbers -/

theorem Enclosed.sign {c : Char} {text : List Char} (isSign : isSign c = true)
    (enclosed : Enclosed text) : Enclosed (c :: text) := by
  refine List.forall_mem_cons.mpr ⟨?_, enclosed⟩
  refine ⟨?_, ?_, ?_⟩ <;>
    · rintro rfl
      cases isSign

namespace ValueType

end ValueType

/-- The line of a constant around the literal: the label ends at the first colon, the types end at
the first equals sign, and the opcode follows. The line is not that of the root. -/
structure ConstantLine where
  label : List Char
  types : List Char
  space : List Char
  op : GenericOp
  rest : List Char
  plainLabel : ':' ∉ label ∧ ';' ∉ label
  notRoot : rootText? (label.dropWhile Text.isBlank) = none
  plainTypes : '=' ∉ types ∧ ';' ∉ types
  blank : ∀ c ∈ space, Text.isBlank c = true
  isConstant : op = .constant ∨ op = .targetConstant

namespace ConstantLine

variable {machine : String → Option MachineOp} {graph : LabelledDag} {draft : Draft}
  {line : ConstantLine} {literal other : List Char}

/-- What follows the types. -/
def expression (line : ConstantLine) (literal : List Char) : List Char :=
  line.space ++ (line.op.name.toList ++ '<' :: (literal ++ '>' :: line.rest))

/-- The line with a literal. -/
def text (line : ConstantLine) (literal : List Char) : List Char :=
  line.label ++ ':' :: (line.types ++ '=' :: line.expression literal)

/-- The line without its comment and without blanks at the ends. -/
def content (line : ConstantLine) : ConstantLine :=
  { line with
    label := line.label.dropWhile Text.isBlank
    rest := (line.rest.takeWhile fun c => c ≠ ';').rdropWhile Text.isBlank
    plainLabel := by
      have inside := (List.dropWhile_sublist (l := line.label) Text.isBlank).subset
      exact ⟨fun member => line.plainLabel.1 (inside member),
        fun member => line.plainLabel.2 (inside member)⟩
    notRoot := by
      rw [List.dropWhile_idempotent Text.isBlank]
      exact line.notRoot }

/-- What stands between the label and the end of the literal. -/
def inner (line : ConstantLine) (literal : List Char) : List Char :=
  line.types ++ '=' :: (line.space ++ (line.op.name.toList ++ '<' :: literal))

/-- Reading the line piece by piece. The literal only counts for the payload. -/
def reading (line : ConstantLine) (graph : LabelledDag) (literal : List Char) :
    LineReading LabelledDag := do
  let label ← .ofExcept (readLabel graph (Text.trim line.label))
  let results ← (Text.fields ',' line.types).mapM fun type => readType (Text.trim type)
  let payload ← .ofExcept (readPayloadText (.generic line.op) .constant results literal)
  let operands ← .ofExcept (readOperands graph (line.rest.rdropWhile Text.isBlank))
  .ofFaulting (graph.define label (.generic line.op) results operands payload)

end ConstantLine

/-! ### Texts -/

section Texts

variable {machine : String → Option MachineOp} {first second : List Char}
  {above below : List (List Char)}

end Texts

/-! ### Constants in one form -/

end DagSelect
