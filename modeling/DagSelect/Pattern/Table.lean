/-
Module: DagSelect.Pattern.Table
Purpose: The patterns of a processor, and the order in which those for an opcode are tried: the ones
  that ask for more first, and in the order of the table among equals. A table holds only patterns
  that can be ranked.
Main exports: PatternTable, PatternTable.build, PatternTable.ranked, PatternTable.candidates
-/
import DagSelect.Pattern.Basic
import DagSelect.Sort

namespace DagSelect

/-- The patterns of a processor, in order. -/
structure PatternTable (Features : Type) where
  patterns : List (Pattern Features)
  rankable : ∀ pattern ∈ patterns, pattern.Rankable

namespace PatternTable

variable {Features : Type}

/-- The table of a list of patterns. A sum of complexities that has no 32-bit number is a fault,
whether or not the pattern is ever tried. -/
def build (patterns : List (Pattern Features)) : Except Fault (PatternTable Features) :=
  if rankable : ∀ pattern ∈ patterns, pattern.Rankable then .ok ⟨patterns, rankable⟩
  else .error .sumOverflow

/-- The number of patterns. -/
def size (table : PatternTable Features) : Nat :=
  table.patterns.length

/-- The patterns for an opcode in the order of trial, each with its place in the table. -/
def ranked (table : PatternTable Features) (op : GenericOp) : List (Pattern Features × Nat) :=
  sortBy (fun a b => decide (b.1.complexity ≤ a.1.complexity))
    (table.patterns.zipIdx.filter fun entry => entry.1.op == op)

/-- The patterns for an opcode in the order of trial. -/
def candidates (table : PatternTable Features) (op : GenericOp) : List (Pattern Features) :=
  (table.ranked op).map Prod.fst

/-- The first pattern with a name. -/
def find? (table : PatternTable Features) (name : String) : Option (Pattern Features) :=
  table.patterns.find? fun pattern => pattern.name == name

end PatternTable

end DagSelect
