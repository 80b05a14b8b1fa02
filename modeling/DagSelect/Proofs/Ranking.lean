/-
Module: DagSelect.Proofs.Ranking
Purpose: The order in which patterns are tried. Sorting is the insertion sort of the library, so the
  candidates for an opcode are the patterns of the table for that opcode. It puts those that ask for
  more first, and it keeps the order of those that ask for as much.
Main exports: sortBy_eq_insertionSort, insertionSort_stable, PatternTable.mem_ranked_iff,
  PatternTable.mem_candidates_iff, PatternTable.Precedes, PatternTable.ranked_pairwise,
  PatternTable.candidates_pairwise
-/
import DagSelect.Pattern.Table
import Mathlib.Data.List.Sort

namespace DagSelect

variable {α : Type} {Features : Type}

/-! ### Sorting -/

theorem insertBy_eq_orderedInsert (before : α → α → Bool) (a : α) (list : List α) :
    insertBy before a list = list.orderedInsert (fun a b => before a b = true) a := by
  induction list with
  | nil => rfl
  | cons b rest inductionHypothesis =>
      rw [insertBy, List.orderedInsert_cons, inductionHypothesis]

/-- The sort is the insertion sort of the library. -/
theorem sortBy_eq_insertionSort (before : α → α → Bool) (list : List α) :
    sortBy before list = list.insertionSort fun a b => before a b = true := by
  induction list with
  | nil => rfl
  | cons a rest inductionHypothesis =>
      rw [sortBy, List.insertionSort_cons, inductionHypothesis, insertBy_eq_orderedInsert]

section Stable

variable {before earlier : α → α → Prop} [DecidableRel before] [Std.Total before]
  [IsTrans α before]

/-- Putting in an element that stood earlier than all others. -/
theorem orderedInsert_stable {a : α} {list : List α} (first : ∀ b ∈ list, earlier a b)
    (sorted : list.Pairwise fun a b => before a b ∧ (before b a → earlier a b)) :
    (list.orderedInsert before a).Pairwise fun a b => before a b ∧ (before b a → earlier a b) := by
  induction list with
  | nil => exact List.pairwise_singleton _ a
  | cons b rest inductionHypothesis =>
      obtain ⟨head, restSorted⟩ := List.pairwise_cons.mp sorted
      rw [List.orderedInsert_cons]
      split
      · rename_i stands
        refine List.pairwise_cons.mpr ⟨?_, sorted⟩
        intro other member
        refine ⟨?_, fun _ => first other member⟩
        rcases List.mem_cons.mp member with rfl | later
        · exact stands
        · exact Trans.trans stands (head other later).1
      · rename_i behind
        refine List.pairwise_cons.mpr ⟨?_, inductionHypothesis ?_ restSorted⟩
        · intro other member
          rcases (List.mem_orderedInsert before).mp member with rfl | later
          · exact ⟨(total_of before other b).resolve_left behind, fun back => absurd back behind⟩
          · exact head other later
        · exact fun other member => first other (List.mem_cons_of_mem b member)

/-- Each element of a sorted list may stand before the later ones, and where the other way round is
allowed too, it stood earlier. -/
theorem insertionSort_stable {list : List α} (order : list.Pairwise earlier) :
    (list.insertionSort before).Pairwise fun a b => before a b ∧ (before b a → earlier a b) := by
  induction list with
  | nil => exact .nil
  | cons a rest inductionHypothesis =>
      obtain ⟨first, restOrder⟩ := List.pairwise_cons.mp order
      apply orderedInsert_stable _ (inductionHypothesis restOrder)
      exact fun b member => first b ((List.mem_insertionSort before).mp member)

end Stable

/-! ### Candidates -/

namespace PatternTable

variable {table : PatternTable Features} {op : GenericOp} {pattern : Pattern Features}

/-- The entries for an opcode are the patterns of the table for that opcode, each with its place. -/
theorem mem_ranked_iff {position : Nat} :
    (pattern, position) ∈ table.ranked op ↔
      table.patterns[position]? = some pattern ∧ pattern.op = op := by
  rw [ranked, sortBy_eq_insertionSort, List.mem_insertionSort, List.mem_filter,
    List.mem_zipIdx_iff_getElem?, beq_iff_eq]

/-- Trying the candidates for an opcode tries the patterns of the table for that opcode, and no
others. -/
theorem mem_candidates_iff :
    pattern ∈ table.candidates op ↔ pattern ∈ table.patterns ∧ pattern.op = op := by
  rw [candidates, List.mem_map, List.mem_iff_getElem? (l := table.patterns)]
  constructor
  · rintro ⟨⟨_, position⟩, listed, rfl⟩
    obtain ⟨found, sameOp⟩ := mem_ranked_iff.mp listed
    exact ⟨⟨position, found⟩, sameOp⟩
  · rintro ⟨⟨position, found⟩, sameOp⟩
    exact ⟨(pattern, position), mem_ranked_iff.mpr ⟨found, sameOp⟩, rfl⟩

/-- One entry of a table goes before another: it asks for more, or it asks for as much and has the
lower place. -/
def Precedes (first later : Pattern Features × Nat) : Prop :=
  later.1.complexity < first.1.complexity ∨
    later.1.complexity = first.1.complexity ∧ first.2 < later.2

theorem Precedes.ne {first later : Pattern Features × Nat} (precedes : Precedes first later) :
    first ≠ later := by
  rintro rfl
  rcases precedes with less | ⟨_, less⟩
  · exact Int.lt_irrefl _ less
  · exact Nat.lt_irrefl _ less

/-- The entries for an opcode are in order of precedence. -/
theorem ranked_pairwise (table : PatternTable Features) (op : GenericOp) :
    (table.ranked op).Pairwise Precedes := by
  have places : (table.patterns.zipIdx.filter fun entry => entry.1.op == op).Pairwise
      fun first later => first.2 < later.2 := by
    apply List.Pairwise.filter
    rw [← List.pairwise_map (f := Prod.snd), List.zipIdx_map_snd]
    exact List.pairwise_lt_range'
  have total : Std.Total fun a b : Pattern Features × Nat =>
      decide (b.1.complexity ≤ a.1.complexity) = true := by
    constructor
    intro a b
    simp only [decide_eq_true_eq]
    exact Int.le_total _ _
  have trans : IsTrans (Pattern Features × Nat) fun a b =>
      decide (b.1.complexity ≤ a.1.complexity) = true := by
    constructor
    intro a b c
    simp only [decide_eq_true_eq]
    exact fun first second => Int.le_trans second first
  rw [ranked, sortBy_eq_insertionSort]
  refine (insertionSort_stable places).imp ?_
  intro first later
  simp only [decide_eq_true_eq]
  rintro ⟨atMost, whenEqual⟩
  rcases Int.lt_or_eq_of_le atMost with less | same
  · exact Or.inl less
  · exact Or.inr ⟨same, whenEqual (Int.le_of_eq same.symm)⟩

/-- A candidate asks for at least as much as those after it. -/
theorem candidates_pairwise (table : PatternTable Features) (op : GenericOp) :
    (table.candidates op).Pairwise fun first later => later.complexity ≤ first.complexity := by
  rw [candidates, List.pairwise_map]
  apply (table.ranked_pairwise op).imp
  rintro first later (less | ⟨same, _⟩)
  · exact Int.le_of_lt less
  · exact Int.le_of_eq same

end PatternTable

end DagSelect
