/-
Module: DagSelect.Power
Purpose: Powers of two, which bound every width and number of the library.
Main exports: twoPow
-/
namespace DagSelect

/-- Two to the power of `n`. -/
def twoPow (n : Nat) : Nat :=
  Nat.pow 2 n

end DagSelect
