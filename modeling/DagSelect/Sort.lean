/-
Module: DagSelect.Sort
Purpose: A stable sort by plain recursion, for short lists whose order is part of the output.
Main exports: insertBy, sortBy
-/
namespace DagSelect

variable {α : Type}

/-- Puts an element in front of the first one that it may stand before. -/
def insertBy (before : α → α → Bool) (a : α) : List α → List α
  | [] => [a]
  | b :: rest => if before a b then a :: b :: rest else b :: insertBy before a rest

/-- The elements of a list so that each may stand before the next. Elements that may stand on either
side of each other keep their order. -/
def sortBy (before : α → α → Bool) : List α → List α
  | [] => []
  | a :: rest => insertBy before a (sortBy before rest)

end DagSelect
