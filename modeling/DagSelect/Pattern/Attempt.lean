/-
Module: DagSelect.Pattern.Attempt
Purpose: An attempt to match. It gives a result, fails, or breaks off with a fault, and in each case
  it leaves the records of what it looked at.
Main exports: Attempt, Attempt.orElse
-/
import DagSelect.Fault
import DagSelect.Log

namespace DagSelect

/-- An attempt to find something, with its log. -/
structure Attempt (α : Type) where
  result : Except Fault (Option α)
  log : List LogRecord := []

namespace Attempt

variable {α β : Type}

/-- The attempt that gives a result at once. -/
def success (a : α) : Attempt α :=
  { result := .ok (some a) }

/-- The attempt that fails at once. -/
def failure : Attempt α :=
  { result := .ok none }

/-- A question about the graph that can fault. -/
def ask (answer : Except Fault α) : Attempt α :=
  { result := answer.map some }

/-- Goes on only under a condition. -/
def require (condition : Bool) : Attempt Unit :=
  if condition then success () else failure

/-- One attempt after another that succeeded. -/
def andThen (first : Attempt α) (next : α → Attempt β) : Attempt β :=
  match first.result with
  | .error fault => { result := .error fault, log := first.log }
  | .ok none => { result := .ok none, log := first.log }
  | .ok (some a) => { result := (next a).result, log := first.log ++ (next a).log }

/-- One attempt in place of another that failed. -/
def orElse (first : Attempt α) (other : Unit → Attempt α) : Attempt α :=
  match first.result with
  | .ok none => { result := (other ()).result, log := first.log ++ (other ()).log }
  | _ => first

instance : Monad Attempt where
  pure := success
  bind := andThen

end Attempt

end DagSelect
