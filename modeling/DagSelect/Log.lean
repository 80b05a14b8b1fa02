/-
Module: DagSelect.Log
Purpose: The records that describe what the library does while it does it.
Main exports: LogLevel, LogRecord
-/
namespace DagSelect

/-- How fine a record is. -/
inductive LogLevel where
  | debug | trace
  deriving DecidableEq, Repr, Inhabited

/-- One record of the log. -/
structure LogRecord where
  level : LogLevel
  text : String
  deriving DecidableEq, Repr, Inhabited

namespace LogRecord

/-- A record about a whole run. -/
def debug (text : String) : LogRecord := ⟨.debug, text⟩

/-- A record about a single step. -/
def trace (text : String) : LogRecord := ⟨.trace, text⟩

/-- The written form of a record. -/
def render (record : LogRecord) : String :=
  match record.level with
  | .debug => s!"DEBUG: {record.text}"
  | .trace => s!"TRACE: {record.text}"

end LogRecord

end DagSelect
