/-
Module: DagSelect.Z80.Triple
Purpose: The text that names a system: `arch-vendor-os-environment`, of which all but the first part
  may be missing. The environment takes whatever follows the third hyphen.
Main exports: Arch, Triple, Triple.read, Triple.render
-/
import DagSelect.Text.Basic

namespace DagSelect.Z80

/-- The processor family. -/
inductive Arch where
  | z80 | ez80
  deriving DecidableEq, Repr, Inhabited

namespace Arch

/-- The written name of a family. -/
def name : Arch → String
  | .z80 => "z80"
  | .ez80 => "ez80"

/-- The family with a name. -/
def ofName? (text : String) : Option Arch :=
  [Arch.z80, Arch.ez80].find? fun arch => arch.name == text

end Arch

/-- The name of a system. -/
structure Triple where
  arch : Arch
  vendor : String := "unknown"
  os : String := "unknown"
  environment : String := ""
  deriving DecidableEq, Repr, Inhabited

namespace Triple

/-- The written form of a triple. An empty environment is left out. -/
def render (triple : Triple) : String :=
  let system := triple.arch.name ++ "-" ++ triple.vendor ++ "-" ++ triple.os
  if triple.environment.isEmpty then system else system ++ "-" ++ triple.environment

/-- Reads a triple; gives the family that is not known otherwise. -/
def read (text : String) : Except String Triple :=
  let parts := (Text.fields '-' text.toList).map String.ofList
  let family := parts.headD ""
  match Arch.ofName? family with
  | none => .error family
  | some arch =>
    .ok {
      arch
      vendor := parts[1]?.getD "unknown"
      os := parts[2]?.getD "unknown"
      environment := String.intercalate "-" (parts.drop 3) }

end Triple

end DagSelect.Z80
