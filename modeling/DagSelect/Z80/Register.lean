/-
Module: DagSelect.Z80.Register
Purpose: The registers, grouped into the classes from which values are allocated.
Main exports: PointerMode, Register, RegisterClass, registerClasses
-/
namespace DagSelect.Z80

/-- The width of pointers. -/
inductive PointerMode where
  | bits16 | bits24
  deriving DecidableEq, Repr, Inhabited

/-- The printed name of a pointer mode. -/
def PointerMode.name : PointerMode → String
  | .bits16 => "Bits16"
  | .bits24 => "Bits24"

/-- One register. -/
inductive Register where
  | a | b | c | d | e | h | l
  | ixh | ixl | iyh | iyl
  | bc | de | hl
  | ix | iy
  | ubc | ude | uhl
  | uix | uiy
  deriving DecidableEq, Repr, Inhabited

/-- The printed name of a register. -/
def Register.name : Register → String
  | .a => "a"
  | .b => "b"
  | .c => "c"
  | .d => "d"
  | .e => "e"
  | .h => "h"
  | .l => "l"
  | .ixh => "ixh"
  | .ixl => "ixl"
  | .iyh => "iyh"
  | .iyl => "iyl"
  | .bc => "bc"
  | .de => "de"
  | .hl => "hl"
  | .ix => "ix"
  | .iy => "iy"
  | .ubc => "ubc"
  | .ude => "ude"
  | .uhl => "uhl"
  | .uix => "uix"
  | .uiy => "uiy"

/-- Registers that can stand for each other. -/
inductive RegisterClass where
  | r8 | i8 | r16 | i16 | r24 | i24
  deriving DecidableEq, Repr, Inhabited

namespace RegisterClass

/-- Every class, narrowest first. -/
def all : List RegisterClass :=
  [.r8, .i8, .r16, .i16, .r24, .i24]

/-- The printed name of a class. -/
def name : RegisterClass → String
  | .r8 => "R8"
  | .i8 => "I8"
  | .r16 => "R16"
  | .i16 => "I16"
  | .r24 => "R24"
  | .i24 => "I24"

/-- The width of the registers of a class. -/
def bits : RegisterClass → Nat
  | .r8 | .i8 => 8
  | .r16 | .i16 => 16
  | .r24 | .i24 => 24

/-- The registers of a class. -/
def members : RegisterClass → List Register
  | .r8 => [.a, .b, .c, .d, .e, .h, .l]
  | .i8 => [.ixh, .ixl, .iyh, .iyl]
  | .r16 => [.bc, .de, .hl]
  | .i16 => [.ix, .iy]
  | .r24 => [.ubc, .ude, .uhl]
  | .i24 => [.uix, .uiy]

end RegisterClass

/-- The classes of a processor. The halves of the index registers are a class of their own, which
not every processor has, and the wide classes exist in 24-bit mode only. -/
def registerClasses (mode : PointerMode) (indexHalves : Bool) : List RegisterClass :=
  [.r8] ++ (if indexHalves then [.i8] else []) ++ [.r16, .i16] ++
    (if mode = .bits24 then [.r24, .i24] else [])

end DagSelect.Z80
