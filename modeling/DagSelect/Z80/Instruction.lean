/-
Module: DagSelect.Z80.Instruction
Purpose: The instructions that selection produces, each with a name and an assembly template. The
  name gives the width and then the operands: `r` register, `i` immediate, `a` accumulator, `m`
  absolute memory, `o` memory at an offset, `p` memory through a pointer, `g` any register, `f` frame.
  In a template `$k` stands for operand `k` and `$r` for the result.
Main exports: Instruction, Instruction.name, Instruction.template, Instruction.toMachineOp,
  Instruction.ofMachineOp?, machineOp?
-/
import DagSelect.Opcode

namespace DagSelect.Z80

/-- One instruction form. The number of an instruction is its place in this list. -/
inductive Instruction where
  | LD8ri | LD16ri | LD24ri
  | LD8am | LD16am | LD24am | LD8go | LD16go | LD24go | LD8gp | LD16gp | LD24gp
  | LD8ma | LD16ma | LD24ma | LD8og | LD16og | LD24og | LD8pg | LD16pg | LD24pg
  | LEA16ro | LEA24ro | ADD16fi
  | ADD8ar | ADD8ai | ADD16aa | ADD24aa | SUB8ar | SUB8ai | SBC16aa | SBC24aa
  | INC8r | DEC8r | INC16r | DEC16r | INC24r | DEC24r
  | AND8ar | AND8ai | OR8ar | OR8ai | XOR8ar | XOR8ai | CPL
  | SLA8r | SRL8r | SRA8r | SLL8r
  | MLT8rr | RET
  deriving DecidableEq, Repr, Inhabited

namespace Instruction

/-- Every instruction, in order. -/
def all : List Instruction :=
  [.LD8ri, .LD16ri, .LD24ri, .LD8am, .LD16am, .LD24am, .LD8go, .LD16go, .LD24go, .LD8gp, .LD16gp,
   .LD24gp, .LD8ma, .LD16ma, .LD24ma, .LD8og, .LD16og, .LD24og, .LD8pg, .LD16pg, .LD24pg, .LEA16ro,
   .LEA24ro, .ADD16fi, .ADD8ar, .ADD8ai, .ADD16aa, .ADD24aa, .SUB8ar, .SUB8ai, .SBC16aa, .SBC24aa,
   .INC8r, .DEC8r, .INC16r, .DEC16r, .INC24r, .DEC24r, .AND8ar, .AND8ai, .OR8ar, .OR8ai, .XOR8ar,
   .XOR8ai, .CPL, .SLA8r, .SRL8r, .SRA8r, .SLL8r, .MLT8rr, .RET]

/-- The printed name of an instruction. -/
def name : Instruction → String
  | .LD8ri => "LD8ri"
  | .LD16ri => "LD16ri"
  | .LD24ri => "LD24ri"
  | .LD8am => "LD8am"
  | .LD16am => "LD16am"
  | .LD24am => "LD24am"
  | .LD8go => "LD8go"
  | .LD16go => "LD16go"
  | .LD24go => "LD24go"
  | .LD8gp => "LD8gp"
  | .LD16gp => "LD16gp"
  | .LD24gp => "LD24gp"
  | .LD8ma => "LD8ma"
  | .LD16ma => "LD16ma"
  | .LD24ma => "LD24ma"
  | .LD8og => "LD8og"
  | .LD16og => "LD16og"
  | .LD24og => "LD24og"
  | .LD8pg => "LD8pg"
  | .LD16pg => "LD16pg"
  | .LD24pg => "LD24pg"
  | .LEA16ro => "LEA16ro"
  | .LEA24ro => "LEA24ro"
  | .ADD16fi => "ADD16fi"
  | .ADD8ar => "ADD8ar"
  | .ADD8ai => "ADD8ai"
  | .ADD16aa => "ADD16aa"
  | .ADD24aa => "ADD24aa"
  | .SUB8ar => "SUB8ar"
  | .SUB8ai => "SUB8ai"
  | .SBC16aa => "SBC16aa"
  | .SBC24aa => "SBC24aa"
  | .INC8r => "INC8r"
  | .DEC8r => "DEC8r"
  | .INC16r => "INC16r"
  | .DEC16r => "DEC16r"
  | .INC24r => "INC24r"
  | .DEC24r => "DEC24r"
  | .AND8ar => "AND8ar"
  | .AND8ai => "AND8ai"
  | .OR8ar => "OR8ar"
  | .OR8ai => "OR8ai"
  | .XOR8ar => "XOR8ar"
  | .XOR8ai => "XOR8ai"
  | .CPL => "CPL"
  | .SLA8r => "SLA8r"
  | .SRL8r => "SRL8r"
  | .SRA8r => "SRA8r"
  | .SLL8r => "SLL8r"
  | .MLT8rr => "MLT8rr"
  | .RET => "RET"

/-- The assembly template of an instruction. -/
def template : Instruction → String
  | .LD8ri => "ld $r, $0"
  | .LD16ri => "ld $r, $0"
  | .LD24ri => "ld $r, $0"
  | .LD8am => "ld a, ($1)"
  | .LD16am => "ld $r, ($1)"
  | .LD24am => "ld $r, ($1)"
  | .LD8go => "ld $r, ($1 + $2)"
  | .LD16go => "ld $r, ($1 + $2)"
  | .LD24go => "ld $r, ($1 + $2)"
  | .LD8gp => "ld $r, ($1)"
  | .LD16gp => "ld $r, ($1)"
  | .LD24gp => "ld $r, ($1)"
  | .LD8ma => "ld ($2), a"
  | .LD16ma => "ld ($2), $1"
  | .LD24ma => "ld ($2), $1"
  | .LD8og => "ld ($2 + $3), $1"
  | .LD16og => "ld ($2 + $3), $1"
  | .LD24og => "ld ($2 + $3), $1"
  | .LD8pg => "ld ($2), $1"
  | .LD16pg => "ld ($2), $1"
  | .LD24pg => "ld ($2), $1"
  | .LEA16ro => "lea $r, $0 + $1"
  | .LEA24ro => "lea $r, $0 + $1"
  | .ADD16fi => "ld $r, $0 + $1 \\ add $r, sp"
  | .ADD8ar => "add a, $1"
  | .ADD8ai => "add a, $1"
  | .ADD16aa => "add hl, $1"
  | .ADD24aa => "add hl, $1"
  | .SUB8ar => "sub a, $1"
  | .SUB8ai => "sub a, $1"
  | .SBC16aa => "or a, a \\ sbc hl, $1"
  | .SBC24aa => "or a, a \\ sbc hl, $1"
  | .INC8r => "inc $0"
  | .DEC8r => "dec $0"
  | .INC16r => "inc $0"
  | .DEC16r => "dec $0"
  | .INC24r => "inc $0"
  | .DEC24r => "dec $0"
  | .AND8ar => "and a, $1"
  | .AND8ai => "and a, $1"
  | .OR8ar => "or a, $1"
  | .OR8ai => "or a, $1"
  | .XOR8ar => "xor a, $1"
  | .XOR8ai => "xor a, $1"
  | .CPL => "cpl"
  | .SLA8r => "sla $0"
  | .SRL8r => "srl $0"
  | .SRA8r => "sra $0"
  | .SLL8r => "sll $0"
  | .MLT8rr => "mlt $0"
  | .RET => "ret"

/-- The number of an instruction. -/
def id (instruction : Instruction) : Nat :=
  all.idxOf instruction

/-- The instruction with a name. -/
def ofName? (text : String) : Option Instruction :=
  all.find? fun instruction => instruction.name == text

/-- The instruction with a number. -/
def ofId? (id : Nat) : Option Instruction :=
  all[id]?

/-- An instruction as the graph knows it. -/
def toMachineOp (instruction : Instruction) : MachineOp where
  id := instruction.id
  name := instruction.name

/-- The instruction that the graph knows by a number and a name, which must agree. -/
def ofMachineOp? (op : MachineOp) : Option Instruction :=
  (ofId? op.id).filter fun instruction => instruction.name == op.name

end Instruction

/-- The instruction with a name, as the graph knows it. -/
def machineOp? (name : String) : Option MachineOp :=
  (Instruction.ofName? name).map Instruction.toMachineOp

/-- The assembly template of an instruction of the graph. -/
def asmTemplate? (op : MachineOp) : Option String :=
  (Instruction.ofMachineOp? op).map Instruction.template

end DagSelect.Z80
