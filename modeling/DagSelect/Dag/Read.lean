/-
Module: DagSelect.Dag.Read
Purpose: Reading a graph from text. A line is a node, `label: types = opcode<payload> operands`, or
  the root, `root value`; a semicolon starts a comment, and blank lines count for nothing but their
  number. Operands name earlier lines, so the order of the lines is a dependency order. A text that is
  no graph is refused with the number of the line at fault.
Main exports: ReadProblem, ReadFailure, LabelledDag, readValue, readPayload, readNode, readDag
-/
import DagSelect.Dag.Edit
import DagSelect.Log
import DagSelect.ValueType.Read

namespace DagSelect

/-! ### What can be wrong with a line -/

/-- Why a line is refused. -/
inductive ReadProblem where
  | noColon
  | badLabel (label : String)
  | duplicateLabel (label : String)
  | noEquals
  | unknownType (name : String)
  | unknownOpcode (name : String)
  | openPayload
  | badResultNumber (text : String)
  | undefinedValue (label : String)
  | noSuchResult (label : String) (results : Nat)
  | payloadNeeded (opcode : String)
  | payloadRefused (opcode : String)
  | constantOfNonInteger (type : ValueType)
  | globalWithoutAt
  | externalWithoutQuotes
  | badNumber (text : String)
  | textAfterRoot
  | missingRoot
  deriving DecidableEq, Repr

namespace ReadProblem

/-- The wording of a problem. -/
def message : ReadProblem → String
  | .noColon => "expected 'label: types = opcode operands'"
  | .badLabel label => s!"invalid label '{label}'"
  | .duplicateLabel label => s!"label '{label}' defined twice"
  | .noEquals => "expected '=' after the result types"
  | .unknownType name => s!"unknown value type '{name}'"
  | .unknownOpcode name => s!"unknown opcode '{name}'"
  | .openPayload => "unterminated '<' payload"
  | .badResultNumber text => s!"invalid result number in '{text}'"
  | .undefinedValue label => s!"undefined value '{label}'"
  | .noSuchResult label results => s!"'{label}' has only {results} results"
  | .payloadNeeded opcode => s!"'{opcode}' needs a <payload>"
  | .payloadRefused opcode => s!"'{opcode}' takes no payload"
  | .constantOfNonInteger type => s!"constant of non-integer type {type.name}"
  | .globalWithoutAt => "global payload must start with '@'"
  | .externalWithoutQuotes => "external symbol must be quoted"
  | .badNumber text => s!"invalid number '{text}'"
  | .textAfterRoot => "unexpected text after root"
  | .missingRoot => "missing root line"

end ReadProblem

/-- Why one line could not be read: its text, or a broken precondition of the library. -/
inductive LineFailure where
  | problem (cause : ReadProblem)
  | fault (cause : Fault)
  deriving DecidableEq, Repr

/-- Why a text could not be read. -/
inductive ReadFailure where
  | malformed (line : Nat) (problem : ReadProblem)
  | fault (cause : Fault)
  deriving DecidableEq, Repr

/-- The wording of a failure. -/
def ReadFailure.message : ReadFailure → String
  | .malformed line problem => s!"line {line}: {problem.message}"
  | .fault cause => cause.message

/-! ### Labels -/

/-- A graph with the labels of its nodes, both in the order of definition. -/
structure LabelledDag where
  dag : Dag := {}
  order : List NodeId := []
  labels : List (String × NodeId) := []
  deriving DecidableEq, Repr, Inhabited

namespace LabelledDag

/-- The node with a label. -/
def find? (graph : LabelledDag) (label : String) : Option NodeId :=
  graph.labels.lookup label

/-- The record of a graph that was read. -/
def readRecord (graph : LabelledDag) : LogRecord :=
  .trace s!"parsed DAG with {graph.dag.size} nodes"

/-- Adds a node under a new label. -/
def define (graph : LabelledDag) (label : String) (opcode : Opcode) (results : List ValueType)
    (operands : List Value) (payload : Payload) : Except Fault LabelledDag :=
  match (Dag.addNode opcode results operands payload).run graph.dag with
  | .ok id dag =>
    .ok { dag, order := graph.order ++ [id], labels := graph.labels ++ [(label, id)] }
  | .error fault _ => .error fault

end LabelledDag

/-! ### Values and payloads -/

/-- Reads a value: a label, or a label, a colon and the number of a result. -/
def readValue (graph : LabelledDag) (text : List Char) : Except ReadProblem Value := do
  let (label, result) ← match Text.cut? ':' text with
    | none => pure (text, 0)
    | some (label, digits) =>
      match Text.readNat? (twoPow 32) digits with
      | some result => pure (label, result)
      | none => throw (.badResultNumber (String.ofList text))
  let name := String.ofList label
  match graph.find? name with
  | none => throw (.undefinedValue name)
  | some node =>
    let results := ((graph.dag.node? node).map (·.results.length)).getD 0
    if result < results then return { node, result } else throw (.noSuchResult name results)

/-- Drops one plus sign in front of a numeral. -/
def dropPlus : List Char → List Char
  | '+' :: rest => rest
  | text => text

/-- Reads a signed number of `bits` bits. -/
def readSigned (bits : Nat) (text : List Char) : Except ReadProblem Int :=
  match Text.readInt? bits (dropPlus text) with
  | some value => .ok value
  | none => .error (.badNumber (String.ofList (dropPlus text)))

/-- Reads an unsigned number of `bits` bits. -/
def readUnsigned (bits : Nat) (text : List Char) : Except ReadProblem Nat :=
  match Text.readNat? (twoPow bits) (dropPlus text) with
  | some value => .ok value
  | none => .error (.badNumber (String.ofList (dropPlus text)))

/-- Whether a character is the sign of an offset. -/
def isSign (c : Char) : Bool :=
  c == '+' || c == '-'

/-- Divides a symbol from its offset: the last sign of the text starts the offset if something
stands before it and nothing but digits after it. -/
def splitOffset? (text : List Char) : Option (List Char × List Char) :=
  let digits := (text.reverse.takeWhile fun c => !isSign c).reverse
  match text.reverse.dropWhile fun c => !isSign c with
  | sign :: symbol =>
    if !symbol.isEmpty && digits.all Char.isDigit then some (symbol.reverse, sign :: digits)
    else none
  | [] => none

/-- Reads a symbol with an optional offset. -/
def readGlobal (text : List Char) : Except ReadProblem Payload :=
  match splitOffset? text with
  | some (symbol, offset) => do
    return .global (String.ofList symbol) (← readSigned 64 offset)
  | none => .ok (.global (String.ofList text) 0)

/-- Reads what stands between the angle brackets. A constant is sign-extended from the width of its
first result type. -/
def readPayloadText (opcode : Opcode) (kind : PayloadKind) (results : List ValueType)
    (text : List Char) : Except ReadProblem Payload :=
  match kind with
  | .none => .error (.payloadRefused opcode.name)
  | .constant => do
    let value ← readSigned 64 text
    let type := results.headD .chain
    if type.isScalarInteger then
      return .constant (signExtend value (type.bits?.getD 0))
    else
      throw (.constantOfNonInteger type)
  | .global =>
    match Text.stripLeading? '@' text with
    | some symbol => readGlobal symbol
    | none => .error .globalWithoutAt
  | .external =>
    match (Text.stripLeading? '\'' text).bind (Text.stripTrailing? '\'') with
    | some symbol => .ok (.external (String.ofList symbol))
    | none => .error .externalWithoutQuotes
  | .frameIndex => do return .frameIndex (← readSigned 32 text)
  | .register => do return .register (← readUnsigned 32 text)

/-- The kind of payload that a node of an opcode is written with. -/
def writtenPayloadKind : Opcode → PayloadKind
  | .generic op => op.payloadKind
  | .machine _ => .none

/-- Reads the payload of a node, which must be there exactly when the opcode asks for one. -/
def readPayload (opcode : Opcode) (results : List ValueType) :
    Option (List Char) → Except ReadProblem Payload
  | none =>
    if writtenPayloadKind opcode = .none then .ok .none
    else .error (.payloadNeeded opcode.name)
  | some text => readPayloadText opcode (writtenPayloadKind opcode) results text

/-! ### Lines -/

/-- Reading one line may make types. -/
abbrev LineReading := EStateM LineFailure TypeContext

namespace LineReading

/-- Takes over a pure part of the reader. -/
def ofExcept (result : Except ReadProblem α) : LineReading α :=
  match result with
  | .ok a => pure a
  | .error problem => throw (.problem problem)

/-- Takes over a step that can fault. -/
def ofFaulting (result : Except Fault α) : LineReading α :=
  match result with
  | .ok a => pure a
  | .error fault => throw (.fault fault)

end LineReading

/-- Reads the type with a name. -/
def readType (text : List Char) : LineReading ValueType := do
  match ← EStateM.adaptExcept LineFailure.fault (ValueType.ofChars text) with
  | some type => return type
  | none => throw (.problem (.unknownType (String.ofList text)))

/-- Reads the label of a node, which must be new and hold no blank. -/
def readLabel (graph : LabelledDag) (text : List Char) : Except ReadProblem String :=
  let label := String.ofList text
  if text.isEmpty || text.any Text.isBlank then .error (.badLabel label)
  else if (graph.find? label).isSome then .error (.duplicateLabel label)
  else .ok label

/-- Reads an opcode. A generic name goes before the name of an instruction. -/
def readOpcode (machine : String → Option MachineOp) (text : List Char) :
    Except ReadProblem Opcode :=
  let name := String.ofList text
  match GenericOp.ofName? name with
  | some op => .ok (.generic op)
  | none =>
    match machine name with
    | some op => .ok (.machine op)
    | none => .error (.unknownOpcode name)

/-- Divides what follows the opcode into the text of the payload, if there is one, and the rest. -/
def splitPayload (text : List Char) : Except ReadProblem (Option (List Char) × List Char) :=
  match text with
  | '<' :: inner =>
    match Text.cut? '>' inner with
    | some (payload, rest) => .ok (some payload, rest)
    | none => .error .openPayload
  | _ => .ok (none, text)

/-- Reads the operands, which commas divide. Empty places count for nothing. -/
def readOperands (graph : LabelledDag) (text : List Char) : Except ReadProblem (List Value) :=
  (((Text.fields ',' text).map Text.trim).filter fun operand => !operand.isEmpty).mapM
    (readValue graph)

/-- Whether a character ends the name of an opcode. -/
def endsOpcode (c : Char) : Bool :=
  c == '<' || Text.isBlank c

/-- Reads the line of a node. -/
def readNode (machine : String → Option MachineOp) (graph : LabelledDag) (line : List Char) :
    LineReading LabelledDag := do
  match Text.cut? ':' line with
  | none => throw (.problem .noColon)
  | some (labelText, rest) =>
    let label ← .ofExcept (readLabel graph (Text.trim labelText))
    match Text.cut? '=' rest with
    | none => throw (.problem .noEquals)
    | some (types, expression) =>
      let results ← (Text.fields ',' types).mapM fun type => readType (Text.trim type)
      let body := Text.trim expression
      let opcode ← .ofExcept (readOpcode machine (body.takeWhile fun c => !endsOpcode c))
      let (payloadText, operandText) ←
        .ofExcept (splitPayload (body.dropWhile fun c => !endsOpcode c))
      let payload ← .ofExcept (readPayload opcode results payloadText)
      let operands ← .ofExcept (readOperands graph operandText)
      .ofFaulting (graph.define label opcode results operands payload)

/-- The text of a line without its comment and without blanks at the ends. -/
def lineText (line : List Char) : List Char :=
  Text.trim (line.takeWhile fun c => c ≠ ';')

/-- What has been read so far: the nodes, and the root once its line has come. -/
structure Draft where
  graph : LabelledDag := {}
  root : Option Value := none
  deriving DecidableEq, Repr, Inhabited

/-- Reads one line. -/
def readLine (machine : String → Option MachineOp) (draft : Draft) (line : List Char) :
    LineReading Draft := do
  match lineText line with
  | [] => return draft
  | text =>
    if draft.root.isSome then throw (.problem .textAfterRoot)
    match text with
    | 'r' :: 'o' :: 'o' :: 't' :: ' ' :: value =>
      let root ← .ofExcept (readValue draft.graph (Text.trim value))
      return { draft with root := some root }
    | text =>
      let graph ← readNode machine draft.graph text
      return { draft with graph }

/-! ### Texts -/

/-- Reading a text may make types. -/
abbrev Reading := EStateM ReadFailure TypeContext

/-- A failure of the line with a number. -/
def LineFailure.at (line : Nat) : LineFailure → ReadFailure
  | .problem cause => .malformed line cause
  | .fault cause => .fault cause

/-- Reads lines, of which the first has the given number. -/
def readLines (machine : String → Option MachineOp) :
    Nat → List (List Char) → Draft → Reading Draft
  | _, [], draft => return draft
  | number, line :: rest, draft => do
    let draft ← EStateM.adaptExcept (LineFailure.at number) (readLine machine draft line)
    readLines machine (number + 1) rest draft

/-- Closes a draft with its root. -/
def Draft.finish (lineCount : Nat) (draft : Draft) : Except ReadFailure LabelledDag :=
  match draft.root with
  | none => .error (.malformed (lineCount + 1) .missingRoot)
  | some root =>
    match (Dag.setRoot root).run draft.graph.dag with
    | .ok _ dag => .ok { draft.graph with dag }
    | .error fault _ => .error (.fault fault)

/-- Reads a graph, with the names of the instructions that it may hold. -/
def readDag (machine : String → Option MachineOp) (text : String) : Reading LabelledDag := do
  let lines := Text.lines text.toList
  let draft ← readLines machine 1 lines {}
  draft.finish lines.length

end DagSelect
