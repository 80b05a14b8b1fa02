/-
Module: DagSelect.CommandLine
Purpose: The command line without its input and output: which options there are, and what is printed
  for a text. Reading the text is left to the program around it.
Main exports: Options, Options.read, InputError, Response, respond
-/
import DagSelect.Dag.Print
import DagSelect.Dag.Read
import DagSelect.Selection.Run
import DagSelect.Z80.Target

namespace DagSelect.CommandLine

open DagSelect.Z80 (Features PointerMode Processor)

/-! ### Options -/

/-- What the arguments say. Nothing can be said twice. -/
structure Options where
  /-- The file to read; standard input if there is none. -/
  input : Option String := none
  triple : Option String := none
  mode : Option PointerMode := none
  undocOps : Bool := false
  z180 : Bool := false
  ez80 : Bool := false
  stats : Bool := false
  deriving DecidableEq, Repr, Inhabited

/-- Why the arguments are refused. -/
inductive UsageError where
  | unknownArgument (argument : String)
  | missingValue (option : String)
  | needlessValue (option : String)
  | badValue (option value : String)
  | repeated (option : String)
  | emptyInput
  deriving DecidableEq, Repr

/-- The wording of a usage error. -/
def UsageError.message : UsageError → String
  | .unknownArgument argument => s!"unexpected argument '{argument}'"
  | .missingValue option => s!"a value is required for '--{option}'"
  | .needlessValue option => s!"'--{option}' takes no value"
  | .badValue option value => s!"invalid value '{value}' for '--{option}'"
  | .repeated option => s!"'--{option}' cannot be used multiple times"
  | .emptyInput => "a value is required for '[INPUT]'"

namespace Options

/-- The features that the options ask for. -/
def features (options : Options) : Features where
  undocOps := options.undocOps
  z180Ops := options.z180
  ez80Ops := options.ez80
  mode := options.mode

/-- The names of the options that take a value. -/
def valued : List String := ["triple", "mode"]

/-- Sets an option that takes a value. -/
def setValue (options : Options) (name value : String) : Except UsageError Options :=
  match name with
  | "triple" =>
    if options.triple.isSome then .error (.repeated name)
    else .ok { options with triple := some value }
  | "mode" =>
    if options.mode.isSome then .error (.repeated name)
    else
      match value with
      | "16" => .ok { options with mode := some .bits16 }
      | "24" => .ok { options with mode := some .bits24 }
      | _ => .error (.badValue name value)
  | _ => .error (.unknownArgument name)

/-- Sets an option that takes no value. -/
def setFlag (options : Options) (name : String) : Except UsageError Options :=
  match name with
  | "undoc-ops" =>
    if options.undocOps then .error (.repeated name) else .ok { options with undocOps := true }
  | "z180" => if options.z180 then .error (.repeated name) else .ok { options with z180 := true }
  | "ez80" => if options.ez80 then .error (.repeated name) else .ok { options with ez80 := true }
  | "stats" => if options.stats then .error (.repeated name) else .ok { options with stats := true }
  | _ => .error (.unknownArgument name)

/-- Sets an option to the value that an equals sign attached to it. -/
def setAttached (options : Options) (name value : String) : Except UsageError Options :=
  if valued.contains name then options.setValue name value else .error (.needlessValue name)

/-- Sets the file to read. -/
def setInput (options : Options) (path : String) : Except UsageError Options :=
  if options.input.isSome then .error (.unknownArgument path)
  else if path.isEmpty then .error .emptyInput
  else .ok { options with input := some path }

/-- Whether an argument is an option and so cannot be the value of another. A lone hyphen is none. -/
def isOption (argument : String) : Bool :=
  argument.startsWith "-" && argument != "-"

/-- Reads the arguments after those that the options hold already. -/
def readFrom (options : Options) : List String → Except UsageError Options
  | [] => .ok options
  | "--" :: paths => paths.foldlM setInput options
  | argument :: rest =>
    if argument.startsWith "--" then
      let body := argument.toList.drop 2
      let name := String.ofList body
      match Text.cut? '=' body with
      | some (name, value) => do
        let options ← options.setAttached (String.ofList name) (String.ofList value)
        options.readFrom rest
      | none =>
        if valued.contains name then
          match rest with
          | [] => .error (.missingValue name)
          | value :: rest =>
            if isOption value then .error (.missingValue name)
            else do
              let options ← options.setValue name value
              options.readFrom rest
        else do
          let options ← options.setFlag name
          options.readFrom rest
    else if isOption argument then .error (.unknownArgument argument)
    else do
      let options ← options.setInput argument
      options.readFrom rest

/-- Reads the arguments. After a lone double hyphen every argument is a file. -/
def read (arguments : List String) : Except UsageError Options :=
  ({} : Options).readFrom arguments

end Options

/-! ### Responses -/

/-- Why the text could not be read. -/
inductive InputError where
  | notFound
  | isDirectory
  | notADirectory
  | notText
  | other (description : String)
  deriving DecidableEq, Repr

/-- The wording of an input error. -/
def InputError.message : InputError → String
  | .notFound => "No such file or directory (os error 2)"
  | .isDirectory => "Is a directory (os error 21)"
  | .notADirectory => "Not a directory (os error 20)"
  | .notText => "stream did not contain valid UTF-8"
  | .other description => description

/-- What the program leaves behind. -/
structure Response where
  exitCode : UInt8
  stdout : String := ""
  stderr : String := ""
  deriving DecidableEq, Repr, Inhabited

/-- The response to a broken precondition. -/
def faultResponse (fault : Fault) : Response :=
  { exitCode := 101, stderr := fault.message ++ "\n" }

/-- The response to a request that cannot be met. -/
def errorResponse (message : String) : Response :=
  { exitCode := 1, stderr := "error: " ++ message ++ "\n" }

/-- The response to arguments that are refused. -/
def usageResponse (error : UsageError) : Response :=
  { exitCode := 2, stderr := "error: " ++ error.message ++ "\n" }

/-- Selects the instructions of a graph that was read, and prints it. -/
def selectResponse (options : Options) (processor : Processor) (graph : LabelledDag) : Response :=
  let name := options.input.getD "<stdin>"
  match (processor.target.selectFunction name graph.order).run { dag := graph.dag } with
  | .ok _ run =>
    { exitCode := 0
      stdout := run.dag.print
      stderr := if options.stats then run.session.stats.render ++ "\n" else "" }
  | .error (.declined error) _ => errorResponse error.message
  | .error (.fault cause) _ => faultResponse cause

/-- The response to a text. The processor is judged before the text is. -/
def textResponse (options : Options) (text : String) : Response :=
  match Processor.ofTriple (options.triple.getD "z80") options.features with
  | .error error => errorResponse error.message
  | .ok processor =>
    match (readDag Z80.machineOp? text).run (.new 0) with
    | .ok graph _ => selectResponse options processor graph
    | .error (.malformed line problem) _ =>
      errorResponse (ReadFailure.message (.malformed line problem))
    | .error (.fault cause) _ => faultResponse cause

/-- The response to what was read, which must be text. -/
def respond (options : Options) (input : Except InputError ByteArray) : Response :=
  match input with
  | .error error => errorResponse error.message
  | .ok bytes =>
    match String.fromUTF8? bytes with
    | some text => textResponse options text
    | none => errorResponse InputError.notText.message

end DagSelect.CommandLine
