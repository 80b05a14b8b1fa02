/-
Module: DagSelect.Main
Purpose: The command line program: it reads the file or standard input, and prints the response.
Main exports: main
-/
import DagSelect.CommandLine

namespace DagSelect.CommandLine

/-- The reason for which a file could not be read. -/
def InputError.ofError : IO.Error → InputError
  | .noFileOrDirectory _ _ _ => .notFound
  | .inappropriateType _ code details =>
    if code = 21 then .isDirectory else if code = 20 then .notADirectory else .other details
  | error => .other error.toString

/-- Reads a stream to its end. -/
partial def readAll (stream : IO.FS.Stream) (sofar : ByteArray) : IO ByteArray := do
  let chunk ← stream.read 65536
  if chunk.isEmpty then return sofar else readAll stream (sofar ++ chunk)

/-- Reads the text that the options name. -/
def readInput (options : Options) : IO (Except InputError ByteArray) := do
  try
    match options.input with
    | some path => return .ok (← IO.FS.readBinFile path)
    | none => return .ok (← readAll (← IO.getStdin) .empty)
  catch error =>
    return .error (.ofError error)

/-- Prints a response and gives its exit code. -/
def deliver (response : Response) : IO UInt32 := do
  IO.print response.stdout
  IO.eprint response.stderr
  return response.exitCode.toUInt32

end DagSelect.CommandLine

open DagSelect.CommandLine in
/-- Selects the instructions of a graph for a processor. -/
def main (arguments : List String) : IO UInt32 := do
  match Options.read arguments with
  | .error error => deliver (usageResponse error)
  | .ok options => deliver (respond options (← readInput options))
