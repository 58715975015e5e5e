/-
This file is the program itself: it hands the command line, files and standard
input to the library, and writes what the library answers.
-/

import MonkeyLang.Command

namespace MonkeyLang

/-- Writes a finished run, and yields its exit code. -/
def finish (outcome : Outcome) : IO UInt32 := do
  (← IO.getStdout).putStr outcome.output
  (← IO.getStderr).putStr outcome.errors
  return outcome.code.toUInt32

/-- Reads bytes up to a line feed or the end of the input. -/
partial def readLine (input : IO.FS.Stream) (found : ByteArray) : IO ByteArray := do
  let byte ← input.read 1
  if byte.isEmpty || byte[0]? == some 10 then
    return found ++ byte
  else
    readLine input (found ++ byte)

/-- Holds a dialogue on standard input and output. -/
partial def converse (limit : Nat) (dialogue : Dialogue) : IO UInt32 := do
  let output ← IO.getStdout
  output.putStr dialogue.prompt
  output.flush
  let line ← readLine (← IO.getStdin) ByteArray.empty
  if line.isEmpty then
    finish ⟨0, Dialogue.farewell, ""⟩
  else
    match textOfBytes? line.toList with
    | none => finish ⟨1, "", Dialogue.unreadable⟩
    | some text =>
      let (next, answer) := dialogue.hear limit text
      output.putStr answer
      converse limit next

/-- The contents of a file, if it can be read. -/
def readContents (path : String) : IO (Option (List UInt8)) := do
  try
    return some (← IO.FS.readBinFile path).toList
  catch _ =>
    return none

/-- Does what a command asks for. -/
def perform : Command → IO UInt32
  | .converse limit => converse limit Dialogue.initial
  | .runFile limit path => do finish (Command.outcomeOfFile limit path (← readContents path))
  | command => finish (command.outcome (fun _ => none) [])

end MonkeyLang

/-- Runs the command line. -/
def main (arguments : List String) : IO UInt32 :=
  MonkeyLang.perform (MonkeyLang.Command.ofArguments arguments)
