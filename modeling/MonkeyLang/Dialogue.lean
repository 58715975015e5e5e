/-
This file holds the dialogue with a user who types programs. Lines are gathered
into chunks: a chunk is run as soon as it holds no more opening than closing
braces, so a function may span several lines. Braces are counted wherever they
stand, inside strings too. All chunks run in one frame, one after another, and
a chunk that was begun but not finished is dropped at the end.

The prompt tells whether a line starts a chunk or continues one.
-/

import MonkeyLang.Outcome

namespace MonkeyLang

/-! ### Lines -/

/-- Cuts bytes into lines. Every line ends with its line feed, but the last one may lack it. -/
def splitLines (bytes : List UInt8) : List (List UInt8) :=
  match bytes with
  | [] => []
  | first :: rest =>
    if first == 10 then
      [first] :: splitLines rest
    else
      let tail := rest.takeWhile (· != 10) ++ (rest.dropWhile (· != 10)).take 1
      (first :: tail) :: splitLines (rest.drop tail.length)
termination_by bytes.length
decreasing_by
  · simp
  · simp only [List.length_drop, List.length_cons]; omega

/-- The text that bytes encode in UTF-8, if they do. -/
def textOfBytes? (bytes : List UInt8) : Option String :=
  String.fromUTF8? ⟨bytes.toArray⟩

/-! ### Chunks -/

/-- How many more opening than closing braces a text holds. -/
def openBraces (text : String) : Int :=
  (text.toList.count '{' : Int) - text.toList.count '}'

/-- Whether the value of a program is shown. A program that ends in a binding is silent, and so
is one without statements. -/
def Program.showsValue (program : Program) : Bool :=
  match program.statements.getLast? with
  | none => false
  | some (.binding ..) => false
  | some _ => true

/-- Runs one chunk, and yields the state behind it and the text shown in answer: what the chunk
wrote, and then its value where that is shown. Errors are always shown. -/
def answerChunk (limit : Nat) (machine : Machine) (source : String) : Machine × String :=
  let parsed := Parsed.ofSource source
  if parsed.diagnostics.isEmpty then
    let (value, after) :=
      (parsed.program.execute limit Machine.rootFrame).run { machine with output := "" }
    if value.isError || parsed.program.showsValue then
      (after, after.output ++ value.text ++ "\n")
    else
      (after, after.output)
  else
    (machine, Diagnostic.report parsed.diagnostics ++ "\n")

/-! ### The dialogue -/

/-- The state of a dialogue between two lines. -/
structure Dialogue where
  machine : Machine
  /-- The lines of a chunk that was begun. -/
  pending : String
deriving Inhabited

namespace Dialogue

/-- A dialogue before its first line. -/
def initial : Dialogue :=
  ⟨Machine.initial, ""⟩

/-- What is shown before a line is read. -/
def prompt (dialogue : Dialogue) : String :=
  if dialogue.pending.isEmpty then ">> " else ".. "

/-- What is shown when the input ends. -/
def farewell : String :=
  "\n"

/-- What is reported on a line that is not text. The dialogue stops there. -/
def unreadable : String :=
  "stream did not contain valid UTF-8\n"

/-- Takes in one line, and yields the text shown in answer. -/
def hear (limit : Nat) (dialogue : Dialogue) (line : String) : Dialogue × String :=
  let chunk := dialogue.pending ++ line
  if 0 < openBraces chunk then
    (⟨dialogue.machine, chunk⟩, "")
  else
    let (machine, answer) := answerChunk limit dialogue.machine chunk
    (⟨machine, ""⟩, answer)

/-- The outcome of a dialogue that goes on with the given lines, after the given text has been
shown. -/
def outcome (limit : Nat) (dialogue : Dialogue) (shown : String) :
    List (List UInt8) → Outcome
  | [] => ⟨0, shown ++ dialogue.prompt ++ farewell, ""⟩
  | line :: rest =>
    match textOfBytes? line with
    | none => ⟨1, shown ++ dialogue.prompt, unreadable⟩
    | some text =>
      let (next, answer) := dialogue.hear limit text
      next.outcome limit (shown ++ dialogue.prompt ++ answer) rest

end Dialogue

end MonkeyLang
