/-
This file reads the command line and says what each command does. Arguments are
read from left to right; the first one that is wrong, or that asks for the
version or for help, settles the matter. An option may take its value from the
next argument, which then must not look like an option itself.
-/

import MonkeyLang.Dialogue

namespace MonkeyLang

/-! ### Single arguments -/

/-- What one argument by itself says. -/
inductive Argument
  /-- No option, but a path or a value. -/
  | plain (text : String)
  /-- After this argument no other is an option. -/
  | endOfOptions
  | version
  | help
  /-- Asks to run source text, which may be attached to the option. -/
  | source (attached : Option String)
  /-- Sets the limit on active calls, which may be attached to the option. -/
  | limit (attached : Option String)
  | unknown
deriving DecidableEq, Repr, Inhabited

/-- Reads one argument. A lone dash is no option. -/
def Argument.ofText (text : String) : Argument :=
  match text.toList with
  | ['-', '-'] => .endOfOptions
  | '-' :: '-' :: long =>
    let name := String.ofList (long.takeWhile (· != '='))
    let attached := (long.dropWhile (· != '=')).tail?.map String.ofList
    match name, attached with
    | "version", none => .version
    | "help", none => .help
    | "eval", attached => .source attached
    | "max-depth", attached => .limit attached
    | _, _ => .unknown
  | '-' :: 'V' :: _ => .version
  | '-' :: 'h' :: _ => .help
  | ['-', 'e'] => .source none
  | '-' :: 'e' :: '=' :: attached => .source (some (String.ofList attached))
  | '-' :: 'e' :: attached => .source (some (String.ofList attached))
  | '-' :: _ :: _ => .unknown
  | _ => .plain text

/-! ### Whole command lines -/

/-- What the options read so far ask for. -/
structure Options where
  source : Option String
  path : Option String
  limit : Option Nat
deriving DecidableEq, Repr, Inhabited

/-- Why the reading of a command line ends early. -/
inductive Stop
  | version
  | help
  /-- The arguments make no sense. -/
  | misuse
deriving DecidableEq, Repr, Inhabited

/-- An argument as the value of the option before it. It must not look like an option. -/
def requireValue (argument : String) : Except Stop String :=
  match Argument.ofText argument with
  | .plain value => .ok value
  | _ => .error .misuse

namespace Options

/-- Nothing has been asked for. -/
def unset : Options :=
  ⟨none, none, none⟩

/-- Asks to run source text, which can be asked for only once. -/
def setSource (options : Options) (text : String) : Except Stop Options :=
  match options.source with
  | some _ => .error .misuse
  | none => .ok { options with source := some text }

/-- Asks to run a file. There can be only one, and its path is not empty. -/
def setPath (options : Options) (path : String) : Except Stop Options :=
  match options.path, path with
  | some _, _ => .error .misuse
  | none, "" => .error .misuse
  | none, path => .ok { options with path := some path }

/-- Sets the limit on active calls, which can be set only once. -/
def setLimit (options : Options) (text : String) : Except Stop Options :=
  match options.limit, Decimal.count? text with
  | none, some limit => .ok { options with limit := some limit }
  | _, _ => .error .misuse

/-- Reads arguments none of which is an option. -/
def readPaths (options : Options) (arguments : List String) : Except Stop Options :=
  arguments.foldlM setPath options

/-- Reads arguments on top of what was read before them. -/
def read : Options → List String → Except Stop Options
  | options, [] => .ok options
  | options, argument :: rest =>
    match Argument.ofText argument with
    | .plain path => do (← options.setPath path).read rest
    | .endOfOptions => options.readPaths rest
    | .version => .error .version
    | .help => .error .help
    | .unknown => .error .misuse
    | .source (some text) => do (← options.setSource text).read rest
    | .limit (some text) => do (← options.setLimit text).read rest
    | .source none =>
      match rest with
      | [] => .error .misuse
      | value :: rest => do (← options.setSource (← requireValue value)).read rest
    | .limit none =>
      match rest with
      | [] => .error .misuse
      | value :: rest => do (← options.setLimit (← requireValue value)).read rest

end Options

/-! ### Commands -/

/-- What a command line asks for. -/
inductive Command
  | version
  | help
  /-- The command line makes no sense. -/
  | misuse
  /-- Run source text and show its value. -/
  | runText (limit : Nat) (source : String)
  /-- Run a file. -/
  | runFile (limit : Nat) (path : String)
  /-- Hold a dialogue. -/
  | converse (limit : Nat)
deriving DecidableEq, Repr, Inhabited

namespace Command

/-- What the options of a command line ask for. Source text and a file exclude each other. -/
def ofOptions (options : Options) : Command :=
  let limit := options.limit.getD defaultLimit
  match options.source, options.path with
  | some _, some _ => misuse
  | some source, none => runText limit source
  | none, some path => runFile limit path
  | none, none => converse limit

/-- What a command line asks for. -/
def ofArguments (arguments : List String) : Command :=
  match Options.unset.read arguments with
  | .ok options => ofOptions options
  | .error .version => version
  | .error .help => help
  | .error .misuse => misuse

/-- How the program is used. -/
def usage : String :=
  "Usage: monkey [OPTIONS] [FILE]\n\n"
    ++ "Options:\n"
    ++ "  -e, --eval <SOURCE>  Run the given source text and show its value\n"
    ++ "      --max-depth <N>  Allow at most N active calls\n"
    ++ "  -h, --help           Show this text\n"
    ++ "  -V, --version        Show the version\n"

/-- The outcome of running a file, given its contents if it could be read. -/
def outcomeOfFile (limit : Nat) (path : String) (contents : Option (List UInt8)) : Outcome :=
  match contents.bind textOfBytes? with
  | some source => Outcome.ofSource limit false source
  | none =>
    ⟨1, "",
      "Failed to read the input file '" ++ path ++ "'. Perhaps this file does not exist?\n"⟩

/-- The outcome of a command, given the files that can be read and what standard input holds. -/
def outcome (files : String → Option (List UInt8)) (input : List UInt8) : Command → Outcome
  | version => ⟨0, "monkey 0.1.0\n", ""⟩
  | help => ⟨0, usage, ""⟩
  | misuse => ⟨2, "", usage⟩
  | runText limit source => Outcome.ofSource limit true source
  | runFile limit path => outcomeOfFile limit path (files path)
  | converse limit => Dialogue.initial.outcome limit "" (splitLines input)

end Command

end MonkeyLang
