/-
This file holds the state of a parser and the few steps by which it reads
tokens. A parser reads forward over a list of tokens and looks no further than
the next one. It either yields a tree or stops with a diagnostic; the
diagnostics of statements that were given up are kept in the cursor.

A stream of tokens need not end with an end of input. Past the last token the
cursor behaves as if end-of-input tokens followed without end, all on the line
of the last token, or on line one if there was no token at all.
-/

import MonkeyLang.Diagnostic

namespace MonkeyLang

/-- The state of a parser. -/
structure Cursor where
  /-- The tokens that are still to be read. -/
  rest : List Token
  /-- The line of the end-of-input tokens past the stream. -/
  lastLine : Nat
  /-- What was wrong so far, in the order in which it was found. -/
  diagnostics : Array Diagnostic
deriving Inhabited

namespace Cursor

/-- The cursor in front of a stream of tokens. -/
def ofTokens (tokens : List Token) : Cursor :=
  { rest := tokens
    lastLine := (tokens.getLast?.map Token.line).getD 1
    diagnostics := #[] }

/-- The next token. -/
def next (cursor : Cursor) : Token :=
  match cursor.rest with
  | token :: _ => token
  | [] => ⟨.endOfInput, "", cursor.lastLine⟩

/-- The cursor behind the next token. -/
def advance (cursor : Cursor) : Cursor :=
  { cursor with rest := cursor.rest.tail }

end Cursor

/-- A step that reads tokens from a cursor and cannot fail. -/
abbrev Reading :=
  StateM Cursor

/-- A parser reads tokens from a cursor and may fail. The cursor moves even if it does, so that
reading can go on behind what was given up. -/
abbrev Parser :=
  ExceptT Diagnostic Reading

namespace Parser

/-! ### Steps that cannot fail -/

/-- The next token, which stays unread. -/
def peek : Reading Token := do
  return (← get).next

/-- Leaves the next token behind. -/
def advance : Reading Unit :=
  modify Cursor.advance

/-- Reads the next token. -/
def take : Reading Token := do
  let token ← peek
  advance
  return token

/-- Reads the next token if it is of the given kind. -/
def skip (kind : Kind) : Reading Unit := do
  if (← peek).kind = kind then
    advance

/-- Keeps a diagnostic. -/
def record (diagnostic : Diagnostic) : Reading Unit :=
  modify fun cursor => { cursor with diagnostics := cursor.diagnostics.push diagnostic }

/-- Runs a parser and keeps its diagnostic if it fails. Its result is then missing. -/
def attempt {α : Type} (parser : Parser α) : Reading (Option α) := do
  match ← parser.run with
  | .ok result => return some result
  | .error diagnostic =>
    record diagnostic
    return none

/-! ### Steps that can fail -/

/-- Reads the next token, which must be of the given kind. A token of any other kind stays
unread. -/
def expect (kind : Kind) : Parser Token := do
  let token ← peek
  if token.kind = kind then
    advance
    return token
  else
    throw (.unexpected kind token.kind token.line)

end Parser

end MonkeyLang
