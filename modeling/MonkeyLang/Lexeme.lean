/-
This file cuts source text into lexemes. A lexeme is the exact piece of source
behind one token together with the kind of that token and the line on which the
piece starts; `Lexeme.token` forgets the quotes of a string, and
`Lexeme.lastLine` counts the line feeds inside one.

Scanning takes the longest piece at the front of the text: a whole run of
letters, a whole run of digits, a string up to the next quote, `==` and `!=`
before `=` and `!`. Every other character is a lexeme of its own, so scanning
cannot fail. Blanks and line feeds between lexemes are skipped, and only line
feeds count lines. The last lexeme is always the end of input.
-/

import MonkeyLang.Text.Class
import MonkeyLang.Token

namespace MonkeyLang

open Text

/-! ### Lexemes -/

/-- A piece of source text that forms one token. -/
structure Lexeme where
  kind : Kind
  /-- The characters of the piece exactly as they stand in the source. -/
  raw : List Char
  /-- The line on which the piece starts. -/
  line : Nat
deriving DecidableEq, Repr, Inhabited

namespace Lexeme

/-- What a lexeme stands for: a string stands for what is between its quotes, everything else
for itself. -/
def text (lexeme : Lexeme) : String :=
  match lexeme.kind with
  | .string => String.ofList ((lexeme.raw.drop 1).takeWhile (· != '"'))
  | _ => String.ofList lexeme.raw

/-- The token a lexeme forms. -/
def token (lexeme : Lexeme) : Token :=
  ⟨lexeme.kind, lexeme.text, lexeme.line⟩

/-- The line on which a lexeme ends. It differs from the line on which the lexeme starts only
for a string that holds line feeds. -/
def lastLine (lexeme : Lexeme) : Nat :=
  lexeme.line + lexeme.raw.count '\n'

/-! ### The piece at the front -/

/-- The kind of a character that no longer piece starts with. -/
def kindOfSingle : Char → Kind
  | '=' => .assign
  | '+' => .plus
  | '-' => .minus
  | '!' => .bang
  | '*' => .asterisk
  | '/' => .slash
  | '<' => .less
  | '>' => .greater
  | ',' => .comma
  | ';' => .semicolon
  | ':' => .colon
  | '(' => .openParen
  | ')' => .closeParen
  | '{' => .openBrace
  | '}' => .closeBrace
  | '[' => .openBracket
  | ']' => .closeBracket
  | _ => .illegal

/-- What follows the opening quote of a string: everything up to the next quote, and that quote
too. Without a next quote the string runs to the end of the text. -/
def stringTail (rest : List Char) : List Char :=
  rest.takeWhile (· != '"') ++ (rest.dropWhile (· != '"')).take 1

/-- The piece at the front of the text `first :: rest`: its kind, and its characters after
`first`. They are always the beginning of `rest`. -/
def front (first : Char) (rest : List Char) : Kind × List Char :=
  if isLetter first then
    let tail := rest.takeWhile isLetter
    (.ofWord (String.ofList (first :: tail)), tail)
  else if isDigit first then
    (.integer, rest.takeWhile isDigit)
  else if first == '"' then
    (.string, stringTail rest)
  else if first == '=' && rest.head? == some '=' then
    (.equal, ['='])
  else if first == '!' && rest.head? == some '=' then
    (.notEqual, ['='])
  else
    (kindOfSingle first, [])

/-- The tail of a string is the beginning of what follows its opening quote. -/
theorem stringTail_prefix (rest : List Char) : stringTail rest <+: rest := by
  refine ⟨(rest.dropWhile (· != '"')).drop 1, ?_⟩
  rw [stringTail, List.append_assoc, List.take_append_drop, List.takeWhile_append_dropWhile]

/-- A lexeme is a piece of the text it is cut from. -/
theorem front_prefix (first : Char) (rest : List Char) : (front first rest).2 <+: rest := by
  unfold front
  split
  · exact List.takeWhile_prefix isLetter
  split
  · exact List.takeWhile_prefix isDigit
  split
  · exact stringTail_prefix rest
  split
  · next double => cases rest <;> simp_all
  split
  · next double => cases rest <;> simp_all
  exact List.nil_prefix

/-! ### Whole texts -/

/-- Scans a text that starts on the given line, putting the lexemes in front of those already
found. The latest lexeme comes first. -/
def scan (line : Nat) (source : List Char) (found : List Lexeme) : List Lexeme :=
  match source with
  | [] => ⟨.endOfInput, [], line⟩ :: found
  | first :: rest =>
    if first == '\n' then
      scan (line + 1) rest found
    else if isBlank first then
      scan line rest found
    else
      let (kind, tail) := front first rest
      let lexeme : Lexeme := ⟨kind, first :: tail, line⟩
      scan lexeme.lastLine (rest.drop tail.length) (lexeme :: found)
termination_by source.length
decreasing_by
  · simp
  · simp
  · simp only [List.length_drop, List.length_cons]; omega

/-- The lexemes of a source text, in order, the end of input last. Lines count from one. -/
def ofSource (source : String) : List Lexeme :=
  (scan 1 source.toList []).reverse

end Lexeme

/-- The tokens of a source text, in order, the end of input last. -/
def Token.ofSource (source : String) : List Token :=
  (Lexeme.ofSource source).map Lexeme.token

end MonkeyLang
