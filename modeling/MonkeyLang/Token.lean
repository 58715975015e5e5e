/-
This file holds the vocabulary of the Monkey language: the closed set of token
kinds, the name each kind goes by in diagnostics, the keyword table, and tokens
themselves.

A token carries the text it stands for and the line on which it starts. For a
string the text excludes the quotes. The kinds `newline` and `whitespace` name
layout: a scanned source never yields them, but a token stream that was put
together by hand may hold them, and then no construct accepts them.
-/

namespace MonkeyLang

/-! ### Kinds -/

/-- What a token is. The operators and brackets are one kind each, so that the parser can
dispatch on the kind alone. -/
inductive Kind
  /-- A character the language does not know. -/
  | illegal
  | endOfInput
  | identifier
  | integer
  | string
  | assign
  | plus
  | minus
  | bang
  | asterisk
  | slash
  | less
  | greater
  | equal
  | notEqual
  | comma
  | semicolon
  | colon
  | openParen
  | closeParen
  | openBrace
  | closeBrace
  | openBracket
  | closeBracket
  | functionWord
  | letWord
  | trueWord
  | falseWord
  | ifWord
  | elseWord
  | returnWord
  | newline
  | whitespace
deriving DecidableEq, Repr, Inhabited

namespace Kind

/-- The name a kind goes by in diagnostics. -/
def name : Kind → String
  | illegal => "ILLEGAL"
  | endOfInput => "EOF"
  | identifier => "IDENT"
  | integer => "INT"
  | string => "STRING"
  | assign => "="
  | plus => "+"
  | minus => "-"
  | bang => "!"
  | asterisk => "*"
  | slash => "/"
  | less => "<"
  | greater => ">"
  | equal => "=="
  | notEqual => "!="
  | comma => ","
  | semicolon => ";"
  | colon => ":"
  | openParen => "("
  | closeParen => ")"
  | openBrace => "\x7b"
  | closeBrace => "\x7d"
  | openBracket => "["
  | closeBracket => "]"
  | functionWord => "FUNCTION"
  | letWord => "LET"
  | trueWord => "TRUE"
  | falseWord => "FALSE"
  | ifWord => "IF"
  | elseWord => "ELSE"
  | returnWord => "RETURN"
  | newline => "NEWLINE"
  | whitespace => "WHITESPACE"

/-- Every kind once, in the order of the declaration. -/
def all : List Kind :=
  [illegal, endOfInput, identifier, integer, string, assign, plus, minus, bang, asterisk, slash,
    less, greater, equal, notEqual, comma, semicolon, colon, openParen, closeParen, openBrace,
    closeBrace, openBracket, closeBracket, functionWord, letWord, trueWord, falseWord, ifWord,
    elseWord, returnWord, newline, whitespace]

/-- No kind is missing from the list of all kinds. -/
theorem mem_all (kind : Kind) : kind ∈ all := by
  cases kind <;> decide

/-- The kind that goes by a name, if there is one. -/
def ofName? (name : String) : Option Kind :=
  all.find? fun kind => kind.name == name

end Kind

/-! ### Keywords -/

/-- The words that are no identifiers, each with its kind. -/
def keywords : List (String × Kind) :=
  [("fn", .functionWord), ("let", .letWord), ("true", .trueWord), ("false", .falseWord),
    ("if", .ifWord), ("else", .elseWord), ("return", .returnWord)]

/-- The kind of a whole word: its keyword kind, or else an identifier. -/
def Kind.ofWord (word : String) : Kind :=
  (keywords.lookup word).getD .identifier

/-! ### Tokens -/

/-- A token: its kind, the text it stands for, and the line on which it starts. -/
structure Token where
  kind : Kind
  text : String
  line : Nat
deriving DecidableEq, Repr, Inhabited

end MonkeyLang
