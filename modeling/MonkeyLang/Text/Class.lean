/-
This file holds the classes of characters that the language tells apart when it
cuts text into lexemes. All of them are classes of ASCII: a letter, digit or
space beyond ASCII belongs to none.
-/

namespace MonkeyLang.Text

/-- Letters make up words: the letters of ASCII and the underscore. -/
def isLetter (c : Char) : Bool :=
  ('a' ≤ c && c ≤ 'z') || ('A' ≤ c && c ≤ 'Z') || c == '_'

/-- Digits make up integers. -/
def isDigit (c : Char) : Bool :=
  '0' ≤ c && c ≤ '9'

/-- Blanks separate lexemes without ending a line: the blank itself, the tab, the carriage return
and the form feed. A vertical tab is none of them. -/
def isBlank (c : Char) : Bool :=
  c == ' ' || c == '\t' || c == '\r' || c == '\x0c'

end MonkeyLang.Text
