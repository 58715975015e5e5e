/-
This file writes text between double quotes so that it can be read without
doubt. A quote, a backslash and the usual control characters get a backslash
and one letter; every other character that does not show by itself is written
by its number in hexadecimal, as in `\u{1b}`. All other text stands as it is,
apostrophes and letters beyond ASCII included.
-/

import MonkeyLang.Text.Hidden

namespace MonkeyLang.Text

/-- The number of a character in hexadecimal, in lower case and without padding. -/
def byNumber (c : Char) : List Char :=
  ['\\', 'u', '{'] ++ Nat.toDigits 16 c.toNat ++ ['}']

/-- One character as it stands between quotes. -/
def escaped (c : Char) : List Char :=
  match c with
  | '"' => ['\\', '"']
  | '\\' => ['\\', '\\']
  | '\n' => ['\\', 'n']
  | '\r' => ['\\', 'r']
  | '\t' => ['\\', 't']
  | '\x00' => ['\\', '0']
  | c => if isHidden c then byNumber c else [c]

/-- A text between double quotes. -/
def quoted (text : String) : String :=
  String.ofList ('"' :: text.toList.flatMap escaped ++ ['"'])

end MonkeyLang.Text
