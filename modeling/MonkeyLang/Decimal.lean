/-
This file writes and reads whole numbers in decimal. Writing never pads and
never writes a plus sign. Reading takes digits only, with an optional sign in
front where a sign is allowed: no blanks, no separators, no empty text; leading
zeros are allowed. A number outside the range of its type is refused, never
wrapped.
-/

import MonkeyLang.Text.Class

namespace MonkeyLang.Decimal

open Text

/-! ### Writing -/

/-- The decimal digits of a natural number, the first one zero only for zero itself. -/
def ofNat (n : Nat) : String :=
  String.ofList (Nat.toDigits 10 n)

/-- A whole number in decimal: a minus sign for a negative one, then the digits. -/
def ofInt : Int → String
  | .ofNat n => ofNat n
  | .negSucc n => "-" ++ ofNat (n + 1)

/-! ### Reading -/

/-- The number that a nonempty run of digits stands for. -/
def natural? (digits : List Char) : Option Nat :=
  if !digits.isEmpty && digits.all isDigit then some (Nat.ofDigitChars 10 digits 0) else none

/-- The number that digits stand for after at most one sign. -/
def whole? : List Char → Option Int
  | '+' :: digits => (natural? digits).map Int.ofNat
  | '-' :: digits => (natural? digits).map fun n => -Int.ofNat n
  | digits => (natural? digits).map Int.ofNat

/-- Reads an integer of the language. Only numbers from `-2^63` to `2^63 - 1` are integers. -/
def int64? (text : String) : Option Int64 := do
  let number ← whole? text.toList
  if Int64.minValue.toInt ≤ number ∧ number ≤ Int64.maxValue.toInt then
    return Int64.ofInt number
  else
    none

/-- Reads a count: digits after an optional plus sign, up to `2^64 - 1`. -/
def count? (text : String) : Option Nat := do
  let number ← natural? (match text.toList with
    | '+' :: digits => digits
    | digits => digits)
  if number < UInt64.size then return number else none

end MonkeyLang.Decimal
