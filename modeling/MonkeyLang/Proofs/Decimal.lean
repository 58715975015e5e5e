/-
This file proves that writing and reading decimal numbers are inverse to each
other, and that reading an integer of the language wraps nothing.
-/

import MonkeyLang.Decimal

namespace MonkeyLang.Decimal

open Text

/-! ### Digits -/

/-- What is written for a natural number are digits and nothing else. -/
theorem isDigit_of_mem_toDigits {n : Nat} {c : Char} (member : c ∈ Nat.toDigits 10 n) :
    isDigit c = true :=
  Nat.isDigit_of_mem_toDigits (by decide) (by decide) member

theorem natural?_toDigits (n : Nat) : natural? (Nat.toDigits 10 n) = some n := by
  have written : (!(Nat.toDigits 10 n).isEmpty && (Nat.toDigits 10 n).all isDigit) = true := by
    rw [Bool.and_eq_true, Bool.not_eq_true', List.isEmpty_eq_false_iff, List.all_eq_true]
    exact ⟨Nat.toDigits_ne_nil, fun _ member => isDigit_of_mem_toDigits member⟩
  rw [natural?, if_pos written, Nat.ofDigitChars_ten_toDigits]

/-- A nonempty run of digits stands for a number. -/
theorem exists_natural? {digits : List Char} (nonempty : digits ≠ [])
    (all : ∀ c ∈ digits, isDigit c = true) : ∃ number, natural? digits = some number := by
  refine ⟨Nat.ofDigitChars 10 digits 0, if_pos ?_⟩
  rw [Bool.and_eq_true, Bool.not_eq_true', List.isEmpty_eq_false_iff, List.all_eq_true]
  exact ⟨nonempty, all⟩

/-! ### Signs -/

/-- Digits without a sign stand for a natural number. -/
theorem whole?_of_natural? {digits : List Char} {number : Nat}
    (found : natural? digits = some number) : whole? digits = some (number : Int) := by
  unfold whole?
  split
  · exact absurd found (by simp [natural?, isDigit])
  · exact absurd found (by simp [natural?, isDigit])
  · rw [found]
    rfl

/-- Every whole number is what is read from what is written for it. -/
theorem whole?_ofInt (n : Int) : whole? (ofInt n).toList = some n := by
  cases n with
  | ofNat n =>
    rw [ofInt, ofNat, String.toList_ofList]
    exact whole?_of_natural? (natural?_toDigits n)
  | negSucc n =>
    have signed : (ofInt (.negSucc n)).toList = '-' :: Nat.toDigits 10 (n + 1) := by
      simp [ofInt, ofNat]
    rw [signed, whole?, natural?_toDigits]
    rfl

/-! ### Integers of the language -/

theorem int64?_eq_some_iff {text : String} {value : Int64} :
    int64? text = some value ↔ whole? text.toList = some value.toInt := by
  unfold int64?
  constructor
  · intro found
    obtain ⟨number, whole, found⟩ := Option.bind_eq_some_iff.mp found
    split at found
    · next range =>
      obtain ⟨least, most⟩ := range
      rw [Int64.toInt_maxValue] at most
      rw [← Option.some.inj found, whole, Int64.toInt_ofInt_of_le least (Int.lt_of_le_sub_one most)]
    · exact absurd found (by simp)
  · intro whole
    refine Option.bind_eq_some_iff.mpr ⟨value.toInt, whole, ?_⟩
    rw [if_pos ⟨value.minValue_le_toInt, value.toInt_le⟩, Int64.ofInt_toInt]
    rfl

/-- Every integer of the language is what is read from what is written for it. -/
theorem int64?_ofInt (value : Int64) : int64? (ofInt value.toInt) = some value :=
  int64?_eq_some_iff.mpr (whole?_ofInt value.toInt)

/-- The integer a run of digits is read as is the number the digits stand for. -/
theorem int64?_of_natural? {text : String} {number : Nat} {value : Int64}
    (digits : natural? text.toList = some number) (found : int64? text = some value) :
    (number : Int) ≤ Int64.maxValue.toInt ∧ Int64.ofNat number = value := by
  have whole := int64?_eq_some_iff.mp found
  rw [whole?_of_natural? digits] at whole
  have same : (number : Int) = value.toInt := Option.some.inj whole
  constructor
  · rw [same]
    exact value.toInt_le
  · rw [← Int64.ofInt_eq_ofNat, same, Int64.ofInt_toInt]

end MonkeyLang.Decimal
