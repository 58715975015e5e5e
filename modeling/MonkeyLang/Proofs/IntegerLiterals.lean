/-
This file proves that an integer in a program is either the number that its
digits stand for or an error, and never another number. What digits and signs
stand for is said without the reader of numbers: by the value of each place. The
range of the integers is not symmetric, so the sign belongs to the number that
has to fit into it; there may be zeros in front as many as one likes.

A literal that is no such number is a reason to leave out the statement around
it, the innermost one. So the diagnostics about integers are exactly those of the
literals that the parser comes to as operands and that do not fit.
-/

import Mathlib.Data.List.Induction
import Mathlib.Data.Nat.Digits.Defs
import MonkeyLang.Proofs.Parser.Reaching
import MonkeyLang.Proofs.Scanning
import MonkeyLang.Value.Text

namespace MonkeyLang

/-! ### What literals stand for -/

namespace Decimal

/-- A nonempty run of the digits of ASCII. -/
structure IsNumeral (digits : List Char) : Prop where
  nonempty : digits ≠ []
  digits : ∀ c ∈ digits, '0' ≤ c ∧ c ≤ '9'

/-- The sum of the values of digits, each at its place. -/
def placeValue (digits : List Char) : Nat :=
  Nat.ofDigits 10 (digits.reverse.map fun c => c.toNat - '0'.toNat)

/-- A numeral with one sign in front of it or none, and the number it stands for. -/
inductive Literal : List Char → Int → Prop
  | unsigned {digits : List Char} : IsNumeral digits → Literal digits (placeValue digits)
  | plus {digits : List Char} : IsNumeral digits → Literal ('+' :: digits) (placeValue digits)
  | minus {digits : List Char} : IsNumeral digits → Literal ('-' :: digits) (-placeValue digits)

/-- The numbers that are integers of the language. -/
def Fits (number : Int) : Prop :=
  -2 ^ 63 ≤ number ∧ number ≤ 2 ^ 63 - 1

instance (number : Int) : Decidable (Fits number) :=
  inferInstanceAs (Decidable (_ ∧ _))

theorem fits_toInt (value : Int64) : Fits value.toInt :=
  ⟨value.minValue_le_toInt, Int.le_sub_one_of_lt value.toInt_lt⟩

theorem Fits.exists_toInt_eq {number : Int} (fits : Fits number) :
    ∃ value : Int64, value.toInt = number :=
  ⟨Int64.ofInt number, Int64.toInt_ofInt_of_le fits.1 (Int.lt_of_le_sub_one fits.2)⟩

/-- Reading digits from the left adds up their values. -/
theorem ofDigitChars_eq_placeValue (digits : List Char) :
    Nat.ofDigitChars 10 digits 0 = placeValue digits := by
  induction digits using List.reverseRecOn with
  | nil => rfl
  | append_singleton digits c inductionHypothesis =>
    rw [Nat.ofDigitChars_append, inductionHypothesis, placeValue, placeValue, List.reverse_append,
      List.reverse_singleton, List.singleton_append, List.map_cons, Nat.ofDigits_cons, Nat.add_comm]
    rfl

theorem isNumeral_iff {digits : List Char} :
    IsNumeral digits ↔ (!digits.isEmpty && digits.all Text.isDigit) = true := by
  rw [Bool.and_eq_true, Bool.not_eq_true', List.isEmpty_eq_false_iff, List.all_eq_true]
  simp only [Text.isDigit, Bool.and_eq_true, decide_eq_true_eq]
  exact ⟨fun numeral => ⟨numeral.nonempty, numeral.digits⟩, fun run => ⟨run.1, run.2⟩⟩

theorem natural?_eq_some_iff {digits : List Char} {number : Nat} :
    natural? digits = some number ↔ IsNumeral digits ∧ placeValue digits = number := by
  rw [natural?, Option.ite_none_right_eq_some, ← isNumeral_iff, ofDigitChars_eq_placeValue,
    Option.some.injEq]

/-- The reader of whole numbers finds what a literal stands for, and nothing else. -/
theorem whole?_eq_some_iff {characters : List Char} {number : Int} :
    whole? characters = some number ↔ Literal characters number := by
  constructor
  · intro found
    unfold whole? at found
    split at found
    all_goals
      obtain ⟨natural, isNatural, rfl⟩ := Option.map_eq_some_iff.mp found
      obtain ⟨numeral, rfl⟩ := natural?_eq_some_iff.mp isNatural
    · exact .plus numeral
    · exact .minus numeral
    · exact .unsigned numeral
  · intro literal
    cases literal with
    | unsigned numeral => exact whole?_of_natural? (natural?_eq_some_iff.mpr ⟨numeral, rfl⟩)
    | plus numeral => rw [whole?, natural?_eq_some_iff.mpr ⟨numeral, rfl⟩]; rfl
    | minus numeral => rw [whole?, natural?_eq_some_iff.mpr ⟨numeral, rfl⟩]; rfl

section Texts

variable {text : String}

theorem int64?_eq_some_iff_literal {value : Int64} :
    int64? text = some value ↔ Literal text.toList value.toInt :=
  int64?_eq_some_iff.trans whole?_eq_some_iff

/-- A literal that fits is read as its number. -/
theorem Literal.exists_int64? {number : Int} (literal : Literal text.toList number)
    (fits : Fits number) : ∃ value : Int64, value.toInt = number ∧ int64? text = some value := by
  obtain ⟨value, rfl⟩ := fits.exists_toInt_eq
  exact ⟨value, rfl, int64?_eq_some_iff_literal.mpr literal⟩

/-- Everything else is read as no number. -/
theorem int64?_eq_none_iff :
    int64? text = none ↔ ∀ number, Literal text.toList number → ¬ Fits number := by
  constructor
  · intro noNumber number literal fits
    obtain ⟨value, -, found⟩ := literal.exists_int64? fits
    rw [noNumber] at found
    exact absurd found nofun
  · intro noLiteral
    refine Option.eq_none_iff_forall_ne_some.mpr fun value found => ?_
    exact noLiteral _ (int64?_eq_some_iff_literal.mp found) (fits_toInt value)

end Texts

end Decimal

/-! ### Literals that the parser comes to -/

namespace Parser

open Decimal

/-- In the reading of a stream, the statement that a loop is in front of comes to an operand, and
this is an integer token. -/
structure ReachesInteger (tokens : List Token) (loop : Loop) (bound : Nat) (cursor : Cursor)
    (token : Token) : Prop where
  underway : loop.Underway tokens
  goesOn : loop.GoesOn
  comes : ComesTo (operand bound (expression bound)) cursor (statement (expression loop.bound))
    loop.cursor
  isNext : cursor.next = token
  isInteger : token.kind = .integer

/-- In front of a cursor, the node of a number is read as the operand, and one token is left
behind. -/
def ReadsNumber (bound : Nat) (cursor : Cursor) (number : Int) : Prop :=
  ∃ value : Int64, value.toInt = number ∧
    (operand bound (expression bound)).on cursor = (.ok (.integer value), cursor.advance)

/-- A token makes the statement that a loop is in front of fail. The loop goes on behind the token
without the statement, and the diagnostic, with the text and the line of the token, is among those
of the program. -/
structure RejectsInteger (tokens : List Token) (loop : Loop) (cursor : Cursor) (token : Token) :
    Prop where
  outcome : loop.outcome = (.error (.invalidInteger token.text token.line), cursor.advance)
  run : loop.run =
    (loop.withoutStatement (.invalidInteger token.text token.line) cursor.advance).run
  reported : .invalidInteger token.text token.line ∈ (Parsed.ofTokens tokens).diagnostics

namespace ReachesInteger

variable {tokens : List Token} {loop : Loop} {bound : Nat} {cursor : Cursor} {token : Token}

/-- The token is one of the stream. -/
theorem mem (reaches : ReachesInteger tokens loop bound cursor token) : token ∈ tokens := by
  have more : cursor.next.kind ≠ .endOfInput := by
    rw [reaches.isNext, reaches.isInteger]
    decide
  have isHead : token ∈ cursor.rest :=
    List.mem_of_mem_head? (reaches.isNext ▸ cursor.head?_rest more)
  have moves := reaches.underway.moves_start.trans reaches.comes.moves_target
  exact moves.rest_suffix.subset isHead

/-- The node of a number is read exactly if the token is a literal of the number, and it fits. -/
theorem readsNumber_iff (reaches : ReachesInteger tokens loop bound cursor token) {number : Int} :
    ReadsNumber bound cursor number ↔ Literal token.text.toList number ∧ Fits number := by
  obtain ⟨-, -, -, rfl, isInteger⟩ := reaches
  constructor
  · rintro ⟨value, rfl, reads⟩
    cases found : int64? cursor.next.text with
    | none =>
      rw [operand_on_refused bound isInteger found] at reads
      exact absurd (Prod.mk.inj reads).1 nofun
    | some other =>
      rw [operand_on_number bound isInteger found] at reads
      obtain rfl : other = value :=
        Expression.integer.inj (Except.ok.inj (Prod.mk.inj reads).1)
      exact ⟨int64?_eq_some_iff_literal.mp found, fits_toInt other⟩
  · rintro ⟨literal, fits⟩
    obtain ⟨value, same, found⟩ := literal.exists_int64? fits
    exact ⟨value, same, operand_on_number bound isInteger found⟩

/-- The operand fails, and all that is around it up to the statement. -/
theorem rejects (reaches : ReachesInteger tokens loop bound cursor token)
    (refused : ∀ number, Literal token.text.toList number → ¬ Fits number) :
    RejectsInteger tokens loop cursor token := by
  obtain ⟨underway, goesOn, comes, rfl, isInteger⟩ := reaches
  have fails := comes.fails (operand_on_refused bound isInteger (int64?_eq_none_iff.mpr refused))
  exact ⟨fails, Loop.run_withoutStatement goesOn fails,
    LeavesOut.mem_diagnostics ⟨loop, _, underway, goesOn, fails⟩⟩

end ReachesInteger

/-- A diagnostic about an integer is that of a literal that the parser comes to. -/
theorem exists_reachesInteger {tokens : List Token} {text : String} {line : Nat}
    (reported : .invalidInteger text line ∈ (Parsed.ofTokens tokens).diagnostics) :
    ∃ loop bound cursor, ReachesInteger tokens loop bound cursor ⟨.integer, text, line⟩ ∧
      ∀ number, Literal text.toList number → ¬ Fits number := by
  obtain ⟨loop, last, underway, goesOn, fails⟩ := mem_diagnostics_iff.mp reported
  have accounts := accounts_statement (accounts_expression tokens loop.bound)
  obtain ⟨bound, cursor, comes, isNext, refused⟩ := (accounts.accounts loop.cursor).thrown fails
  exact ⟨loop, bound, cursor, ⟨underway, goesOn, comes, isNext, rfl⟩,
    int64?_eq_none_iff.mp refused⟩

/-- The integers of a source are written without a sign. -/
theorem isNumeral_of_mem_ofSource {source : String} {token : Token}
    (member : token ∈ Token.ofSource source) (isInteger : token.kind = .integer) :
    IsNumeral token.text.toList := by
  obtain ⟨tokens, last, same, isLast, all⟩ := Token.ofSource_eq source
  rw [same] at member
  rcases List.mem_append.mp member with member | member
  · obtain ⟨number, found⟩ := (all token member).2 isInteger
    exact (natural?_eq_some_iff.mp found).1
  · rw [List.mem_singleton.mp member, isLast] at isInteger
    exact absurd isInteger nofun

/-- Integers are read exactly or rejected. Wherever the parser comes to an integer as an operand, it
reads the node of a number if the token is a literal of this number that fits, and of no other;
otherwise it rejects the token together with the innermost statement around it. The text of every
integer value is a literal that fits. In a source the literals have no sign, so a literal is read
exactly if what its digits stand for is below `2 ^ 63`. And only literals that are reached and do
not fit are reported. -/
theorem integers_are_exact_or_rejected :
    (∀ {tokens : List Token} {loop : Loop} {bound : Nat} {cursor : Cursor} {token : Token},
      ReachesInteger tokens loop bound cursor token →
      (∀ number, ReadsNumber bound cursor number ↔
        Literal token.text.toList number ∧ Fits number) ∧
      ((∀ number, Literal token.text.toList number → ¬ Fits number) →
        RejectsInteger tokens loop cursor token) ∧
      (∀ value : Int64, token.text = (Value.integer value).text →
        ReadsNumber bound cursor value.toInt) ∧
      ∀ source, tokens = Token.ofSource source → IsNumeral token.text.toList ∧
        (ReadsNumber bound cursor (placeValue token.text.toList) ↔
          placeValue token.text.toList < 2 ^ 63)) ∧
    ∀ tokens text line, .invalidInteger text line ∈ (Parsed.ofTokens tokens).diagnostics ↔
      ∃ loop bound cursor, ReachesInteger tokens loop bound cursor ⟨.integer, text, line⟩ ∧
        ∀ number, Literal text.toList number → ¬ Fits number := by
  refine ⟨fun reaches => ⟨fun _ => reaches.readsNumber_iff, reaches.rejects, ?_, ?_⟩,
    fun tokens text line => ⟨exists_reachesInteger, ?_⟩⟩
  · intro value isText
    have found : int64? (Value.integer value).text = some value := int64?_ofInt value
    rw [← isText] at found
    exact reaches.readsNumber_iff.mpr ⟨int64?_eq_some_iff_literal.mp found, fits_toInt value⟩
  · rintro source rfl
    have numeral := isNumeral_of_mem_ofSource reaches.mem reaches.isInteger
    refine ⟨numeral, reaches.readsNumber_iff.trans ⟨fun readable => ?_, fun small => ?_⟩⟩
    · have most := readable.2.2
      omega
    · refine ⟨.unsigned numeral, ?_, ?_⟩ <;> omega
  · rintro ⟨loop, bound, cursor, reaches, refused⟩
    exact (reaches.rejects refused).reported

/-- A function whose body is one integer, on the second line. -/
def functionOf (text : String) : List Token :=
  [⟨.functionWord, "fn", 1⟩, ⟨.openParen, "(", 1⟩, ⟨.closeParen, ")", 1⟩, ⟨.openBrace, "\x7b", 1⟩,
    ⟨.integer, text, 2⟩, ⟨.closeBrace, "\x7d", 2⟩]

theorem reachesInteger_functionOf (text : String) :
    ReachesInteger (functionOf text)
      (Loop.ofBlock 6 ⟨(functionOf text).drop 3, 2, #[]⟩) 5 ⟨(functionOf text).drop 4, 2, #[]⟩
      ⟨.integer, text, 2⟩ := by
  have moves := moves_expression
  have comesToBlock : ComesTo (block 6 (expression 6)) ⟨(functionOf text).drop 3, 2, #[]⟩
      (statement (expression 7)) ⟨functionOf text, 2, #[]⟩ := by
    refine .behind moves_peek rfl ?_
    refine .first (fun _ => (moves_skip _).bind fun _ => moves_pure _) ?_
    refine .first (fun _ => moves_continuations (moves 6) _ _ _ _) ?_
    refine .behind moves_take rfl ?_
    refine .behind (moves_expect _) rfl ?_
    refine .behind (moves_commaSeparated moves_parameter _ _) rfl ?_
    exact .first (fun _ => moves_pure _) .here
  have comesToOperand : ComesTo (operand 5 (expression 5)) ⟨(functionOf text).drop 4, 2, #[]⟩
      (statement (expression 6)) ⟨(functionOf text).drop 4, 2, #[]⟩ := by
    refine .behind moves_peek rfl ?_
    refine .first (fun _ => (moves_skip _).bind fun _ => moves_pure _) ?_
    exact .first (fun _ => moves_continuations (moves 5) _ _ _ _) .here
  exact ⟨.block .program ⟨nofun, rfl⟩ comesToBlock rfl, ⟨nofun, rfl⟩, comesToOperand, rfl, rfl⟩

/-- The least integer, with zeros in front, and its opposite, which is no integer. -/
theorem integers_are_exact_or_rejected_functionOf :
    ReadsNumber 5 ⟨(functionOf "-0009223372036854775808").drop 4, 2, #[]⟩ (-2 ^ 63) ∧
      RejectsInteger (functionOf "+9223372036854775808")
        (Loop.ofBlock 6 ⟨(functionOf "+9223372036854775808").drop 3, 2, #[]⟩)
        ⟨(functionOf "+9223372036854775808").drop 4, 2, #[]⟩
        ⟨.integer, "+9223372036854775808", 2⟩ := by
  constructor
  · have exact := (integers_are_exact_or_rejected.1
      (reachesInteger_functionOf "-0009223372036854775808")).1
    exact (exact (-2 ^ 63)).mpr ⟨whole?_eq_some_iff.mp (by decide +kernel), by decide⟩
  · have rejects := (integers_are_exact_or_rejected.1
      (reachesInteger_functionOf "+9223372036854775808")).2.1
    exact rejects (int64?_eq_none_iff.mp (by decide +kernel))

end Parser

end MonkeyLang
