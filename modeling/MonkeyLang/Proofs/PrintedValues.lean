/-
This file proves that values read back from their own text. The text of a value
that is built of integers, truth values, arrays and hashes is the text of a
program, the literal of the value; and running this program results in the value
again.

In the text of a value lexemes stand side by side without blanks, and what keeps
them apart is what they are made of: behind a number or a word comes a bracket,
a comma or a colon, or nothing. So the induction on the value is about text in
front of whatever does not go on with its last lexeme.
-/

import MonkeyLang.Proofs.Evaluation.ProgramCall
import MonkeyLang.Proofs.Juxtaposition
import MonkeyLang.Proofs.Literals
import MonkeyLang.Proofs.Sessions

namespace MonkeyLang

open MonkeyLang.Parser Machine Text

/-! ### The texts of values -/

/-- All integers but the least have an opposite. -/
theorem toInt_neg_of_ne {value : Int64} (other : value ≠ Int64.minValue) :
    (-value).toInt = -value.toInt := by
  have least := value.minValue_le_toInt
  have most := value.toInt_le
  have differs : value.toInt ≠ Int64.minValue.toInt := fun same => other (Int64.toInt_inj.mp same)
  rw [Int64.toInt_minValue] at least differs
  rw [Int64.toInt_maxValue] at most
  rw [Int64.toInt_neg, Int.bmod_eq_of_le] <;> omega

theorem spells_integer {value : Int64} (readable : value ≠ Int64.minValue) :
    Spells (Value.integer value).text.toList (Value.integer value).literal.words := by
  rw [Value.text, Value.literal]
  by_cases negative : value < 0
  · obtain ⟨number, same⟩ := Int.eq_negSucc_of_lt_zero (Int64.lt_iff_toInt_lt.mp negative)
    have opposite : (-value).toInt = Int.ofNat (number + 1) := by
      rw [toInt_neg_of_ne readable, same]
      rfl
    have signed : (Decimal.ofInt (.negSucc number)).toList =
        '-' :: Nat.toDigits 10 (number + 1) := by
      simp [Decimal.ofInt, Decimal.ofNat]
    intro rest behind delimited scans
    rw [if_pos negative, same, signed, Expression.words, Expression.words, opposite]
    exact (Spells.digits (number + 1) delimited scans).sign '-' .minus (by decide)
  · rw [if_neg negative, Expression.words]
    exact Spells.natural (Int64.not_lt.mp negative)

mutual

/-- The text of a value spells its literal. -/
theorem Value.spells : ∀ {value : Value}, value.Readable →
    Spells value.text.toList value.literal.words
  | .integer _, readable => spells_integer readable
  | .boolean value, _ => Spells.boolean value
  | .array elements, readable => by
    have items := Spells.intercalate [' '] (by decide) (spells_values readable)
    intro rest behind delimited scans
    have closed := scans.sign ']' .closeBracket (by decide)
    have all := (items (.cons (by decide) rest) closed).sign '[' .openBracket (by decide)
    simpa [Value.text, Value.literal, Expression.words] using all
  | .hash entries, ⟨_, readable⟩ => by
    have items := Spells.intercalate [' '] (by decide) (spells_entries readable)
    intro rest behind delimited scans
    have closed := scans.sign '\x7d' .closeBrace (by decide)
    have all := (items (.cons (by decide) rest) closed).sign '\x7b' .openBrace (by decide)
    simpa [Value.text, Value.literal, Expression.words, braced] using all
termination_by structural value => value

theorem spells_values : ∀ {values : List Value}, ReadableValues values →
    List.Forall₂ (fun text words => Spells text words) ((textsOfValues values).map String.toList)
      (wordsOfExpressions (literalsOfValues values))
  | [], _ => .nil
  | _ :: _, ⟨first, rest⟩ => .cons (Value.spells first) (spells_values rest)
termination_by structural values => values

theorem spells_entries : ∀ {entries : List (Entry Value)}, ReadableEntries entries →
    List.Forall₂ (fun text words => Spells text words) ((textsOfEntries entries).map String.toList)
      (wordsOfPairs (literalsOfEntries entries))
  | [], _ => .nil
  | ⟨_, key, value⟩ :: _, ⟨⟨readableKey, _⟩, readableValue, rest⟩ => by
    refine .cons (fun rest behind delimited scans => ?_) (spells_entries rest)
    have spelledValue := Value.spells readableValue delimited scans
    have separated := spelledValue.blank.sign ':' .colon (by decide)
    simpa using Value.spells readableKey (.cons (by decide) _) separated
termination_by structural entries => entries

end

/-! ### Running printed values -/

/-- The text of a value is read as the program that is its literal, and nothing is wrong with it. -/
theorem Parsed.ofSource_text {value : Value} (readable : value.Readable) :
    Parsed.ofSource value.text = ⟨⟨[.expression value.literal]⟩, []⟩ :=
  (Value.spells readable).ofSource_eq value.literal.spelled.alone

/-- The text of a value that is built of integers but the least one, truth values, arrays, and
hashes with integers and truth values for keys reads cleanly as a program. In every state and frame,
and so in fresh ones, running it results in the very value, with the entries of hashes in the same
order, and writes nothing. -/
theorem printed_values_read_back {value : Value} (readable : value.Readable)
    (limit frame : Nat) (machine : Machine) :
    (Parsed.ofSource value.text).diagnostics = [] ∧
      StateT.run (runSource limit frame value.text) machine =
        (.ok value, { machine with depth := 0 }) ∧
      value.same value = true := by
  have parsed := Parsed.ofSource_text readable
  have clean : (Parsed.ofSource value.text).diagnostics = [] := congrArg Parsed.diagnostics parsed
  have statements : statementsOf value.text = [.expression value.literal] :=
    congrArg (fun parsed : Parsed => parsed.program.statements) parsed
  refine ⟨clean, ?_, Value.same_self readable⟩
  rw [runSource_of_clean clean, statements, evaluateStatements_expression_on,
    evaluate_literal readable]
  rfl

/-- A value with numbers of either sign as elements, keys and values. -/
def mixedLiterals : Value :=
  .array [.integer (-9223372036854775807), .hash [
    .ofPair (.integer (-7), .array [.integer 0, .boolean false]),
    .ofPair (.boolean true, .hash []), .ofPair (.integer 1, .integer (-1))], .array []]

theorem printed_values_read_back_mixedLiterals :
    mixedLiterals.Readable ∧
      mixedLiterals.text =
        "[-9223372036854775807, \x7b-7: [0, false], true: \x7b\x7d, 1: -1\x7d, []]" ∧
      StateT.run (runSource 0 rootFrame mixedLiterals.text) .initial =
        (.ok mixedLiterals, .initial) := by
  have readable : mixedLiterals.Readable := by
    have differ : (0 : Int64) ≠ Int64.minValue ∧ (1 : Int64) ≠ Int64.minValue := by decide
    simp [mixedLiterals, Entry.ofPair, Value.Readable, ReadableValues, ReadableEntries,
      Value.hashKey?, Value.hashCode?, differ]
  exact ⟨readable, by decide +kernel, (printed_values_read_back readable 0 rootFrame .initial).2.1⟩

end MonkeyLang
