/-
This file says what scanning yields, as a relation between a text and its
lexemes that puts nothing off: the lexemes stand in the order of the text, and
one rule says how each is cut off. Every statement about scanned sources goes by
induction on it, and every statement about one lexeme by cases on what can be
cut off the front of a text.

Two facts about all sources follow, that the end of input comes last and
nowhere else, and that the text of an integer is a run of digits. A line feed
between two texts keeps their lexemes apart, unless a string is still open in
front of it. The last part goes the other way, from terminals to a source in
which they stand with blanks between them.
-/

import MonkeyLang.Proofs.Decimal
import MonkeyLang.Proofs.Parser.Steps

namespace MonkeyLang

open Text

/-! ### The relation -/

/-- Cuts a text that starts on a line into its lexemes. -/
inductive Cuts : Nat → List Char → List Lexeme → Prop
  | ends {line : Nat} : Cuts line [] [⟨.endOfInput, [], line⟩]
  | lineFeed {line : Nat} {rest : List Char} {lexemes : List Lexeme} :
      Cuts (line + 1) rest lexemes → Cuts line ('\n' :: rest) lexemes
  | blank {line : Nat} {c : Char} {rest : List Char} {lexemes : List Lexeme} :
      isBlank c = true → Cuts line rest lexemes → Cuts line (c :: rest) lexemes
  | piece {line : Nat} {first : Char} {tail rest : List Char} {kind : Kind}
      {lexemes : List Lexeme} : first ≠ '\n' → isBlank first = false →
      Lexeme.front first (tail ++ rest) = (kind, tail) →
      Cuts (Lexeme.lastLine ⟨kind, first :: tail, line⟩) rest lexemes →
      Cuts line (first :: (tail ++ rest)) (⟨kind, first :: tail, line⟩ :: lexemes)

/-- Scanning puts the lexemes in front of those already found. -/
theorem Cuts.scan_eq {line : Nat} {source : List Char} {lexemes : List Lexeme}
    (cuts : Cuts line source lexemes) (found : List Lexeme) :
    Lexeme.scan line source found = lexemes.reverse ++ found := by
  induction cuts generalizing found with
  | ends => rw [Lexeme.scan]; rfl
  | lineFeed _ inductionHypothesis =>
    rw [Lexeme.scan, if_pos (by decide)]
    exact inductionHypothesis found
  | @blank _ c _ _ isBlank _ inductionHypothesis =>
    have more : ¬(c == '\n') = true := by
      intro same
      rw [eq_of_beq same] at isBlank
      exact absurd isBlank (by decide)
    rw [Lexeme.scan, if_neg more, if_pos isBlank]
    exact inductionHypothesis found
  | piece notFeed notBlank cut _ inductionHypothesis =>
    rw [Lexeme.scan, if_neg (by simpa using notFeed), if_neg (by simp [notBlank]), cut]
    simp only [List.drop_left, List.reverse_cons, List.append_assoc]
    exact inductionHypothesis _

/-- Every text is cut into lexemes. -/
theorem exists_cuts (line : Nat) (source : List Char) :
    ∃ lexemes, Cuts line source lexemes := by
  induction line, source, ([] : List Lexeme) using Lexeme.scan.induct with
  | case1 => exact ⟨_, .ends⟩
  | case2 line _ first rest isFeed inductionHypothesis =>
    obtain ⟨lexemes, cuts⟩ := inductionHypothesis
    rw [eq_of_beq isFeed]
    exact ⟨lexemes, cuts.lineFeed⟩
  | case3 line _ first rest _ isBlank inductionHypothesis =>
    obtain ⟨lexemes, cuts⟩ := inductionHypothesis
    exact ⟨lexemes, cuts.blank isBlank⟩
  | case4 line _ first rest notFeed notBlank kind tail cut lexeme inductionHypothesis =>
    obtain ⟨lexemes, cuts⟩ := inductionHypothesis
    obtain ⟨behind, rfl⟩ : tail <+: rest := by
      have isFront := Lexeme.front_prefix first rest
      rwa [cut] at isFront
    rw [List.drop_left] at cuts
    exact ⟨_, .piece (by simpa using notFeed) (by simpa using notBlank) cut cuts⟩

/-- The lexemes of a source are those it is cut into from line one on. -/
theorem Lexeme.ofSource_eq_iff {source : String} {lexemes : List Lexeme} :
    Lexeme.ofSource source = lexemes ↔ Cuts 1 source.toList lexemes := by
  have scanned {found : List Lexeme} (cuts : Cuts 1 source.toList found) :
      Lexeme.ofSource source = found := by
    rw [Lexeme.ofSource, cuts.scan_eq, List.append_nil, List.reverse_reverse]
  constructor
  · rintro rfl
    obtain ⟨found, cuts⟩ := exists_cuts 1 source.toList
    rwa [scanned cuts]
  · exact scanned

/-! ### The piece at the front -/

/-- A run of a class goes up to what is not in the class. -/
theorem takeWhile_append_of_head {holds : Char → Bool} {tail rest : List Char}
    (all : ∀ c ∈ tail, holds c = true) (stops : ∀ c ∈ rest.head?, holds c = false) :
    (tail ++ rest).takeWhile holds = tail := by
  rw [List.takeWhile_append_of_pos all]
  cases rest with
  | nil => simp
  | cons c rest => simp [stops c rfl]

/-- What a run of a class goes up to is not in the class. -/
theorem of_takeWhile_append_eq {holds : Char → Bool} {tail rest : List Char}
    (run : (tail ++ rest).takeWhile holds = tail) :
    (∀ c ∈ tail, holds c = true) ∧ ∀ c ∈ rest.head?, holds c = false := by
  have all : ∀ c ∈ tail, holds c = true := by
    rw [← run]
    exact List.all_eq_true.mp List.all_takeWhile
  rw [List.takeWhile_append_of_pos all] at run
  have stops : rest.takeWhile holds = [] := List.append_right_eq_self.mp run
  refine ⟨all, fun c isNext => ?_⟩
  cases rest with
  | nil => exact absurd isNext nofun
  | cons next rest =>
    obtain rfl := Option.some.inj isNext
    cases isIn : holds next with
    | true => simp [isIn] at stops
    | false => rfl

/-- No digit is a letter. -/
theorem isLetter_eq_false_of_isDigit {c : Char} (digit : isDigit c = true) :
    isLetter c = false := by
  have small : c ≤ '9' := by
    simp only [isDigit, Bool.and_eq_true, decide_eq_true_eq] at digit
    exact digit.2
  have noLower : ¬ 'a' ≤ c := fun large => absurd (Char.le_trans large small) (by decide)
  have noUpper : ¬ 'A' ≤ c := fun large => absurd (Char.le_trans large small) (by decide)
  have noUnderscore : c ≠ '_' := by
    rintro rfl
    exact absurd small (by decide)
  simp [isLetter, noLower, noUpper, noUnderscore]

section Runs

variable {first : Char} {tail rest : List Char}

/-- A run of letters is cut off as a word, up to what is no letter. -/
theorem Lexeme.front_word (letters : ∀ c ∈ first :: tail, isLetter c = true)
    (stops : ∀ c ∈ rest.head?, isLetter c = false) :
    front first (tail ++ rest) = (.ofWord (String.ofList (first :: tail)), tail) := by
  obtain ⟨isFirst, areLetters⟩ := List.forall_mem_cons.mp letters
  rw [front, if_pos isFirst]
  simp only [takeWhile_append_of_head areLetters stops]

/-- A run of digits is cut off as an integer, up to what is no digit. -/
theorem Lexeme.front_integer (digits : ∀ c ∈ first :: tail, isDigit c = true)
    (stops : ∀ c ∈ rest.head?, isDigit c = false) :
    front first (tail ++ rest) = (.integer, tail) := by
  obtain ⟨isFirst, areDigits⟩ := List.forall_mem_cons.mp digits
  have noLetter : ¬isLetter first = true := by simp [isLetter_eq_false_of_isDigit isFirst]
  rw [front, if_neg noLetter, if_pos isFirst, takeWhile_append_of_head areDigits stops]

end Runs

/-- A string runs over what holds no quote. -/
theorem bne_of_noQuote {inside : List Char} (noQuote : '"' ∉ inside) :
    ∀ c ∈ inside, (c != '"') = true := by
  intro c member
  rw [bne_iff_ne]
  rintro rfl
  exact noQuote member

/-- A string ends with the first quote, whatever is behind. -/
theorem stringTail_append {inside : List Char} (noQuote : '"' ∉ inside) (rest : List Char) :
    Lexeme.stringTail (inside ++ '"' :: rest) = inside ++ ['"'] := by
  have all := bne_of_noQuote noQuote
  rw [Lexeme.stringTail, List.takeWhile_append_of_pos all, List.dropWhile_append_of_pos all]
  simp

/-- Without a next quote a string runs to the end of the text. -/
theorem stringTail_eq_self {inside : List Char} (noQuote : '"' ∉ inside) :
    Lexeme.stringTail inside = inside := by
  have all := bne_of_noQuote noQuote
  have run : Lexeme.stringTail (inside ++ []) = inside := by
    rw [Lexeme.stringTail, List.takeWhile_append_of_pos all, List.dropWhile_append_of_pos all]
    simp
  rwa [List.append_nil] at run

/-- A string ends with a quote or at the end of the text. -/
theorem exists_of_stringTail_eq {tail rest : List Char}
    (run : Lexeme.stringTail (tail ++ rest) = tail) :
    ∃ inside, '"' ∉ inside ∧ (tail = inside ++ ['"'] ∨ tail = inside ∧ rest = []) := by
  by_cases quoted : '"' ∈ tail ++ rest
  · obtain ⟨inside, behind, same, noQuote⟩ := List.eq_append_cons_of_mem quoted
    rw [same, stringTail_append noQuote] at run
    exact ⟨inside, noQuote, .inl run.symm⟩
  · rw [stringTail_eq_self quoted] at run
    obtain rfl := List.append_right_eq_self.mp run
    exact ⟨tail, fun member => quoted (List.mem_append_left _ member), .inr ⟨rfl, rfl⟩⟩

/-- A character that no longer piece starts with. -/
def Lexeme.Single (c : Char) : Prop :=
  isLetter c = false ∧ isDigit c = false ∧ c ≠ '"' ∧ c ≠ '=' ∧ c ≠ '!'

instance (c : Char) : Decidable (Lexeme.Single c) :=
  inferInstanceAs (Decidable (_ ∧ _))

/-- Such a character is cut off alone, whatever comes next. -/
theorem Lexeme.front_single {c : Char} (single : Single c) (rest : List Char) :
    front c rest = (kindOfSingle c, []) := by
  obtain ⟨noLetter, noDigit, noQuote, noEquals, noBang⟩ := single
  simp [front, noLetter, noDigit, noQuote, noEquals, noBang]

theorem Lexeme.front_equals (rest : List Char) :
    front '=' rest = if rest.head? == some '=' then (.equal, ['=']) else (.assign, []) := rfl

theorem Lexeme.front_bang (rest : List Char) :
    front '!' rest = if rest.head? == some '=' then (.notEqual, ['=']) else (.bang, []) := rfl

/-- What can be cut off the front of a text, in front of the rest of the text. -/
inductive Lexeme.Cut : Kind → (raw rest : List Char) → Prop
  | word {raw rest : List Char} : raw ≠ [] → (∀ c ∈ raw, isLetter c = true) →
      (∀ c ∈ rest.head?, isLetter c = false) → Cut (.ofWord (String.ofList raw)) raw rest
  | integer {raw rest : List Char} : raw ≠ [] → (∀ c ∈ raw, isDigit c = true) →
      (∀ c ∈ rest.head?, isDigit c = false) → Cut .integer raw rest
  | closedString {inside rest : List Char} : '"' ∉ inside →
      Cut .string ('"' :: (inside ++ ['"'])) rest
  | openString {inside : List Char} : '"' ∉ inside → Cut .string ('"' :: inside) []
  | equal {rest : List Char} : Cut .equal ['=', '='] rest
  | notEqual {rest : List Char} : Cut .notEqual ['!', '='] rest
  | single {c : Char} {rest : List Char} : isLetter c = false → isDigit c = false → c ≠ '"' →
      (c = '=' ∨ c = '!' → rest.head? ≠ some '=') → Cut (kindOfSingle c) [c] rest

/-- The piece at the front of a text is what can be cut off there. -/
theorem Lexeme.front_eq_iff {first : Char} {tail rest : List Char} {kind : Kind} :
    front first (tail ++ rest) = (kind, tail) ↔ Cut kind (first :: tail) rest := by
  constructor
  · intro cut
    unfold front at cut
    split at cut
    · next isFirst =>
      obtain ⟨rfl, run⟩ := Prod.mk.inj cut
      obtain ⟨letters, stops⟩ := of_takeWhile_append_eq run
      rw [run]
      exact .word (List.cons_ne_nil _ _) (List.forall_mem_cons.mpr ⟨isFirst, letters⟩) stops
    split at cut
    · next isFirst =>
      obtain ⟨rfl, run⟩ := Prod.mk.inj cut
      obtain ⟨digits, stops⟩ := of_takeWhile_append_eq run
      exact .integer (List.cons_ne_nil _ _) (List.forall_mem_cons.mpr ⟨isFirst, digits⟩) stops
    split at cut
    · next isQuote =>
      obtain ⟨rfl, run⟩ := Prod.mk.inj cut
      obtain rfl := eq_of_beq isQuote
      obtain ⟨inside, noQuote, rfl | ⟨rfl, rfl⟩⟩ := exists_of_stringTail_eq run
      · exact .closedString noQuote
      · exact .openString noQuote
    next noLetter noDigit noQuote =>
    have isSingle (noSign : first = '=' ∨ first = '!' → rest.head? ≠ some '=') :
        Cut (kindOfSingle first) [first] rest :=
      .single (by simpa using noLetter) (by simpa using noDigit) (by simpa using noQuote) noSign
    split at cut
    · next double =>
      obtain ⟨rfl, rfl⟩ := Prod.mk.inj cut
      obtain rfl : first = '=' := by simp_all
      exact .equal
    split at cut
    · next double =>
      obtain ⟨rfl, rfl⟩ := Prod.mk.inj cut
      obtain rfl : first = '!' := by simp_all
      exact .notEqual
    next noEqual noNotEqual =>
    obtain ⟨rfl, rfl⟩ := Prod.mk.inj cut
    refine isSingle ?_
    rintro (rfl | rfl)
    · simpa using noEqual
    · simpa using noNotEqual
  · intro cut
    generalize whole : first :: tail = raw at cut
    cases cut with
    | word _ letters stops =>
      subst whole
      exact front_word letters stops
    | integer _ digits stops =>
      subst whole
      exact front_integer digits stops
    | @closedString inside _ noQuote =>
      obtain ⟨rfl, rfl⟩ := List.cons.inj whole
      have isString : front '"' (inside ++ ['"'] ++ rest) =
          (.string, stringTail (inside ++ ['"'] ++ rest)) := rfl
      rw [isString, ← List.append_cons, stringTail_append noQuote]
    | @openString inside noQuote =>
      obtain ⟨rfl, rfl⟩ := List.cons.inj whole
      have isString : front '"' (tail ++ []) = (.string, stringTail (tail ++ [])) := rfl
      rw [isString, List.append_nil, stringTail_eq_self noQuote]
    | equal | notEqual =>
      obtain ⟨rfl, rfl⟩ := List.cons.inj whole
      rfl
    | @single c _ noLetter noDigit noQuote noSign =>
      obtain ⟨rfl, rfl⟩ := List.cons.inj whole
      rw [List.nil_append]
      by_cases isEquals : first = '='
      · subst isEquals
        rw [front_equals, if_neg (by simpa using noSign (.inl rfl))]
        rfl
      by_cases isBang : first = '!'
      · subst isBang
        rw [front_bang, if_neg (by simpa using noSign (.inr rfl))]
        rfl
      exact front_single ⟨noLetter, noDigit, noQuote, isEquals, isBang⟩ rest

/-- The kinds of signs and brackets. -/
def signKinds : List Kind :=
  [.assign, .plus, .minus, .bang, .asterisk, .slash, .less, .greater, .equal, .notEqual, .comma,
    .semicolon, .colon, .openParen, .closeParen, .openBrace, .closeBrace, .openBracket,
    .closeBracket]

namespace Lexeme

/-- A character that no longer piece starts with is a sign, or no piece has a use for it. -/
theorem kindOfSingle_cases (c : Char) :
    kindOfSingle c ∈ signKinds ∧ (kindOfSingle c).name.toList = [c] ∨
      kindOfSingle c = .illegal ∧ ∀ kind ∈ signKinds, kind.name.toList ≠ [c] := by
  unfold kindOfSingle
  split
  case h_18 =>
    refine .inr ⟨rfl, fun kind isSign same => ?_⟩
    have all : ∀ kind ∈ signKinds, kind.name.toList.length = 1 →
        kindOfSingle (kind.name.toList.headD ' ') = kind := by decide
    have found := all kind isSign (by rw [same]; rfl)
    rw [same, List.headD_cons] at found
    unfold kindOfSingle at found
    split at found <;> first | contradiction | exact absurd (found ▸ isSign) (by decide)
  all_goals exact .inl ⟨by decide, rfl⟩

end Lexeme

/-! ### All sources -/

/-- A word is a keyword or an identifier. -/
theorem Kind.ofWord_mem (word : String) :
    Kind.ofWord word ∈ Kind.identifier :: keywords.map Prod.snd := by
  unfold Kind.ofWord
  cases found : keywords.lookup word with
  | none => exact List.mem_cons_self
  | some kind =>
    obtain ⟨before, after, same, -⟩ := List.lookup_eq_some_iff.mp found
    rw [same]
    simp

/-- A word is neither the end of input nor an integer nor a string. -/
theorem Kind.ofWord_ne {word : String} {kind : Kind}
    (other : kind ∉ Kind.identifier :: keywords.map Prod.snd) : Kind.ofWord word ≠ kind :=
  fun same => other (same ▸ Kind.ofWord_mem word)

namespace Lexeme

theorem kindOfSingle_ne_endOfInput (c : Char) : kindOfSingle c ≠ .endOfInput := by
  unfold kindOfSingle
  split <;> decide

theorem kindOfSingle_ne_integer (c : Char) : kindOfSingle c ≠ .integer := by
  unfold kindOfSingle
  split <;> decide

namespace Cut

variable {kind : Kind} {raw rest : List Char}

/-- No piece of a text is the end of input. -/
theorem ne_endOfInput (cut : Cut kind raw rest) : kind ≠ .endOfInput := by
  cases cut with
  | word => exact Kind.ofWord_ne (by decide)
  | single => exact kindOfSingle_ne_endOfInput _
  | _ => exact nofun

/-- Only a run of digits is an integer. -/
theorem digits (cut : Cut kind raw rest) (isInteger : kind = .integer) :
    ∀ c ∈ raw, isDigit c = true := by
  cases cut with
  | integer _ digits _ => exact digits
  | word => exact absurd isInteger (Kind.ofWord_ne (by decide))
  | single => exact absurd isInteger (kindOfSingle_ne_integer _)
  | _ => exact absurd isInteger nofun

end Cut

end Lexeme

/-- The end of input comes last. Everything else was cut off some text that starts with no
layout. -/
theorem Cuts.pieces {line : Nat} {source : List Char} {lexemes : List Lexeme}
    (cuts : Cuts line source lexemes) :
    ∃ pieces last, lexemes = pieces ++ [⟨.endOfInput, [], last⟩] ∧ ∀ piece ∈ pieces,
      (∀ c ∈ piece.raw.head?, c ≠ '\n' ∧ isBlank c = false) ∧ piece.raw ≠ [] ∧
        ∃ rest, Lexeme.Cut piece.kind piece.raw rest := by
  induction cuts with
  | @ends line => exact ⟨[], line, rfl, nofun⟩
  | lineFeed _ inductionHypothesis => exact inductionHypothesis
  | blank _ _ inductionHypothesis => exact inductionHypothesis
  | @piece line first tail rest kind _ notFeed notBlank cut _ inductionHypothesis =>
    obtain ⟨pieces, last, rfl, all⟩ := inductionHypothesis
    refine ⟨⟨kind, first :: tail, line⟩ :: pieces, last, rfl, List.forall_mem_cons.mpr ⟨?_, all⟩⟩
    refine ⟨?_, List.cons_ne_nil _ _, rest, Lexeme.front_eq_iff.mp cut⟩
    rintro _ ⟨⟩
    exact ⟨notFeed, notBlank⟩

/-- The end of input comes last and nowhere else, and integers are runs of digits. -/
theorem Cuts.tokens {line : Nat} {source : List Char} {lexemes : List Lexeme}
    (cuts : Cuts line source lexemes) :
    ∃ tokens last, lexemes.map Lexeme.token = tokens ++ [last] ∧ last.kind = .endOfInput ∧
      ∀ token ∈ tokens, token.kind ≠ .endOfInput ∧
        (token.kind = .integer → ∃ number, Decimal.natural? token.text.toList = some number) := by
  obtain ⟨pieces, last, rfl, all⟩ := cuts.pieces
  refine ⟨pieces.map Lexeme.token, _, List.map_append, rfl, List.forall_mem_map.mpr ?_⟩
  rintro ⟨kind, raw, line⟩ member
  obtain ⟨-, nonempty, rest, isCut⟩ := all _ member
  refine ⟨isCut.ne_endOfInput, fun isInteger => ?_⟩
  obtain rfl : kind = .integer := isInteger
  have digits : (Lexeme.token ⟨.integer, raw, line⟩).text.toList = raw := String.toList_ofList
  rw [digits]
  exact Decimal.exists_natural? nonempty (isCut.digits rfl)

/-- The tokens of every source are those before the end of input, and the end of input. -/
theorem Token.ofSource_eq (source : String) :
    ∃ tokens last, Token.ofSource source = tokens ++ [last] ∧ last.kind = .endOfInput ∧
      ∀ token ∈ tokens, token.kind ≠ .endOfInput ∧
        (token.kind = .integer → ∃ number, Decimal.natural? token.text.toList = some number) :=
  (Lexeme.ofSource_eq_iff.mp rfl).tokens

/-! ### Texts with a line feed between them -/

theorem head?_append_lineFeed {rest more : List Char} {c : Char}
    (isHead : (rest ++ '\n' :: more).head? = some c) : rest.head? = some c ∨ c = '\n' := by
  cases rest with
  | nil => exact .inr (Option.some.inj isHead).symm
  | cons => exact .inl isHead

/-- A piece is cut off the same if a line feed and more follow the text, unless it is a string up
to the end of the text. -/
theorem Lexeme.Cut.append_lineFeed {kind : Kind} {raw rest : List Char}
    (cut : Cut kind raw rest) (complete : rest = [] → kind ≠ .string) (more : List Char) :
    Cut kind raw (rest ++ '\n' :: more) := by
  have stops {holds : Char → Bool} (feed : holds '\n' = false)
      (stops : ∀ c ∈ rest.head?, holds c = false) :
      ∀ c ∈ (rest ++ '\n' :: more).head?, holds c = false := by
    intro c isHead
    rcases head?_append_lineFeed isHead with isHead | rfl
    · exact stops c isHead
    · exact feed
  cases cut with
  | word nonempty letters ends => exact .word nonempty letters (stops (by decide) ends)
  | integer nonempty digits ends => exact .integer nonempty digits (stops (by decide) ends)
  | closedString noQuote => exact .closedString noQuote
  | openString _ => exact absurd rfl (complete rfl)
  | equal => exact .equal
  | notEqual => exact .notEqual
  | single noLetter noDigit noQuote noSign =>
    refine .single noLetter noDigit noQuote fun isSign isHead => ?_
    rcases head?_append_lineFeed isHead with isHead | isFeed
    · exact noSign isSign isHead
    · exact absurd isFeed (by decide)

theorem Cuts.ne_nil {line : Nat} {source : List Char} {lexemes : List Lexeme}
    (cuts : Cuts line source lexemes) : lexemes ≠ [] := by
  induction cuts with
  | ends => exact List.cons_ne_nil _ _
  | lineFeed _ inductionHypothesis => exact inductionHypothesis
  | blank _ _ inductionHypothesis => exact inductionHypothesis
  | piece => exact List.cons_ne_nil _ _

theorem Cuts.eq_of_nil {line : Nat} {lexemes : List Lexeme} (cuts : Cuts line [] lexemes) :
    lexemes = [⟨.endOfInput, [], line⟩] := by
  cases cuts
  rfl

/-- Behind a line feed a text is cut as if nothing were in front of it, unless what is in front ends
with a string, which might go on. -/
theorem Cuts.append_lineFeed {line : Nat} {source more : List Char} {lexemes others : List Lexeme}
    {last : Lexeme} (cuts : Cuts line source (lexemes ++ [last]))
    (complete : ∀ lexeme ∈ lexemes.getLast?, lexeme.kind ≠ .string)
    (follows : Cuts (last.line + 1) more others) :
    Cuts line (source ++ '\n' :: more) (lexemes ++ others) := by
  generalize whole : lexemes ++ [last] = all at cuts
  induction cuts generalizing lexemes with
  | ends =>
    obtain ⟨rfl, same⟩ : lexemes = [] ∧ last = _ := by
      simpa [List.append_eq_singleton_iff] using whole
    subst same
    exact .lineFeed follows
  | lineFeed _ inductionHypothesis => exact .lineFeed (inductionHypothesis complete whole)
  | blank isBlank _ inductionHypothesis =>
    exact .blank isBlank (inductionHypothesis complete whole)
  | @piece line first tail rest kind behind notFeed notBlank cut cuts inductionHypothesis =>
    cases lexemes with
    | nil =>
      obtain ⟨-, rfl⟩ := List.cons.inj whole
      exact absurd rfl cuts.ne_nil
    | cons piece lexemes =>
      obtain ⟨rfl, rfl⟩ := List.cons.inj whole
      have complete' : ∀ lexeme ∈ lexemes.getLast?, lexeme.kind ≠ .string := by
        intro lexeme isLast
        refine complete lexeme ?_
        rw [List.getLast?_cons, Option.mem_def.mp isLast]
        rfl
      have isString : rest = [] → kind ≠ .string := by
        rintro rfl
        obtain ⟨rfl, -⟩ : lexemes = [] ∧ _ := by
          simpa [List.append_eq_singleton_iff] using cuts.eq_of_nil
        exact complete _ rfl
      have cut' := (Lexeme.front_eq_iff.mp cut).append_lineFeed isString more
      rw [List.cons_append, List.append_assoc]
      exact .piece notFeed notBlank (Lexeme.front_eq_iff.mpr cut')
        (inductionHypothesis complete' rfl)

/-- The lexemes of a text differ only in their lines if it starts on another line. -/
theorem Cuts.relocate {line : Nat} {source : List Char} {lexemes : List Lexeme}
    (cuts : Cuts line source lexemes) (line' : Nat) :
    ∃ lexemes', Cuts line' source lexemes' ∧
      lexemes'.map (fun lexeme => lexeme.token.terminal) =
        lexemes.map fun lexeme => lexeme.token.terminal := by
  induction cuts generalizing line' with
  | ends => exact ⟨_, .ends, rfl⟩
  | lineFeed _ inductionHypothesis =>
    obtain ⟨lexemes', cuts, same⟩ := inductionHypothesis (line' + 1)
    exact ⟨lexemes', .lineFeed cuts, same⟩
  | blank isBlank _ inductionHypothesis =>
    obtain ⟨lexemes', cuts, same⟩ := inductionHypothesis line'
    exact ⟨lexemes', .blank isBlank cuts, same⟩
  | @piece line first tail rest kind _ notFeed notBlank cut _ inductionHypothesis =>
    obtain ⟨lexemes', cuts, same⟩ :=
      inductionHypothesis (Lexeme.lastLine ⟨kind, first :: tail, line'⟩)
    exact ⟨_, .piece notFeed notBlank cut cuts, congrArg (List.cons _) same⟩

/-- The terminals of two texts with a line feed between them are those of both, but for the end of
the first. -/
theorem Token.terminals_append_lineFeed {first : String} {terminals : List Terminal}
    {last : Terminal}
    (tokens : (Token.ofSource first).map Token.terminal = terminals ++ [last])
    (complete : ∀ terminal ∈ terminals.getLast?, terminal.kind ≠ .string) (second : String) :
    (Token.ofSource (first ++ "\n" ++ second)).map Token.terminal =
      terminals ++ (Token.ofSource second).map Token.terminal := by
  rw [Token.ofSource, List.map_map] at tokens
  obtain ⟨lexemes, ends, isFirst, same, sameLast⟩ := List.map_eq_append_iff.mp tokens
  obtain ⟨ending, rfl, rfl⟩ := List.map_eq_singleton_iff.mp sameLast
  have cuts := Lexeme.ofSource_eq_iff.mp isFirst
  obtain ⟨others, follows, sameOthers⟩ :=
    (Lexeme.ofSource_eq_iff.mp rfl : Cuts 1 second.toList _).relocate (ending.line + 1)
  have complete' : ∀ lexeme ∈ lexemes.getLast?, lexeme.kind ≠ .string := by
    intro lexeme isLast
    refine complete lexeme.token.terminal ?_
    rw [← same, List.getLast?_map, Option.mem_def.mp isLast]
    rfl
  have joined := cuts.append_lineFeed complete' follows
  have split : (first ++ "\n" ++ second).toList = first.toList ++ '\n' :: second.toList := by
    simp
  rw [← split] at joined
  rw [Token.ofSource, Lexeme.ofSource_eq_iff.mpr joined, Token.ofSource, List.map_map,
    List.map_append, List.map_map]
  exact congr (congrArg _ same) sameOthers

/-! ### Terminals with blanks between them -/

/-- How a terminal stands in a source: a string between its quotes, everything else as it is. -/
def Terminal.spelling (terminal : Terminal) : String :=
  match terminal.kind with
  | .string => "\"" ++ terminal.text ++ "\""
  | _ => terminal.text

/-- What comes next is a blank or nothing at all. -/
def Separated : List Char → Prop
  | [] => True
  | c :: _ => c = ' '

/-- A terminal whose spelling is one lexeme wherever a blank or nothing follows. -/
structure Terminal.Standalone (terminal : Terminal) : Prop where
  cut : ∃ first tail, terminal.spelling.toList = first :: tail ∧
    (first ≠ '\n' ∧ isBlank first = false) ∧
    ∀ rest, Separated rest → Lexeme.front first (tail ++ rest) = (terminal.kind, tail)
  text : ∀ line, Lexeme.text ⟨terminal.kind, terminal.spelling.toList, line⟩ = terminal.text

/-- The characters between lexemes. -/
def layout : List Char :=
  ['\n', ' ', '\t', '\r', '\x0c']

/-- A class of characters that takes in no layout. -/
theorem no_layout_of_holds {holds : Char → Bool} {c : Char} (isIn : holds c = true)
    (none : layout.any holds = false) : c ≠ '\n' ∧ isBlank c = false := by
  have differs (other : Char) (member : other ∈ layout) : c ≠ other := by
    rintro rfl
    exact List.any_eq_false.mp none c member isIn
  refine ⟨differs _ (by simp [layout]), ?_⟩
  rw [isBlank]
  simp only [Bool.or_eq_false_iff, beq_eq_false_iff_ne]
  exact ⟨⟨⟨differs _ (by simp [layout]), differs _ (by simp [layout])⟩,
    differs _ (by simp [layout])⟩,
    differs _ (by simp [layout])⟩

/-- A class that holds no blank holds nothing that comes next. -/
theorem Separated.stops {holds : Char → Bool} {rest : List Char} (separated : Separated rest)
    (blank : holds ' ' = false) : ∀ c ∈ rest.head?, holds c = false := by
  cases rest with
  | nil => exact nofun
  | cons c rest =>
    obtain rfl : c = ' ' := separated
    rintro _ ⟨⟩
    exact blank

namespace Terminal

theorem spelling_of_ne {terminal : Terminal} (other : terminal.kind ≠ .string) :
    terminal.spelling = terminal.text := by
  unfold spelling
  split
  · contradiction
  · rfl

/-- Only the text of a string differs from what stands in the source. -/
theorem text_spelling_of_ne {terminal : Terminal} (other : terminal.kind ≠ .string) (line : Nat) :
    Lexeme.text ⟨terminal.kind, terminal.spelling.toList, line⟩ = terminal.text := by
  unfold Lexeme.text
  split
  · contradiction
  · rw [spelling_of_ne other, String.ofList_toList]

/-- A nonempty run of letters is a word. -/
theorem standalone_word {word : String} (nonempty : word.toList ≠ [])
    (letters : ∀ c ∈ word.toList, isLetter c = true) :
    Standalone ⟨Kind.ofWord word, word⟩ := by
  have other : Kind.ofWord word ≠ .string := Kind.ofWord_ne (by decide)
  refine ⟨?_, text_spelling_of_ne other⟩
  rw [spelling_of_ne other]
  obtain ⟨first, tail, same⟩ := List.exists_cons_of_ne_nil nonempty
  rw [same] at letters
  have isFirst := letters first List.mem_cons_self
  refine ⟨first, tail, same, no_layout_of_holds isFirst (by decide), fun rest separated => ?_⟩
  rw [Lexeme.front_word letters (separated.stops (by decide)), ← same, String.ofList_toList]

/-- A nonempty run of digits is an integer. -/
theorem standalone_integer {digits : String} (nonempty : digits.toList ≠ [])
    (all : ∀ c ∈ digits.toList, isDigit c = true) : Standalone ⟨.integer, digits⟩ := by
  have other : Kind.integer ≠ .string := by decide
  refine ⟨?_, text_spelling_of_ne other⟩
  rw [spelling_of_ne other]
  obtain ⟨first, tail, same⟩ := List.exists_cons_of_ne_nil nonempty
  rw [same] at all
  have isFirst := all first List.mem_cons_self
  refine ⟨first, tail, same, no_layout_of_holds isFirst (by decide), fun rest separated => ?_⟩
  exact Lexeme.front_integer all (separated.stops (by decide))

/-- A text without a quote is a string between two. -/
theorem standalone_string {text : String} (noQuote : '"' ∉ text.toList) :
    Standalone ⟨.string, text⟩ := by
  have quoted : (spelling ⟨.string, text⟩).toList = '"' :: (text.toList ++ ['"']) := by
    simp [spelling]
  have inside := bne_of_noQuote noQuote
  refine ⟨⟨'"', text.toList ++ ['"'], quoted, by decide, fun rest _ => ?_⟩, fun line => ?_⟩
  · have isString : Lexeme.front '"' (text.toList ++ ['"'] ++ rest) =
        (.string, Lexeme.stringTail (text.toList ++ ['"'] ++ rest)) := rfl
    rw [isString, ← List.append_cons, stringTail_append noQuote]
  · rw [Lexeme.text, quoted, List.drop_succ_cons, List.drop_zero,
      List.takeWhile_append_of_pos inside]
    simp

end Terminal

/-- What is joined by blanks is a first word and something separated from it that is cut like the
other words. -/
theorem exists_separated (word : List Char) (words : List (List Char)) :
    ∃ rest, [' '].intercalate (word :: words) = word ++ rest ∧ Separated rest ∧
      ∀ line lexemes, Cuts line ([' '].intercalate words) lexemes → Cuts line rest lexemes := by
  cases words with
  | nil => exact ⟨[], by simp, trivial, fun _ _ cuts => cuts⟩
  | cons next words =>
    exact ⟨' ' :: [' '].intercalate (next :: words), by simp, rfl,
      fun _ _ cuts => .blank (by decide) cuts⟩

/-- Terminals that stand alone, joined by blanks, are cut into one lexeme each. -/
theorem exists_cuts_of_standalone {terminals : List Terminal}
    (standalone : ∀ terminal ∈ terminals, terminal.Standalone) (line : Nat) :
    ∃ lexemes,
      Cuts line ([' '].intercalate (terminals.map fun each => each.spelling.toList)) lexemes ∧
      lexemes.map (fun lexeme => lexeme.token.terminal) = terminals ++ [⟨.endOfInput, ""⟩] := by
  induction terminals generalizing line with
  | nil => exact ⟨_, .ends, rfl⟩
  | cons terminal terminals inductionHypothesis =>
    obtain ⟨⟨first, tail, spelled, ⟨notFeed, notBlank⟩, cut⟩, text⟩ :=
      standalone terminal List.mem_cons_self
    rw [spelled] at text
    obtain ⟨rest, joined, separated, cutsRest⟩ := exists_separated terminal.spelling.toList
      (terminals.map fun each => each.spelling.toList)
    obtain ⟨lexemes, cuts, same⟩ := inductionHypothesis
      (fun other member => standalone other (List.mem_cons_of_mem _ member))
      (Lexeme.lastLine ⟨terminal.kind, first :: tail, line⟩)
    refine ⟨⟨terminal.kind, first :: tail, line⟩ :: lexemes, ?_, ?_⟩
    · rw [List.map_cons, joined, spelled]
      exact .piece notFeed notBlank (cut rest separated) (cutsRest _ _ cuts)
    · rw [List.map_cons, same, List.cons_append, Lexeme.token, Token.terminal, text]

/-- A source of terminals joined by blanks yields these terminals. -/
theorem Token.terminals_ofSource {terminals : List Terminal}
    (standalone : ∀ terminal ∈ terminals, terminal.Standalone) :
    (Token.ofSource (String.intercalate " " (terminals.map Terminal.spelling))).map
      Token.terminal = terminals ++ [⟨.endOfInput, ""⟩] := by
  obtain ⟨lexemes, cuts, same⟩ := exists_cuts_of_standalone standalone 1
  have joined : (String.intercalate " " (terminals.map Terminal.spelling)).toList =
      [' '].intercalate (terminals.map fun each => each.spelling.toList) := by
    rw [String.toList_intercalate, List.map_map]
    rfl
  rw [← joined] at cuts
  rw [Token.ofSource, Lexeme.ofSource_eq_iff.mpr cuts, List.map_map]
  exact same

end MonkeyLang
