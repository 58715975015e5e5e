/-
This file proves that tokens know the lines they are on. A scanner goes through
a source lexeme by lexeme. It counts the line feeds between lexemes as it passes
them, and those inside a string all at once when the string is behind it; no
other lexeme can hold one.

What one step keeps is that the line of the scanner is one more than the number
of line feeds that it has passed. So a lexeme, which is given the line at which
it was reached, starts on the line it says, and behind it the scanner is on the
line on which it ends.
-/

import MonkeyLang.Proofs.Scanning

namespace MonkeyLang

open Text

/-! ### Scanning step by step -/

/-- A scanner on its way through a source. -/
structure Scanner where
  /-- The line it is on. -/
  line : Nat
  /-- The text in front of it. -/
  rest : List Char
  /-- Whether it has yielded the end of input. -/
  finished : Bool
deriving DecidableEq, Repr

namespace Scanner

/-- A scanner in front of a source. -/
def start (source : String) : Scanner :=
  ⟨1, source.toList, false⟩

/-- The lexeme behind the layout at the front of a text, which starts on a line, and the scanner
behind the lexeme. Only strings are searched for line feeds. -/
def nextOn (line : Nat) : List Char → Lexeme × Scanner
  | [] => (⟨.endOfInput, [], line⟩, ⟨line, [], true⟩)
  | first :: rest =>
    if first == '\n' then
      nextOn (line + 1) rest
    else if isBlank first then
      nextOn line rest
    else
      let (kind, tail) := Lexeme.front first rest
      let behind := if kind = .string then line + (first :: tail).count '\n' else line
      (⟨kind, first :: tail, line⟩, ⟨behind, rest.drop tail.length, false⟩)

/-- The next lexeme and the scanner behind it. Behind the end of input there is nothing. -/
def next? (scanner : Scanner) : Option (Lexeme × Scanner) :=
  if scanner.finished then none else some (nextOn scanner.line scanner.rest)

/-- A scanner yields lexemes one after another on its way to another. -/
inductive Yields : Scanner → List Lexeme → Scanner → Prop
  | nothing {scanner : Scanner} : Yields scanner [] scanner
  | next {scanner behind last : Scanner} {lexeme : Lexeme} {lexemes : List Lexeme} :
      scanner.next? = some (lexeme, behind) → Yields behind lexemes last →
      Yields scanner (lexeme :: lexemes) last

end Scanner

/-! ### One step -/

/-- A piece that starts with no line feed and is no string holds none. -/
theorem Lexeme.Cut.count_lineFeed {kind : Kind} {raw rest : List Char} (cut : Cut kind raw rest)
    (other : kind ≠ .string) (notFeed : ∀ c ∈ raw.head?, c ≠ '\n') : raw.count '\n' = 0 := by
  refine List.count_eq_zero.mpr fun member => ?_
  cases cut with
  | word _ letters _ => exact absurd (letters _ member) (by decide)
  | integer _ digits _ => exact absurd (digits _ member) (by decide)
  | closedString | openString => exact other rfl
  | equal | notEqual => exact absurd member (by decide)
  | single => exact notFeed _ rfl (List.mem_singleton.mp member).symm

namespace Scanner

/-- What is in front of a scanner is cut into lexemes, or there is nothing left to yield. -/
def Ahead (scanner : Scanner) (lexemes : List Lexeme) : Prop :=
  scanner.finished = false ∧ Cuts scanner.line scanner.rest lexemes ∨
    scanner.finished = true ∧ lexemes = []

/-- A step from a text to behind its first lexeme, with the layout in front of the lexeme. -/
structure Step (line : Nat) (source gap : List Char) (lexeme : Lexeme) (behind : Scanner) :
    Prop where
  next : nextOn line source = (lexeme, behind)
  split : source = gap ++ (lexeme.raw ++ behind.rest)
  starts : lexeme.line = line + gap.count '\n'
  ends : behind.line = line + (gap ++ lexeme.raw).count '\n'
  last : lexeme.kind = .endOfInput → gap = source

/-- One more line feed in front. -/
theorem Step.lineFeed {line : Nat} {source gap : List Char} {lexeme : Lexeme} {behind : Scanner}
    (step : Step (line + 1) source gap lexeme behind) :
    Step line ('\n' :: source) ('\n' :: gap) lexeme behind := by
  obtain ⟨next, split, starts, ends, last⟩ := step
  refine ⟨next, congrArg _ split, ?_, ?_, fun isEnd => congrArg _ (last isEnd)⟩
  · rw [starts, List.count_cons_self]
    omega
  · rw [ends, List.cons_append, List.count_cons_self]
    omega

/-- One more blank in front. -/
theorem Step.blank {line : Nat} {source gap : List Char} {lexeme : Lexeme} {behind : Scanner}
    {c : Char} (step : Step line source gap lexeme behind) (blank : isBlank c = true) :
    Step line (c :: source) (c :: gap) lexeme behind := by
  have notFeed : c ≠ '\n' := by
    rintro rfl
    exact absurd blank (by decide)
  obtain ⟨next, split, starts, ends, last⟩ := step
  refine ⟨?_, congrArg _ split, ?_, ?_, fun isEnd => congrArg _ (last isEnd)⟩
  · rw [nextOn, if_neg (by simpa using notFeed), if_pos blank, next]
  · rw [starts, List.count_cons_of_ne notFeed]
  · rw [ends, List.cons_append, List.count_cons_of_ne notFeed]

/-- One step yields the first lexeme and leaves the others ahead. -/
theorem exists_step {line : Nat} {source : List Char} {lexemes : List Lexeme}
    (cuts : Cuts line source lexemes) : ∃ gap lexeme others behind, lexemes = lexeme :: others ∧
      Step line source gap lexeme behind ∧ behind.Ahead others := by
  induction cuts with
  | @ends line =>
    exact ⟨[], _, [], ⟨line, [], true⟩, rfl, ⟨rfl, rfl, rfl, rfl, fun _ => rfl⟩, .inr ⟨rfl, rfl⟩⟩
  | lineFeed _ inductionHypothesis =>
    obtain ⟨gap, lexeme, others, behind, rfl, step, ahead⟩ := inductionHypothesis
    exact ⟨_, _, _, _, rfl, step.lineFeed, ahead⟩
  | blank blank _ inductionHypothesis =>
    obtain ⟨gap, lexeme, others, behind, rfl, step, ahead⟩ := inductionHypothesis
    exact ⟨_, _, _, _, rfl, step.blank blank, ahead⟩
  | @piece line first tail rest kind lexemes notFeed notBlank cut cuts _ =>
    have piece := Lexeme.front_eq_iff.mp cut
    have line_eq : (if kind = .string then line + (first :: tail).count '\n' else line) =
        Lexeme.lastLine ⟨kind, first :: tail, line⟩ := by
      split
      · rfl
      · next other =>
        have none := piece.count_lineFeed other fun c isFirst => Option.some.inj isFirst ▸ notFeed
        exact (congrArg (line + ·) none).symm
    refine ⟨[], _, lexemes, ⟨Lexeme.lastLine ⟨kind, first :: tail, line⟩, rest, false⟩, rfl,
      ⟨?_, rfl, rfl, rfl, fun isEnd => absurd isEnd piece.ne_endOfInput⟩, .inl ⟨rfl, cuts⟩⟩
    rw [nextOn, if_neg (by simpa using notFeed), if_neg (by simp [notBlank]), cut]
    dsimp only
    rw [line_eq, List.drop_left]

/-- A scanner yields something by a step. -/
theorem exists_step_of_next? {scanner behind : Scanner} {lexeme : Lexeme}
    (next : scanner.next? = some (lexeme, behind)) :
    ∃ gap, Step scanner.line scanner.rest gap lexeme behind := by
  unfold next? at next
  split at next
  · contradiction
  obtain ⟨_, cuts⟩ := exists_cuts scanner.line scanner.rest
  obtain ⟨gap, first, _, passed, _, step, _⟩ := exists_step cuts
  rw [step.next] at next
  obtain ⟨rfl, rfl⟩ := Prod.mk.inj (Option.some.inj next)
  exact ⟨gap, step⟩

/-! ### Whole sources -/

/-- A scanner yields what is ahead of it, and then nothing more. -/
theorem Ahead.yields {scanner : Scanner} {lexemes : List Lexeme} (ahead : scanner.Ahead lexemes) :
    ∃ last, scanner.Yields lexemes last ∧ last.next? = none := by
  induction lexemes generalizing scanner with
  | nil =>
    obtain ⟨_, cuts⟩ | ⟨finished, _⟩ := ahead
    · obtain ⟨_, _, _, _, same, _⟩ := exists_step cuts
      contradiction
    · exact ⟨scanner, .nothing, by rw [next?, if_pos finished]⟩
  | cons lexeme lexemes inductionHypothesis =>
    obtain ⟨unfinished, cuts⟩ | ⟨_, none⟩ := ahead
    · obtain ⟨gap, first, others, behind, same, step, ahead⟩ := exists_step cuts
      obtain ⟨rfl, rfl⟩ := List.cons.inj same
      obtain ⟨last, yields, done⟩ := inductionHypothesis ahead
      refine ⟨last, .next ?_ yields, done⟩
      rw [next?, unfinished, step.next]
      rfl
    · contradiction

/-- A scanner has passed the front of a source and counted its line feeds. -/
structure Passed (source : String) (before : List Char) (scanner : Scanner) : Prop where
  split : source.toList = before ++ scanner.rest
  line : scanner.line = 1 + before.count '\n'

theorem passed_start (source : String) : Passed source [] (start source) :=
  ⟨rfl, rfl⟩

/-- A step passes the layout in front of a lexeme and the lexeme. -/
theorem Passed.step {source : String} {before gap : List Char} {scanner behind : Scanner}
    {lexeme : Lexeme} (passed : Passed source before scanner)
    (step : Step scanner.line scanner.rest gap lexeme behind) :
    Passed source (before ++ gap ++ lexeme.raw) behind where
  split := by
    rw [passed.split, step.split]
    simp only [List.append_assoc]
  line := by
    rw [step.ends, passed.line, Nat.add_assoc, ← List.count_append, List.append_assoc]

/-- However many lexemes a scanner has yielded, it has passed some front of the source. -/
theorem Passed.yields {source : String} {before : List Char} {scanner last : Scanner}
    {lexemes : List Lexeme} (passed : Passed source before scanner)
    (yields : scanner.Yields lexemes last) : ∃ before', Passed source before' last := by
  induction yields generalizing before with
  | nothing => exact ⟨before, passed⟩
  | next next _ inductionHypothesis =>
    obtain ⟨_, step⟩ := exists_step_of_next? next
    exact inductionHypothesis (passed.step step)

/-- A scanner yields the lexemes of its source. Each token is on the line after the line feeds in
front of it, and behind the token the scanner is on the line after the line feeds up to the end of
the token. The end of input comes behind all of the source. -/
theorem lines_count_line_feeds (source : String) :
    (∃ last, (start source).Yields (Lexeme.ofSource source) last ∧ last.next? = none) ∧
      ∀ front here lexeme there, (start source).Yields front here →
        here.next? = some (lexeme, there) →
        ∃ before, source.toList = before ++ (lexeme.raw ++ there.rest) ∧
          lexeme.token.line = 1 + before.count '\n' ∧
          there.line = 1 + (before ++ lexeme.raw).count '\n' ∧
          (lexeme.kind = .endOfInput → before = source.toList) := by
  refine ⟨Ahead.yields (.inl ⟨rfl, Lexeme.ofSource_eq_iff.mp rfl⟩), ?_⟩
  intro front here lexeme there yields next
  obtain ⟨before, passed⟩ := (passed_start source).yields yields
  obtain ⟨gap, step⟩ := exists_step_of_next? next
  have behind := passed.step step
  refine ⟨before ++ gap, ?_, ?_, behind.line, fun isEnd => ?_⟩
  · rw [behind.split, List.append_assoc]
  · rw [Lexeme.token, step.starts, passed.line, List.count_append, Nat.add_assoc]
  · rw [step.last isEnd, passed.split]

/-- A string over three lines, behind a carriage return, a form feed and a character that starts
no piece. -/
theorem lines_count_line_feeds_string : ∃ here there before,
    (start "?\r\n\x0c\"a\n\nb\";").Yields [⟨.illegal, ['?'], 1⟩] here ∧
      here.next? = some (⟨.string, "\"a\n\nb\"".toList, 2⟩, there) ∧
      "?\r\n\x0c\"a\n\nb\";".toList = before ++ ("\"a\n\nb\"".toList ++ there.rest) ∧
      2 = 1 + before.count '\n' ∧
      there.line = 1 + (before ++ "\"a\n\nb\"".toList).count '\n' := by
  have yields : (start "?\r\n\x0c\"a\n\nb\";").Yields [⟨.illegal, ['?'], 1⟩]
      ⟨1, "\r\n\x0c\"a\n\nb\";".toList, false⟩ := .next (by decide) .nothing
  have next : next? ⟨1, "\r\n\x0c\"a\n\nb\";".toList, false⟩ =
      some (⟨.string, "\"a\n\nb\"".toList, 2⟩, ⟨4, [';'], false⟩) := by decide
  obtain ⟨before, split, starts, ends, _⟩ :=
    (lines_count_line_feeds _).2 _ _ _ _ yields next
  exact ⟨_, _, before, yields, next, split, starts, ends⟩

end Scanner

end MonkeyLang
