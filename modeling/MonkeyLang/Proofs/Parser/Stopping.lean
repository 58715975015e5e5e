/-
This file proves that it makes no difference whether a stream of tokens ends
with an end of input, or with several of them, or simply stops. A parser that
goes on past its tokens finds an end of input there as often as it looks, on the
line of the last token. It goes on wherever something is cut off: a block is
left as if it were closed, and an operand, a list or a call is given up at a
token that is not there.

So a parser with ends of input ahead runs beside one that only imagines them.
What the two have ahead differs in as many tokens as the first has not read yet,
which are never looked at for more than their kind and their line.
-/

import MonkeyLang.Proofs.Parser.Unbounded

namespace MonkeyLang

open MonkeyLang.Parser

/-! ### Ends of input that are only imagined -/

/-- An end of input on the line on which a parser finds it behind the last token. -/
def Cursor.endOfInput (cursor : Cursor) (text : String) : Token :=
  ⟨.endOfInput, text, cursor.lastLine⟩

/-- Two cursors that differ in ends of input: some that are ahead of the second are only imagined by
the first. -/
structure Cursor.Padded (cursor cursor' : Cursor) : Prop where
  rest : ∃ texts : List String, cursor'.rest = cursor.rest ++ texts.map cursor.endOfInput
  lastLine : cursor'.lastLine = cursor.lastLine
  diagnostics : cursor'.diagnostics = cursor.diagnostics

namespace Cursor.Padded

variable {cursor cursor' : Cursor}

/-- The next token is the same, or both are in front of an end of input, which may have any
text. -/
theorem next_eq_or (padded : cursor.Padded cursor') :
    cursor'.next = cursor.next ∨
      cursor.next = cursor.endOfInput "" ∧ ∃ text, cursor'.next = cursor.endOfInput text := by
  obtain ⟨texts, rest⟩ := padded.rest
  unfold next
  rw [rest, padded.lastLine]
  cases cursor.rest with
  | cons => exact .inl rfl
  | nil =>
    cases texts with
    | nil => exact .inl rfl
    | cons text => exact .inr ⟨rfl, text, rfl⟩

theorem kind_next (padded : cursor.Padded cursor') : cursor'.next.kind = cursor.next.kind := by
  obtain same | ⟨isEnd, text, isEnd'⟩ := padded.next_eq_or
  · rw [same]
  · rw [isEnd, isEnd', endOfInput, endOfInput]

theorem line_next (padded : cursor.Padded cursor') : cursor'.next.line = cursor.next.line := by
  obtain same | ⟨isEnd, text, isEnd'⟩ := padded.next_eq_or
  · rw [same]
  · rw [isEnd, isEnd', endOfInput, endOfInput]

theorem text_next (padded : cursor.Padded cursor') (more : cursor.next.kind ≠ .endOfInput) :
    cursor'.next.text = cursor.next.text := by
  obtain same | ⟨isEnd, -⟩ := padded.next_eq_or
  · rw [same]
  · exact absurd (congrArg Token.kind isEnd) more

theorem advance (padded : cursor.Padded cursor') : cursor.advance.Padded cursor'.advance := by
  refine ⟨?_, padded.lastLine, padded.diagnostics⟩
  obtain ⟨texts, rest⟩ := padded.rest
  show ∃ texts : List String, cursor'.rest.tail = cursor.rest.tail ++ texts.map cursor.endOfInput
  rw [rest]
  cases cursor.rest with
  | cons => exact ⟨texts, rfl⟩
  | nil => exact ⟨texts.tail, List.map_tail.symm⟩

theorem record (padded : cursor.Padded cursor') (diagnostic : Diagnostic) :
    (cursor.record diagnostic).Padded (cursor'.record diagnostic) :=
  ⟨padded.rest, padded.lastLine, congrArg (·.push diagnostic) padded.diagnostics⟩

end Cursor.Padded

theorem lockstep_padded : Lockstep Cursor.Padded where
  kind padded := padded.kind_next
  text padded more := padded.text_next more
  advance padded := padded.advance
  missed padded points points' same := by
    have sameLine := points.line_eq.trans (padded.line_next.symm.trans points'.line_eq.symm)
    rw [← same.eq sameLine]
    exact padded.record _
  refused padded points points' same := by
    have sameLine := points.line_eq.trans (padded.line_next.symm.trans points'.line_eq.symm)
    rw [← same.eq sameLine]
    exact padded.advance.record _

/-! ### Streams that simply stop -/

/-- Ends of input on the line of the last token leave the line of those imagined behind it as it
is. -/
theorem Cursor.padded_ofTokens (tokens : List Token) (texts : List String) :
    (ofTokens tokens).Padded (ofTokens (tokens ++ texts.map (ofTokens tokens).endOfInput)) := by
  refine ⟨⟨texts, rfl⟩, ?_, rfl⟩
  obtain rfl | ⟨texts, last, rfl⟩ := texts.eq_nil_or_concat
  · rw [List.map_nil, List.append_nil]
  · rw [List.concat_eq_append, List.map_append, ← List.append_assoc, List.map_singleton]
    simp only [ofTokens, List.getLast?_concat, Option.map_some, Option.getD_some, endOfInput]

theorem Cursor.Padded.ofTokens_eq {tokens tokens' : List Token}
    (start : (ofTokens tokens).Padded (ofTokens tokens')) :
    Parsed.ofTokens tokens' = Parsed.ofTokens tokens := by
  obtain ⟨program, padded⟩ := lockstep_padded.readings start
  rw [Parsed.ofTokens_eq, Parsed.ofTokens_eq, program, padded.diagnostics]

/-- A stream that simply stops is read like one that ends. As many ends of input as one likes behind
its tokens, on the line of the last one, or on line one if there is none, change neither the program
nor the diagnostics, whatever is still open there. -/
theorem stopping_is_ending (tokens : List Token) (texts : List String) :
    let line := (tokens.getLast?.map Token.line).getD 1
    Parsed.ofTokens (tokens ++ texts.map fun text => ⟨.endOfInput, text, line⟩) =
      Parsed.ofTokens tokens :=
  (Cursor.padded_ofTokens tokens texts).ofTokens_eq

-- Both blocks are left as if they were closed, and the statement in the inner one is given up.
example : Parsed.ofTokens (Token.ofSource "fn() \x7b\nif (a) \x7b [b, c(\x7b1:").dropLast =
    ⟨⟨[.expression (.function [] [.expression (.conditional (.identifier "a") [] none)])]⟩,
      [.noOperand .endOfInput 2]⟩ := by
  with_unfolding_all rfl

end MonkeyLang
