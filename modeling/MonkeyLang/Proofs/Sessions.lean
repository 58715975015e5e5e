/-
This file proves that running sources one after another is running one long
program. Sources that end with a semicolon and close their braces can be joined
by line feeds: no lexeme, statement or block goes on from one to the next. And
as long as nothing but the end of a source ends its run, the next one starts in
the state in which the long program goes on.

A source that does not read cleanly is not run, so it makes no difference to the
others.
-/

import MonkeyLang.Proofs.Evaluation.Depth
import MonkeyLang.Proofs.Parser.Locality
import MonkeyLang.Proofs.Scanning
import MonkeyLang.Session

namespace MonkeyLang

open Machine

/-! ### Sources that can be joined -/

/-- The kinds of the tokens of a source in front of the end of input. -/
def kindsOf (source : String) : List Kind :=
  ((Token.ofSource source).map Token.kind).dropLast

/-- A source that is done where it ends: it reads cleanly, has as many opening as closing braces,
and its last token is a semicolon. -/
structure SelfContained (source : String) : Prop where
  clean : (Parsed.ofSource source).diagnostics = []
  balanced : (kindsOf source).count .openBrace = (kindsOf source).count .closeBrace
  semicolon : (kindsOf source).getLast? = some .semicolon

theorem SelfContained.terminals {source : String} (selfContained : SelfContained source) :
    ∃ terminals last, (Token.ofSource source).map Token.terminal = terminals ++ [last] ∧
      last.kind = .endOfInput ∧ Terminated terminals := by
  obtain ⟨tokens, last, same, isLast, more⟩ := Token.ofSource_eq source
  have kinds : (tokens.map Token.terminal).map Terminal.kind = kindsOf source := by
    rw [kindsOf, same, List.map_append, List.map_map, List.map_singleton, List.dropLast_concat]
    rfl
  have more' : ∀ terminal ∈ tokens.map Token.terminal, terminal.kind ≠ .endOfInput := by
    intro terminal member
    obtain ⟨token, isToken, rfl⟩ := List.mem_map.mp member
    exact (more token isToken).1
  refine ⟨tokens.map Token.terminal, last.terminal, by rw [same]; simp, isLast, more', ?_, ?_⟩
  · rw [weight_eq_count more', kinds, selfContained.balanced, Int.sub_self]
  · have isSemicolon := selfContained.semicolon
    rw [← kinds, List.getLast?_map] at isSemicolon
    exact Option.map_eq_some_iff.mp isSemicolon

/-! ### Reading what is joined -/

/-- The statements of a source. -/
def statementsOf (source : String) : List Statement :=
  (Parsed.ofSource source).program.statements

theorem Parsed.ofSource_of_clean {source : String}
    (clean : (Parsed.ofSource source).diagnostics = []) :
    Parsed.ofSource source = ⟨⟨statementsOf source⟩, []⟩ := by
  rw [← clean]
  rfl

/-- A source that reads cleanly is read by the relation. -/
theorem exists_reads_of_clean {source : String}
    (clean : (Parsed.ofSource source).diagnostics = []) :
    ∃ rest, Reads (.statements endsProgram (statementsOf source))
      ((Token.ofSource source).map Token.terminal) rest :=
  (ofTokens_eq_iff _ _).mp (Parsed.ofSource_of_clean clean)

namespace SelfContained

variable {source : String} (selfContained : SelfContained source)

include selfContained

/-- Something is in a source that ends with a semicolon. -/
theorem statements_ne_nil : statementsOf source ≠ [] := by
  intro none
  obtain ⟨terminals, last, same, -, terminated⟩ := selfContained.terminals
  obtain ⟨rest, reads⟩ := exists_reads_of_clean selfContained.clean
  rw [none, same] at reads
  obtain ⟨first, others, rfl⟩ := List.exists_cons_of_ne_nil terminated.ne_nil
  cases reads with
  | noStatements stop =>
    exact terminated.more first List.mem_cons_self (by simpa [endsProgram] using stop)

/-- Behind a self-contained source any other is read as by itself. -/
theorem ofSource_append {second : String} (clean : (Parsed.ofSource second).diagnostics = []) :
    Parsed.ofSource (source ++ "\n" ++ second) =
      ⟨⟨statementsOf source ++ statementsOf second⟩, []⟩ := by
  obtain ⟨terminals, last, same, isLast, terminated⟩ := selfContained.terminals
  obtain ⟨rest, reads⟩ := exists_reads_of_clean selfContained.clean
  obtain ⟨behind, follows⟩ := exists_reads_of_clean clean
  rw [same] at reads
  obtain rfl := reads.rest_eq isLast terminated.more terminated.balanced
  refine (ofTokens_eq_iff _ _).mpr ⟨behind, ?_⟩
  rw [Token.terminals_append_lineFeed same terminated.ne_string]
  have inTurn := reads.inTurn (List.cons_ne_nil _ _) fun _ => terminated.not_closed
  exact (inTurn _).andThen follows

end SelfContained

/-! ### Running what is joined -/

/-- Statements behind others go on with their value, in their state. -/
theorem evaluateStatements_append (apply : Application) (frame : Nat)
    (first second : List Statement) (last : Value) :
    evaluateStatements apply frame (first ++ second) last =
      evaluateStatements apply frame first last >>=
        fun value => evaluateStatements apply frame second value := by
  induction first generalizing last with
  | nil => exact (pure_bind last _).symm
  | cons statement first inductionHypothesis =>
    show (statement.evaluate apply frame >>= fun value =>
        evaluateStatements apply frame (first ++ second) value) =
      (statement.evaluate apply frame >>= fun value =>
        evaluateStatements apply frame first value) >>= _
    rw [bind_assoc]
    exact congrArg _ (funext inductionHypothesis)

/-- If there is a statement, the value before it makes no difference. -/
theorem evaluateStatements_congr {statements : List Statement} (some : statements ≠ [])
    (apply : Application) (frame : Nat) (last last' : Value) :
    evaluateStatements apply frame statements last =
      evaluateStatements apply frame statements last' := by
  cases statements with
  | nil => exact absurd rfl some
  | cons => rfl

/-- A source that reads cleanly runs to its end, with neither a failure nor a `return` outside any
function. -/
def Completes (limit frame : Nat) (source : String) (machine : Machine) : Prop :=
  ∃ value, (Parsed.ofSource source).program.outcome limit frame machine = .ok value

section Runs

variable {limit frame : Nat} {machine : Machine}

theorem runSource_of_clean {source : String}
    (clean : (Parsed.ofSource source).diagnostics = []) :
    StateT.run (runSource limit frame source) machine =
      let run := (evaluateStatements (applyAtDepth limit) frame (statementsOf source) .null).on
        { machine with depth := 0 }
      (.ok (endProgram run.1), run.2) := by
  rw [runSource, clean]
  rfl

theorem runSource_eq_execute {source : String}
    (clean : (Parsed.ofSource source).diagnostics = []) :
    StateT.run (runSource limit frame source) machine =
      let run := StateT.run ((Parsed.ofSource source).program.execute limit frame) machine
      (.ok run.1, run.2) :=
  runSource_of_clean clean

/-- A source that does not read cleanly changes nothing. -/
theorem runSource_of_diagnostics {source : String}
    (broken : (Parsed.ofSource source).diagnostics ≠ []) :
    StateT.run (runSource limit frame source) machine =
      (.error (Parsed.ofSource source).diagnostics, machine) := by
  rw [runSource, if_neg (by simpa using broken)]
  rfl

/-- Running a source and then another is running the two joined, if the first is self-contained and
completes. -/
theorem SelfContained.runSource_append {source second : String}
    (selfContained : SelfContained source) (completes : Completes limit frame source machine)
    (clean : (Parsed.ofSource second).diagnostics = []) (some : statementsOf second ≠ []) :
    StateT.run (runSource limit frame (source ++ "\n" ++ second)) machine =
      StateT.run (runSource limit frame second)
        (StateT.run (runSource limit frame source) machine).2 := by
  obtain ⟨value, completes⟩ : ∃ value, ((evaluateStatements (applyAtDepth limit) frame
    (statementsOf source) .null).on { machine with depth := 0 }).1 = .ok value := completes
  have parsed := selfContained.ofSource_append clean
  have statements : statementsOf (source ++ "\n" ++ second) =
      statementsOf source ++ statementsOf second :=
    congrArg (fun parsed : Parsed => parsed.program.statements) parsed
  have continues := continues_evaluateStatements limit frame { machine with depth := 0 }
    (statementsOf source) .null
  rw [runSource_of_clean (congrArg Parsed.diagnostics parsed), runSource_of_clean clean,
    runSource_of_clean selfContained.clean, statements, evaluateStatements_append]
  dsimp only
  rw [on_bind]
  generalize (evaluateStatements _ _ (statementsOf source) _).on _ = run at completes continues ⊢
  obtain ⟨outcome, ⟨scopes, functions, depth, output⟩⟩ := run
  obtain rfl : outcome = .ok value := completes
  obtain rfl : depth = 0 := continues.depth
  rw [evaluateStatements_congr some _ _ .null value]

end Runs

/-! ### Sessions -/

/-- Runs sources one after another, and yields what each results in. -/
def runInTurn (limit frame : Nat) (sources : List String) :
    Step (List (Except (List Diagnostic) Value)) :=
  sources.mapM (runSource limit frame)

/-- Each source completes in the state that the ones before it leave. -/
def AllComplete (limit frame : Nat) : List String → Machine → Prop
  | [], _ => True
  | source :: rest, machine => Completes limit frame source machine ∧
      AllComplete limit frame rest (StateT.run (runSource limit frame source) machine).2

section Sessions

variable {limit frame : Nat}

theorem runInTurn_cons (source : String) (rest : List String) (machine : Machine) :
    StateT.run (runInTurn limit frame (source :: rest)) machine =
      let first := StateT.run (runSource limit frame source) machine
      let others := StateT.run (runInTurn limit frame rest) first.2
      (first.1 :: others.1, others.2) := by
  rw [runInTurn, List.mapM_cons]
  rfl

/-- A source that does not read cleanly makes no difference to those behind it. -/
theorem runInTurn_insert {broken : String} (isBroken : (Parsed.ofSource broken).diagnostics ≠ [])
    (before behind : List String) (machine : Machine) :
    StateT.run (runInTurn limit frame (before ++ broken :: behind)) machine =
      let run := StateT.run (runInTurn limit frame (before ++ behind)) machine
      (run.1.insertIdx before.length (.error (Parsed.ofSource broken).diagnostics), run.2) := by
  induction before generalizing machine with
  | nil =>
    rw [List.nil_append, runInTurn_cons, runSource_of_diagnostics isBroken]
    rfl
  | cons source before inductionHypothesis =>
    rw [List.cons_append, List.cons_append, runInTurn_cons, runInTurn_cons]
    dsimp only
    rw [inductionHypothesis]
    rfl

theorem intercalate_cons_concat (separator source : String) (sources : List String)
    (last : String) :
    String.intercalate separator (source :: sources ++ [last]) =
      source ++ separator ++ String.intercalate separator (sources ++ [last]) := by
  cases sources <;> exact String.intercalate_cons_cons ..

/-- Self-contained sources that are joined by line feeds read cleanly, and not as nothing. -/
theorem clean_intercalate {sources : List String} {last : String}
    (selfContained : ∀ source ∈ sources ++ [last], SelfContained source) :
    (Parsed.ofSource (String.intercalate "\n" (sources ++ [last]))).diagnostics = [] ∧
      statementsOf (String.intercalate "\n" (sources ++ [last])) ≠ [] := by
  induction sources with
  | nil =>
    have ends := selfContained last (List.mem_append_right _ List.mem_cons_self)
    rw [List.nil_append, String.intercalate_singleton]
    exact ⟨ends.clean, ends.statements_ne_nil⟩
  | cons source sources inductionHypothesis =>
    have first := selfContained source List.mem_cons_self
    obtain ⟨clean, some⟩ :=
      inductionHypothesis fun other member => selfContained other (List.mem_cons_of_mem _ member)
    have parsed := first.ofSource_append clean
    rw [intercalate_cons_concat, statementsOf, parsed]
    exact ⟨rfl, List.append_ne_nil_of_right_ne_nil _ some⟩

/-- Running self-contained sources that all but the last complete, one after another, is running
them joined by line feeds. -/
theorem runSource_intercalate {sources : List String} {last : String}
    (selfContained : ∀ source ∈ sources ++ [last], SelfContained source) {machine : Machine}
    (complete : AllComplete limit frame sources machine) :
    StateT.run (runSource limit frame (String.intercalate "\n" (sources ++ [last]))) machine =
      StateT.run (runSource limit frame last)
        (StateT.run (runInTurn limit frame sources) machine).2 := by
  induction sources generalizing machine with
  | nil =>
    rw [List.nil_append, String.intercalate_singleton]
    rfl
  | cons source sources inductionHypothesis =>
    obtain ⟨completes, complete⟩ := complete
    have selfContained' : ∀ other ∈ sources ++ [last], SelfContained other :=
      fun other member => selfContained other (List.mem_cons_of_mem _ member)
    obtain ⟨clean, some⟩ := clean_intercalate selfContained'
    have first := selfContained source List.mem_cons_self
    rw [intercalate_cons_concat, first.runSource_append completes clean some,
      inductionHypothesis selfContained' complete, runInTurn_cons]

/-- A session behaves like one long program: sources that end where they seem to and run to their
end give, one after another, what they give at once, the same result and the same state. A source
that does not read cleanly has its diagnostics for a result wherever it stands, and makes no other
difference. -/
theorem session_agrees_with_program {sources : List String} {last : String} {machine : Machine}
    (selfContained : ∀ source ∈ sources ++ [last], SelfContained source)
    (complete : AllComplete limit frame sources machine) :
    StateT.run (runSource limit frame (String.intercalate "\n" (sources ++ [last]))) machine =
        StateT.run (runSource limit frame last)
          (StateT.run (runInTurn limit frame sources) machine).2 ∧
      ∀ (before behind : List String) (broken : String),
        (Parsed.ofSource broken).diagnostics ≠ [] →
        StateT.run (runInTurn limit frame (before ++ broken :: behind)) machine =
          let run := StateT.run (runInTurn limit frame (before ++ behind)) machine
          (run.1.insertIdx before.length (.error (Parsed.ofSource broken).diagnostics), run.2) :=
  ⟨runSource_intercalate selfContained complete,
    fun before behind _ isBroken => runInTurn_insert isBroken before behind machine⟩

end Sessions

theorem session_agrees_with_program_lines :
    let sources := ["let a = 1;", "puts(a);"]
    let joined := StateT.run (runSource 1 rootFrame
      (String.intercalate "\n" (sources ++ ["a + 1;"]))) .initial
    (∀ source ∈ sources ++ ["a + 1;"], SelfContained source) ∧
      AllComplete 1 rootFrame sources .initial ∧ (Parsed.ofSource "let").diagnostics ≠ [] ∧
      joined = StateT.run (runSource 1 rootFrame "a + 1;")
        (StateT.run (runInTurn 1 rootFrame sources) .initial).2 ∧
      (joined.1, joined.2.output) = (.ok (.integer 2), "1\n") ∧
      StateT.run (runInTurn 1 rootFrame ["let a = 1;", "let", "puts(a);"]) .initial =
        let run := StateT.run (runInTurn 1 rootFrame sources) .initial
        (run.1.insertIdx 1 (.error (Parsed.ofSource "let").diagnostics), run.2) := by
  intro sources joined
  have selfContained : ∀ source ∈ sources ++ ["a + 1;"], SelfContained source := by
    intro source member
    obtain rfl | rfl | rfl : source = "let a = 1;" ∨ source = "puts(a);" ∨ source = "a + 1;" := by
      simpa [sources] using member
    all_goals constructor <;> decide +kernel
  have complete : AllComplete 1 rootFrame sources .initial :=
    ⟨⟨.null, by with_unfolding_all rfl⟩, ⟨.null, by with_unfolding_all rfl⟩, trivial⟩
  have broken : (Parsed.ofSource "let").diagnostics ≠ [] := by decide +kernel
  obtain ⟨agrees, inserted⟩ := session_agrees_with_program selfContained complete
  have result : (joined.1, joined.2.output) = (.ok (.integer 2), "1\n") := by
    rw [show joined = _ from agrees]
    with_unfolding_all rfl
  exact ⟨selfContained, complete, broken, agrees, result,
    inserted ["let a = 1;"] ["puts(a);"] "let" broken⟩

end MonkeyLang
