import MonkeyLang.Main
import MonkeyLang.Value.Equality
import MonkeyLang.Proofs.Grammar.Acceptance
import MonkeyLang.Proofs.Grammar.Spelling
import MonkeyLang.Proofs.Parser.Completeness
import MonkeyLang.Proofs.HashLookup
import MonkeyLang.Proofs.FinishedCalls
import MonkeyLang.Proofs.Evaluation.Comparison
import MonkeyLang.Proofs.Evaluation.Alignment
import MonkeyLang.Proofs.Evaluation.Depth
import MonkeyLang.Proofs.Evaluation.Rules
import MonkeyLang.Proofs.Evaluation.Termination
import MonkeyLang.Proofs.Evaluation.Limit
import MonkeyLang.Proofs.Evaluation.Renumbering
import MonkeyLang.Proofs.Evaluation.ProgramCall
import MonkeyLang.Proofs.Evaluation.Signals
import MonkeyLang.Proofs.Parser.Locality
import MonkeyLang.Proofs.Sessions
import MonkeyLang.Proofs.ScopeChains
import MonkeyLang.Proofs.PrintedValues
import MonkeyLang.Proofs.CanonicalText
import MonkeyLang.Proofs.Evaluation.Repetition
import MonkeyLang.Proofs.Tokenisation
import MonkeyLang.Proofs.Occurrences
import MonkeyLang.Proofs.ErrorFreedom
import MonkeyLang.Proofs.Dialogues
import MonkeyLang.Proofs.Layout
import MonkeyLang.Proofs.SourceOrder
import MonkeyLang.Proofs.Parser.Unbounded
import MonkeyLang.Proofs.Parser.Accounting
import MonkeyLang.Proofs.OpenBlocks
import MonkeyLang.Proofs.Parser.Stopping
import MonkeyLang.Proofs.Parser.Concatenation
import MonkeyLang.Proofs.Evaluation.Activities
import MonkeyLang.Proofs.CallDepth
import MonkeyLang.Proofs.InsertionOrder
import MonkeyLang.Proofs.ValueEquality
import MonkeyLang.Proofs.NearestBindings
import MonkeyLang.Proofs.IntegerArithmetic
import MonkeyLang.Proofs.TokenLines
import MonkeyLang.Proofs.Evaluation.Budget
import MonkeyLang.Proofs.HigherOrder
import MonkeyLang.Proofs.Factorial
import MonkeyLang.Proofs.Factorial
import MonkeyLang.Proofs.Parser.Reaching
import MonkeyLang.Proofs.Parser.Reaching
import MonkeyLang.Proofs.IntegerLiterals
import MonkeyLang.Proofs.IntegerLiterals
