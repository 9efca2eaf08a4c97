-- SUMMARY: The whole way from a source text to its symbol table.
import Slate.Check
import Slate.Syntax.Parser
import Slate.Token.Lexer

/-!
# Analysis of a source text

A source text is cut into tokens, the tokens are read as a program, and the
program is checked. The first stage that finds an error ends the analysis.
-/

namespace Slate

/-- The stages of an analysis. -/
inductive Stage where
  | lexing
  | parsing
  | checking
deriving DecidableEq, Repr

/-- An error and the stage that found it. -/
structure StageError where
  stage : Stage
  diagnostic : Diagnostic
deriving DecidableEq, Repr

/-- The program that a source text spells. -/
def readSource (source : String) : Except StageError Program := do
  let tokens ← (tokenize source).mapError (StageError.mk .lexing)
  (parse tokens).mapError (StageError.mk .parsing)

/-- The symbol table of a source text. -/
def analyzeSource (source : String) : Except StageError Table := do
  let program ← readSource source
  program.analyze.mapError (StageError.mk .checking)

end Slate
