import Stencil.Scanner.Progress
import Stencil.Source.Load

/-! Whole runs of a scanner, and the feed that hands out one lexeme at a time.

A run yields lexemes until the scanner is done or a step fails.  The lexemes of a
step that fails are not yielded, and nothing follows a fault. -/

namespace Stencil

namespace Scanner

/-- The lexemes that a scanner yields, and the fault that ends the run, if any. -/
def run (scanner : Scanner) : List Lexeme × Option Fault :=
  if scanner.mode = .done then ([], none)
  else
    match _stepped : scanner.step with
    | .error fault => ([], some fault)
    | .ok (next, lexemes) =>
        let others := run next
        (lexemes ++ others.1, others.2)
termination_by scanner.remaining
decreasing_by exact remaining_step_lt (by assumption) _stepped

end Scanner

/-- A scanner with lexemes that were yielded and not yet handed out. -/
structure Feed where
  scanner : Scanner
  ready : List Lexeme
  deriving DecidableEq, Repr

namespace Feed

def ofSource (source : Source) : Feed :=
  { scanner := Scanner.ofSource source, ready := [] }

def exhausted (scanner : Scanner) : Feed :=
  { scanner := { scanner with mode := .done }, ready := [] }

/-- Hands out the next lexeme or fault, or nothing at the end.  After a fault the
feed is exhausted. -/
def next (feed : Feed) : Option (Except Fault Lexeme) × Feed :=
  match feed.ready with
  | lexeme :: others => (some (.ok lexeme), { feed with ready := others })
  | [] =>
      if feed.scanner.mode = .done then (none, feed)
      else
        match _stepped : feed.scanner.step with
        | .error fault => (some (.error fault), exhausted feed.scanner)
        | .ok (scanner, lexemes) => next { scanner := scanner, ready := lexemes }
termination_by feed.scanner.remaining
decreasing_by exact Scanner.remaining_step_lt (by assumption) _stepped

end Feed

def Source.lexemes (source : Source) : List Lexeme × Option Fault :=
  (Scanner.ofSource source).run

def tokenize (text : Text) : Except Fault (List Lexeme) :=
  match Source.ofText text with
  | .error fault => .error fault
  | .ok source =>
      match source.lexemes with
      | (lexemes, none) => .ok lexemes
      | (_, some fault) => .error fault

end Stencil
