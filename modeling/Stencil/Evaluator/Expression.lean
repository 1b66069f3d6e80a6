import Stencil.Evaluator
import Stencil.Expression.Eval
import Stencil.Expression.Parser
import Stencil.Snippet.Parser
import Stencil.Snippet.Render

/-! The evaluator for expressions and snippets: code is an expression, and raw code
is a snippet whose text is written. -/

namespace Stencil
namespace Evaluator

/-- The scope of code: parameters before globals. -/
def scopeOf (globals : List (Text × Text)) (parameters : Parameters) : Scope :=
  Scope.ofParameters parameters ++ globals.map fun entry => (entry.1, .string entry.2)

def flawed (code : Text) (flaw : Flaw) : Fault :=
  .evaluation code (.reported flaw.message)

def evaluateExpression (globals : List (Text × Text)) (code : Text) (parameters : Parameters) :
    Except Fault Value :=
  match Expression.parse code with
  | .error flaw => .error (flawed code flaw)
  | .ok expr =>
      match expr.eval (scopeOf globals parameters) with
      | .error flaw => .error (flawed code flaw)
      | .ok datum =>
          if datum.isUndefined then .error (.evaluation code .undefined)
          else
            match datum.toValue? with
            | some value => .ok value
            | none => .error (flawed code .notRepresentable)

def renderSnippet (globals : List (Text × Text)) (code : Text) (parameters : Parameters) :
    Except Fault Text :=
  match Snippet.parse code with
  | .error flaw => .error (flawed code flaw)
  | .ok parts =>
      match Snippet.renderAll (scopeOf globals parameters) parts with
      | .error flaw => .error (flawed code flaw)
      | .ok (text, _) => .ok text

def writeSnippet (globals : List (Text × Text)) (code : Text) (parameters : Parameters)
    (output : Output) : Except Fault Output :=
  match renderSnippet globals code parameters with
  | .error fault => .error fault
  | .ok text => .ok (if text.isEmpty then output else output.emit text)

/-- Code by expressions; raw code by snippets.  Globals are seen by all code, and a
parameter of the same name comes first. -/
def expression (globals : List (Text × Text)) : Evaluator where
  evaluate := evaluateExpression globals
  execute := writeSnippet globals

end Evaluator
end Stencil
