import Stencil.Fault
import Stencil.Output
import Stencil.Value.Basic

/-! Evaluators: what runs the code that stands in a template. -/

namespace Stencil

/-- Runs code: `evaluate` gives the value of code in attributes, data and content
lines; `execute` runs raw code, which may write lines of its own. -/
structure Evaluator where
  evaluate : Text → Parameters → Except Fault Value
  execute : Text → Parameters → Output → Except Fault Output

namespace Evaluator

/-- Raw code that writes the text of its value, unless that is empty. -/
def writeValue (evaluate : Text → Parameters → Except Fault Value) (code : Text)
    (parameters : Parameters) (output : Output) : Except Fault Output :=
  match evaluate code parameters with
  | .error fault => .error fault
  | .ok value => .ok (if value.toText.isEmpty then output else output.emit value.toText)

/-- The evaluator that treats raw code like any other code. -/
def ofEvaluate (evaluate : Text → Parameters → Except Fault Value) : Evaluator where
  evaluate := evaluate
  execute := writeValue evaluate

end Evaluator

end Stencil
