import Stencil.Evaluator
import Stencil.Value.Reader

/-! The two evaluators that need no expression language: code is the name of a
parameter or a JSON text, and raw code is a value to write or a command to the
output. -/

namespace Stencil
namespace Evaluator

/-- The parameter that code names, or else the JSON value that it writes. -/
def lookUp (code : Text) (parameters : Parameters) : Except Fault Value :=
  match parameters.find? fun parameter => parameter.1 = code with
  | some (_, value) => .ok value
  | none =>
      match Value.ofJson? code with
      | some value => .ok value
      | none => .error (.evaluation code .unknownParameter)

def lookup : Evaluator := ofEvaluate lookUp

/-- What raw code does as a command: `>` and `<` change the level, `_` writes an
empty line, `?` writes the depth, and anything else is written itself. -/
def runCommand (code : Text) (output : Output) : Output :=
  if code = ['>'] then output.indent
  else if code = ['<'] then output.dedent
  else if code = ['_'] then output.blank
  else if code = ['?'] then output.emit (Text.decimal output.depth)
  else output.emit code

def command : Evaluator where
  evaluate := lookUp
  execute code _ output := .ok (runCommand code output)

end Evaluator
end Stencil
