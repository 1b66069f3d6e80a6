import Stencil.Evaluator
import Stencil.Program.Assembler
import Stencil.Scanner.Run

/-! Templates: a compiled program with the evaluator and the layout it is rendered
with. -/

namespace Stencil

structure Template where
  program : Program
  evaluator : Evaluator
  layout : Layout

namespace Template

/-! ### Rendering -/

def renderFragment (template : Template) (parameters : Parameters) :
    Fragment → Except Fault Text
  | .text text => .ok text
  | .code code escape =>
      match template.evaluator.evaluate code parameters with
      | .error fault => .error fault
      | .ok value =>
          .ok (if escape then template.program.profile.escapeText value.toText
            else value.toText)

/-- The value that an attribute is written with, if it is written.  Code that gives
null or false leaves the attribute out, and true stands for its name. -/
def renderValue (template : Template) (parameters : Parameters) (entry : Attribute) :
    Except Fault (Option Text) :=
  match entry.value with
  | .literal text => .ok (some text)
  | .code code =>
      match template.evaluator.evaluate code parameters with
      | .error fault => .error fault
      | .ok .null | .ok (.bool false) => .ok none
      | .ok (.bool true) => .ok (some entry.name)
      | .ok value => .ok (some value.toText)

def renderAttributes (template : Template) (parameters : Parameters) :
    List Attribute → Except Fault Text
  | [] => .ok []
  | entry :: others =>
      match template.renderValue parameters entry with
      | .error fault => .error fault
      | .ok value =>
          match template.renderAttributes parameters others with
          | .error fault => .error fault
          | .ok rest =>
              .ok ((value.elim [] (Markup.Header.assignment entry.name)) ++ rest)

def elementLine (tag attributes : Text) : Option Text → Text
  | none => '<' :: tag ++ attributes ++ "/>".toList
  | some data =>
      '<' :: tag ++ attributes ++ '>' :: data ++ "</".toList ++ tag ++ ['>']

def renderBody (template : Template) (parameters : Parameters) :
    Option Fragment → Except Fault (Option Text)
  | none => .ok none
  | some fragment => (template.renderFragment parameters fragment).map some

/-- Writes a comment: one line stands between the signs, more stand below. -/
def writeComment (lines : List Text) (output : Output) : Output :=
  match lines with
  | [line] => output.emit ("<!-- ".toList ++ line ++ " -->".toList)
  | lines =>
      let inside := (output.emit "<!--".toList).indent
      (lines.foldl (fun written line => written.emit line) inside).dedent.emit "-->".toList

def execute (template : Template) (parameters : Parameters) (instruction : Instruction)
    (output : Output) : Except Fault Output :=
  match instruction with
  | .element tag attributes body =>
      match template.renderAttributes parameters attributes with
      | .error fault => .error fault
      | .ok written =>
          match template.renderBody parameters body with
          | .error fault => .error fault
          | .ok data => .ok (output.emit (elementLine tag written data))
  | .openElement tag attributes =>
      match template.renderAttributes parameters attributes with
      | .error fault => .error fault
      | .ok written => .ok (output.emit ('<' :: tag ++ written ++ ['>'])).indent
  | .closeElement tag => .ok (output.dedent.emit ("</".toList ++ tag ++ ['>']))
  | .content fragment =>
      match template.renderFragment parameters fragment with
      | .error fault => .error fault
      | .ok text => .ok (output.emit text)
  | .comment lines => .ok (writeComment lines output)
  | .blank => .ok output.blank
  | .rawCode code => template.evaluator.execute code parameters output

/-- Runs instructions in order up to the first fault. -/
def executeAll (template : Template) (parameters : Parameters) :
    List Instruction → Output → Except Fault Output
  | [], output => .ok output
  | instruction :: others, output =>
      match template.execute parameters instruction output with
      | .error fault => .error fault
      | .ok written => template.executeAll parameters others written

def opening (template : Template) : Output :=
  match template.program.header with
  | none => Output.ofLayout template.layout
  | some header => (Output.ofLayout template.layout).emit header.render

def run (template : Template) (parameters : Parameters) : Except Fault Output :=
  template.executeAll parameters template.program.instructions template.opening

def render (template : Template) (parameters : Parameters) : Except Fault Text :=
  (template.run parameters).map Output.text

def renderBytes (template : Template) (parameters : Parameters) : Except Fault Utf8.Bytes :=
  (template.render parameters).map Utf8.encode

end Template

/-! ### Compiling -/

/-- The lexemes of a source as a stream that a fault may break off. -/
def Source.items (source : Source) : List (Except Fault Lexeme) :=
  source.lexemes.1.map .ok ++ source.lexemes.2.toList.map .error

namespace Program

def ofSource (source : Source) : Except Fault Program :=
  ofItems source.items

def compile (text : Text) : Except Fault Program :=
  match Source.ofText text with
  | .error fault => .error fault
  | .ok source => ofSource source

def compileBytes (bytes : Utf8.Bytes) : Except Fault Program :=
  match Source.ofBytes bytes with
  | .error fault => .error fault
  | .ok source => ofSource source

end Program

end Stencil
