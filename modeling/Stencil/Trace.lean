import Stencil.Template

/-! Traces: the events of compiling a template and rendering it, in order. -/

namespace Stencil

inductive Event where
  | stage (name : String)
  | token (lexeme : Lexeme)
  | header (header : Markup.Header)
  | assembled (tokens instructions : Nat)
  | compiled (instructions : Nat) (headerKind : Option Text)
  | rendered (lines : Nat)
  deriving DecidableEq, Repr

namespace Event

def level : Event → Option String
  | .stage _ => none
  | .token _ => some "TRACE"
  | _ => some "DEBUG"

def message : Event → String
  | .stage name => name
  | .token _ => "consume token"
  | .header _ => "markup header"
  | .assembled _ _ => "built program"
  | .compiled _ _ => "compiled template"
  | .rendered _ => "rendered document"

def fields : Event → List (String × Text)
  | .stage _ => []
  | .token lexeme =>
      [("line", Text.decimal lexeme.line), ("token", lexeme.token.describe)]
  | .header declared => [("kind", declared.kind), ("encoding", declared.encoding)]
  | .assembled tokens instructions =>
      [("tokens", Text.decimal tokens), ("instructions", Text.decimal instructions)]
  | .compiled instructions headerKind =>
      [("instructions", Text.decimal instructions),
        ("header", headerKind.getD "none".toList)]
  | .rendered lines => [("lines", Text.decimal lines)]

end Event

namespace Trace

/-- The event of a header that one state of an assembly has and the state before
it has not. -/
def newHeader (before after : Assembler) : List Event :=
  match before.header, after.header with
  | none, some header => [.header header]
  | _, _ => []

/-- The events of taking one lexeme.  A header is complete when the directive is
closed, even if the lexeme that closes it is then refused. -/
def ofPush (lexeme : Lexeme) (assembler : Assembler) : List Event :=
  match assembler.prepare lexeme with
  | .error _ => [.token lexeme]
  | .ok prepared => .token lexeme :: newHeader assembler prepared

def ofFinish (tokens : Nat) (assembler : Assembler) : List Event × Except Fault Program :=
  match assembler.finish with
  | .error fault => ([], .error fault)
  | .ok program =>
      let closed :=
        match assembler.header, program.header with
        | none, some header => [Event.header header]
        | _, _ => []
      (closed ++ [.assembled tokens program.instructions.length], .ok program)

def ofItems (tokens : Nat) (assembler : Assembler) :
    List (Except Fault Lexeme) → List Event × Except Fault Program
  | [] => ofFinish tokens assembler
  | .error fault :: _ => ([], .error fault)
  | .ok lexeme :: others =>
      let events := ofPush lexeme assembler
      match assembler.push lexeme with
      | .error fault => (events, .error fault)
      | .ok next =>
          let rest := ofItems (tokens + 1) next others
          (events ++ rest.1, rest.2)

def ofSource (source : Source) : List Event × Except Fault Program :=
  let assembled := ofItems 0 Assembler.start source.items
  match assembled.2 with
  | .error fault => (assembled.1, .error fault)
  | .ok program =>
      (assembled.1 ++
        [.compiled program.instructions.length (program.header.map Markup.Header.kind)],
        .ok program)

def ofRender (template : Template) (parameters : Parameters) :
    List Event × Except Fault Text :=
  match template.run parameters with
  | .error fault => ([.stage "render"], .error fault)
  | .ok output => ([.stage "render", .rendered output.lines.length], .ok output.text)

def ofCompile (stage : String) (source : Except Fault Source) (evaluator : Evaluator)
    (layout : Layout) (parameters : Parameters) : List Event × Except Fault Text :=
  match source with
  | .error fault => ([.stage stage], .error fault)
  | .ok source =>
      let compiled := ofSource source
      match compiled.2 with
      | .error fault => (.stage stage :: compiled.1, .error fault)
      | .ok program =>
          let template : Template :=
            { program := program, evaluator := evaluator, layout := layout }
          let rendered := ofRender template parameters
          (.stage stage :: compiled.1 ++ rendered.1, rendered.2)

end Trace

end Stencil
