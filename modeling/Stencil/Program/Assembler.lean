import Stencil.Program.Element

/-! The assembler: it takes lexemes one by one and emits the instructions of a
program.

Open constructs are kept on a stack.  An element is emitted when something follows
it, since only then it is known whether it has children; comments and blank lines
wait in the same way, so that adjacent comments join and a blank line at the end
is dropped. -/

namespace Stencil

/-- A construct that waits for what closes it. -/
inductive Construct where
  /-- An element whose attribute list may still grow. -/
  | element (element : PendingElement)
  /-- An element whose children are being emitted.  A blank line right after its
  opening line is repeated in front of its closing line. -/
  | block (tag : Text) (blankBeforeClose : Bool)
  | comment (lines : List Text)
  | blank
  | directive (kind : Text) (attributes : List (Text × Text)) (line : Nat)
  deriving DecidableEq, Repr

def Construct.isBlock : Construct → Bool
  | .block _ _ => true
  | _ => false

structure Assembler where
  profile : Markup.Profile
  header : Option Markup.Header
  instructions : List Instruction
  /-- Open constructs, innermost first. -/
  depth : List Construct
  /-- Some token was more than layout. -/
  begun : Bool
  previous : Option Token.Kind

namespace Assembler

def start : Assembler where
  profile := Markup.Profile.standard
  header := none
  instructions := []
  depth := []
  begun := false
  previous := none

def emit (instructions : List Instruction) (assembler : Assembler) : Assembler :=
  { assembler with instructions := assembler.instructions ++ instructions }

def withDepth (depth : List Construct) (assembler : Assembler) : Assembler :=
  { assembler with depth := depth }

/-! ### Closing constructs -/

/-- Closes the innermost construct unless it is an element with children. -/
def settle (assembler : Assembler) : Except Fault Assembler :=
  match assembler.depth with
  | .element element :: outer =>
      match element.sealed assembler.profile with
      | .error fault => .error fault
      | .ok attributes =>
          .ok ((assembler.withDepth outer).emit
            [.element element.tag attributes element.data])
  | .comment lines :: outer =>
      .ok ((assembler.withDepth outer).emit
        [.comment (lines.map assembler.profile.escapeComment)])
  | .blank :: outer => .ok ((assembler.withDepth outer).emit [.blank])
  | .directive kind attributes line :: outer =>
      match Markup.Header.ofDirective line { kind := kind, attributes := attributes } with
      | .error fault => .error fault
      | .ok (header, profile) =>
          .ok { assembler.withDepth outer with header := some header, profile := profile }
  | .block _ _ :: _ | [] => .ok assembler

def closing (tag : Text) (blankBeforeClose : Bool) : List Instruction :=
  if blankBeforeClose then [.blank, .closeElement tag] else [.closeElement tag]

/-! ### Placing tokens -/

/-- Whether a token closes the innermost construct before it is placed.  A comment
goes on with a comment. -/
def settlesFor (token : Token) (assembler : Assembler) : Bool :=
  match token with
  | .literalAttribute _ _ | .codeAttribute _ _ | .selfClose | .data _ | .codeData _ _
  | .indent => false
  | .comment _ =>
      match assembler.depth with
      | .comment _ :: _ => false
      | _ => true
  | _ => true

def placeAttribute (entry : Attribute) (line : Nat) (assembler : Assembler) :
    Except Fault Assembler :=
  match assembler.depth with
  | .element element :: outer =>
      if element.data.isSome then .error (.parse line .attributeOutsideElement)
      else
        .ok (assembler.withDepth
          (.element { element with attributes := element.attributes ++ [entry] } :: outer))
  | .directive kind attributes begin :: outer =>
      match entry.value with
      | .literal text =>
          .ok (assembler.withDepth
            (.directive kind (attributes ++ [(entry.name, text)]) begin :: outer))
      | .code _ => .error (.parse line .codeInDirective)
  | _ => .error (.parse line .attributeOutsideElement)

def placeSelfClose (line : Nat) (assembler : Assembler) : Except Fault Assembler :=
  match assembler.depth with
  | .element element :: outer =>
      .ok (assembler.withDepth (.element { element with selfClosed := true } :: outer))
  | _ => .error (.parse line .slashOutsideElement)

/-- Gives the innermost element its inline data, which ends it. -/
def placeData (fragment : Fragment) (line : Nat) (assembler : Assembler) :
    Except Fault Assembler :=
  match assembler.depth with
  | .element element :: outer =>
      (assembler.withDepth (.element { element with data := some fragment } :: outer)).settle
  | _ => .error (.parse line .dataOutsideElement)

def placeIndent (line : Nat) (assembler : Assembler) : Except Fault Assembler :=
  match assembler.depth with
  | .element element :: outer =>
      if element.selfClosed then .error (.parse line .nestedInSelfClosed)
      else
        match element.sealed assembler.profile with
        | .error fault => .error fault
        | .ok attributes =>
            .ok ((assembler.withDepth (.block element.tag false :: outer)).emit
              [.openElement element.tag attributes])
  | .directive _ _ _ :: _ => .error (.parse line .nestedInDirective)
  | _ => .error (.parse line (.unexpectedIndent assembler.previous))

def placeDedent (line : Nat) (assembler : Assembler) : Except Fault Assembler :=
  match assembler.depth with
  | .block tag blankBeforeClose :: outer =>
      .ok ((assembler.withDepth outer).emit (closing tag blankBeforeClose))
  | _ => .error (.parse line .unopenedDedent)

/-- Places a blank line.  Right after an indent it is written at once and once
more at the end of the block; any other waits for the next construct. -/
def placeBlank (assembler : Assembler) : Assembler :=
  if assembler.previous = some .indent then
    let marked :=
      match assembler.depth with
      | .block tag _ :: outer => .block tag true :: outer
      | depth => depth
    (assembler.withDepth marked).emit [.blank]
  else assembler.withDepth (.blank :: assembler.depth)

/-- Places a comment, joined with one that is still open. -/
def placeComment (lines : List Text) (assembler : Assembler) : Assembler :=
  match assembler.depth with
  | .comment earlier :: outer => assembler.withDepth (.comment (earlier ++ lines) :: outer)
  | depth => assembler.withDepth (.comment lines :: depth)

def codeFilter : Text := "code".toList

def filterLine (line : Text) : Instruction :=
  if line.isEmpty then .blank else .rawCode line

def placeFilter (name : Text) (lines : List Text) (line : Nat) (assembler : Assembler) :
    Except Fault Assembler :=
  if name = codeFilter then .ok (assembler.emit (lines.map filterLine))
  else .error (.parse line (.unknownFilter name))

def place (lexeme : Lexeme) (assembler : Assembler) : Except Fault Assembler :=
  match lexeme.token with
  | .element tag =>
      let element : PendingElement :=
        { tag := tag, attributes := [], selfClosed := false, data := none, line := lexeme.line }
      .ok (assembler.withDepth (.element element :: assembler.depth))
  | .literalAttribute name text =>
      assembler.placeAttribute { name := name, value := .literal text } lexeme.line
  | .codeAttribute name code =>
      assembler.placeAttribute { name := name, value := .code code } lexeme.line
  | .selfClose => assembler.placeSelfClose lexeme.line
  | .data text =>
      assembler.placeData (.text (assembler.profile.escapeText text)) lexeme.line
  | .codeData code escape => assembler.placeData (.code code escape) lexeme.line
  | .content text =>
      .ok (assembler.emit [.content (.text (assembler.profile.escapeText text))])
  | .codeContent code escape => .ok (assembler.emit [.content (.code code escape)])
  | .comment lines => .ok (assembler.placeComment lines)
  | .directive kind =>
      .ok (assembler.withDepth (.directive kind [] lexeme.line :: assembler.depth))
  | .filter name lines => assembler.placeFilter name lines lexeme.line
  | .rawCode code => .ok (assembler.emit [.rawCode code])
  | .indent => assembler.placeIndent lexeme.line
  | .dedent => assembler.placeDedent lexeme.line
  | .blankLine => .ok assembler.placeBlank

/-! ### Taking lexemes -/

/-- Whether a lexeme may stand where it does: a directive stands at the outermost
level and in front of every other construct. -/
def allow (lexeme : Lexeme) (assembler : Assembler) : Except Fault Unit :=
  match lexeme.token with
  | .directive _ =>
      if assembler.depth.any Construct.isBlock then
        .error (.parse lexeme.line .nestedDirective)
      else if assembler.begun then .error (.parse lexeme.line .lateDirective)
      else .ok ()
  | _ => .ok ()

def prepare (lexeme : Lexeme) (assembler : Assembler) : Except Fault Assembler :=
  match assembler.allow lexeme with
  | .error fault => .error fault
  | .ok () =>
      if assembler.settlesFor lexeme.token then assembler.settle else .ok assembler

def push (lexeme : Lexeme) (assembler : Assembler) : Except Fault Assembler :=
  match assembler.prepare lexeme with
  | .error fault => .error fault
  | .ok prepared =>
      match prepared.place lexeme with
      | .error fault => .error fault
      | .ok placed =>
          .ok { placed with
                begun := placed.begun || !lexeme.token.isStructural
                previous := some lexeme.token.kind }

/-- Takes lexemes up to the first fault among them. -/
def pushAll (items : List (Except Fault Lexeme)) (assembler : Assembler) :
    Except Fault Assembler :=
  match items with
  | [] => .ok assembler
  | .error fault :: _ => .error fault
  | .ok lexeme :: others =>
      match assembler.push lexeme with
      | .error fault => .error fault
      | .ok next => pushAll others next

def closings : List Construct → List Instruction
  | [] => []
  | .block tag blankBeforeClose :: outer => closing tag blankBeforeClose ++ closings outer
  | _ :: outer => closings outer

/-- Ends an assembly.  A blank line that still waits is dropped. -/
def finish (assembler : Assembler) : Except Fault Program :=
  let trimmed :=
    match assembler.depth with
    | .blank :: outer => assembler.withDepth outer
    | _ => assembler
  match trimmed.settle with
  | .error fault => .error fault
  | .ok settled =>
      .ok { header := settled.header
            profile := settled.profile
            instructions := settled.instructions ++ closings settled.depth }

end Assembler

namespace Program

/-- The program of a stream of lexemes that a fault may break off. -/
def ofItems (items : List (Except Fault Lexeme)) : Except Fault Program :=
  match Assembler.start.pushAll items with
  | .error fault => .error fault
  | .ok assembler => assembler.finish

def ofLexemes (lexemes : List Lexeme) : Except Fault Program :=
  ofItems (lexemes.map .ok)

end Program

end Stencil
