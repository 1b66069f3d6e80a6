import Stencil.Levels
import Stencil.Markup.Directive
import Stencil.Scanner.Reading

/-! The scanner: a machine that reads a source and yields lexemes, a few at each
step.

Its mode says what it reads next: the start of a line, the indentation of a line,
a piece of an attribute list, inline data, or the body of a filter.  Leading
spaces open and close levels; a run of blank lines is remembered and yielded in
front of the next construct. -/

namespace Stencil

inductive Mode where
  /-- A new line, of which nothing was looked at. -/
  | lineStart
  | indentation
  /-- A piece of an attribute list with so many open parentheses. -/
  | pieces (parentheses : Nat)
  | data
  /-- The body of a filter whose heading stands on `line`, indented by `width`. -/
  | filterBody (name : Text) (line width : Nat)
  | done
  deriving DecidableEq, Repr

structure Scanner where
  source : Source
  levels : Levels
  mode : Mode
  /-- A blank line is to be yielded before the next construct. -/
  blankPending : Bool
  /-- Some lexeme was yielded. -/
  begun : Bool
  deriving DecidableEq, Repr

namespace Scanner

def ofSource (source : Source) : Scanner where
  source := source
  levels := Levels.ofBase 0
  mode := .lineStart
  blankPending := false
  begun := false

/-- What a construct leaves behind: the source after it, the mode that follows,
and its lexemes. -/
abbrev Outcome := Except Fault (Source × Mode × List Lexeme)

def onLine (line : Nat) (tokens : List Token) : List Lexeme :=
  tokens.map fun token => { token := token, line := line }

/-! ### Code and text -/

inductive Payload where
  | literal (text : Text)
  | code (expression : Text) (escape : Bool)
  deriving DecidableEq, Repr

/-- Splits the sign `!=`, `&=` or `=` off code; all else is literal text. -/
def splitSign (text : Text) : Payload :=
  match Text.afterLead "!=".toList text with
  | some code => .code code false
  | none =>
      match Text.afterLead "&=".toList text with
      | some code => .code code true
      | none =>
          match Text.afterLead "=".toList text with
          | some code => .code code true
          | none => .literal text

/-- The payload of a text; code is trimmed and must not be empty. -/
def payloadOf (line : Nat) (text : Text) : Except Fault Payload :=
  match splitSign text with
  | .literal text => .ok (.literal text)
  | .code code escape =>
      if (Text.trim code).isEmpty then .error (.parse line (.missingCode '='))
      else .ok (.code (Text.trim code) escape)

def Payload.content : Payload → Token
  | .literal text => .content text
  | .code expression escape => .codeContent expression escape

def Payload.data : Payload → Token
  | .literal text => .data text
  | .code expression escape => .codeData expression escape

/-! ### Constructs of a line -/

inductive Opening where
  | element
  | shortcut
  | comment
  | directive
  | code
  | filter
  | rawCode
  | verbatim
  | text
  deriving DecidableEq, Repr

def openingOf : Text → Opening
  | [] => .text
  | first :: rest =>
      if first = '%' then .element
      else if (shortcutAttribute first).isSome then .shortcut
      else if first = '/' ∧ rest.head? = some '/' then .comment
      else if first = '!' ∧ Text.startsWith "!!".toList rest then .directive
      else if (first = '!' ∨ first = '&') ∧ rest.head? = some '=' then .code
      else if first = '=' then .code
      else if first = ':' then .filter
      else if first = '-' then .rawCode
      else if first = '\\' then .verbatim
      else .text

def startElement (tag : Text) (line : Nat) (source : Source) : Outcome :=
  match source.readShortcuts with
  | .error fault => .error fault
  | .ok (attributes, after) =>
      .ok (after, .pieces 0,
        onLine line (.element tag ::
          attributes.map fun (name, value) => .literalAttribute name value))

def readElement (line : Nat) (source : Source) : Outcome :=
  match source.readChar.2.readName .elementName with
  | .error fault => .error fault
  | .ok (tag, after) => startElement tag line after

def commentText (line : Text) : Text :=
  let body := Text.trimStart line
  Text.trim ((Text.afterLead "//".toList body).getD body)

def continuesComment (width : Nat) (line : Text) : Bool :=
  let indent := Text.leadingSpaces line
  let body := line.drop indent
  !body.isEmpty &&
    (width < indent || (indent = width && Text.startsWith "//".toList body))

/-- A further line of a comment: deeper lines are taken as they stand. -/
def commentLine (width : Nat) (line : Text) : Text :=
  let indent := Text.leadingSpaces line
  let body := line.drop indent
  if indent = width then commentText body else Text.trimEnd body

def readCommentLines (width : Nat) (source : Source) : List Text × Source :=
  match _next : source.readLine.1 with
  | none => ([], source.readLine.2)
  | some line =>
      if continuesComment width line then
        let others := readCommentLines width source.readLine.2
        (commentLine width line :: others.1, others.2)
      else ([], source.readLine.2.unreadLine line)
termination_by source.size
decreasing_by
  have := Source.size_readLine _next
  omega

def readComment (width line : Nat) (source : Source) : Source × Mode × List Lexeme :=
  let first := source.readLine
  let others := readCommentLines width first.2
  (others.2, .lineStart,
    onLine line [.comment (commentText (first.1.getD []) :: others.1)])

def readDirective (line : Nat) (source : Source) : Outcome :=
  match Markup.Directive.parse line (source.readLine.1.getD []) with
  | .error fault => .error fault
  | .ok directive =>
      .ok (source.readLine.2, .lineStart,
        onLine line (.directive directive.kind ::
          directive.attributes.map fun (name, value) => .literalAttribute name value))

def readCode (line : Nat) (source : Source) : Outcome :=
  match payloadOf line (Text.trim (source.readLine.1.getD [])) with
  | .error fault => .error fault
  | .ok payload => .ok (source.readLine.2, .lineStart, onLine line [payload.content])

def readFilterHeading (width line : Nat) (source : Source) : Outcome :=
  let name := Text.trim ((source.readLine.1.getD []).drop 1)
  if name.isEmpty then .error (.parse line .missingFilterName)
  else .ok (source.readLine.2, .filterBody name line width, [])

def readRawCode (line : Nat) (source : Source) : Outcome :=
  let code := Text.trim ((source.readLine.1.getD []).drop 1)
  if code.isEmpty then .error (.parse line (.missingCode '-'))
  else .ok (source.readLine.2, .lineStart, onLine line [.rawCode code])

/-- Reads a line of text, less `signs` leading characters. -/
def readContent (signs line : Nat) (source : Source) : Source × Mode × List Lexeme :=
  (source.readLine.2, .lineStart,
    onLine line [.content (Text.trimEnd ((source.readLine.1.getD []).drop signs))])

def readConstruct (opening : Opening) (width line : Nat) (source : Source) : Outcome :=
  match opening with
  | .element => readElement line source
  | .shortcut => startElement implicitTag line source
  | .comment => .ok (readComment width line source)
  | .directive => readDirective line source
  | .code => readCode line source
  | .filter => readFilterHeading width line source
  | .rawCode => readRawCode line source
  | .verbatim => .ok (readContent 1 line source)
  | .text => .ok (readContent 0 line source)

/-! ### Indentation -/

def enterLevel (width line : Nat) (levels : Levels) : Except Fault (Levels × List Lexeme) :=
  match levels.compare width with
  | .gt => .ok (levels.push width, onLine line [.indent])
  | .eq => .ok (levels, [])
  | .lt =>
      match levels.dedentTo width with
      | (some closed, left) => .ok (left, onLine line (List.replicate closed .dedent))
      | (none, _) => .error (.parse line (.unalignedIndent width))

def readIndentation (scanner : Scanner) : Except Fault (Scanner × List Lexeme) :=
  let source := scanner.source
  let line := source.lineNumber
  let text := source.peekLine.getD []
  let width := text.leadingSpaces
  match enterLevel width line scanner.levels with
  | .error fault => .error fault
  | .ok (levels, structural) =>
      match readConstruct (openingOf (text.drop width)) width line (source.skip width) with
      | .error fault => .error fault
      | .ok (after, mode, lexemes) =>
          let blank := if scanner.blankPending then onLine line [.blankLine] else []
          .ok ({ scanner with
                 source := after, levels := levels, mode := mode, blankPending := false },
            structural ++ blank ++ lexemes)

/-! ### Attribute lists -/

def readBareValue (name : Text) (line : Nat) (source : Source) : Source.Reading Token :=
  let value := source.readWhile Source.isBare
  if value.1.isEmpty then .error (.parse line (.missingAttributeValue name))
  else .ok (.literalAttribute name value.1, value.2)

/-- Reads one attribute.  Line breaks in quoted values need open parentheses. -/
def readAttribute (parentheses line : Nat) (source : Source) : Source.Reading Token :=
  match source.readName .attributeName with
  | .error fault => .error fault
  | .ok (name, named) =>
      if named.peekChar.1 = some '=' then
        let assigned := named.readChar.2
        match assigned.peekChar.1 with
        | some quote =>
            if quote = '\x22' ∨ quote = '\x27' then
              (assigned.readChar.2.readQuoted quote (0 < parentheses) line).map
                fun (value, after) => (.literalAttribute name value, after)
            else if quote = '\x60' then
              (assigned.readChar.2.readQuoted quote (0 < parentheses) line).map
                fun (code, after) => (.codeAttribute name code, after)
            else readBareValue name line assigned
        | none => readBareValue name line assigned
      else .ok (.literalAttribute name name, named.peekChar.2)

def readSelfClose (line : Nat) (source : Source) : Source × Mode × List Lexeme :=
  let rest := Text.trim (source.readLine.1.getD [])
  (source.readLine.2, .lineStart,
    onLine line (if rest.isEmpty then [.selfClose] else [.selfClose, .content rest]))

def readPiece (parentheses : Nat) (source : Source) : Outcome :=
  let line := source.lineNumber
  let after := source.readChar.2
  match source.peekChar.1 with
  | none =>
      if 0 < parentheses then .error (.parse line .unclosedParenthesis)
      else .ok (source.peekChar.2, .lineStart, [])
  | some character =>
      if character = '\n' then
        .ok (after, if parentheses = 0 then .lineStart else .pieces parentheses, [])
      else if character = ' ' then .ok (after, .pieces parentheses, [])
      else if character = '(' then .ok (after, .pieces (parentheses + 1), [])
      else if character = ')' then
        if parentheses = 0 then .error (.parse line .unopenedParenthesis)
        else .ok (after, .pieces (parentheses - 1), [])
      else if character = '\\' then
        if after.readChar.1 = some '\n' then
          .ok (after.readChar.2, .pieces parentheses, [])
        else .error (.parse line .strayBackslash)
      else if character = ':' then
        if 0 < parentheses then .error (.parse line .parenthesisBeforeData)
        else .ok (after, .data, [])
      else if character = '/' then
        if 0 < parentheses then .error (.parse line .parenthesisBeforeSlash)
        else .ok (readSelfClose line after)
      else if isNameStart character then
        match readAttribute parentheses line source with
        | .error fault => .error fault
        | .ok (token, last) => .ok (last, .pieces parentheses, onLine line [token])
      else if isBadNameStart character then
        .error (.parse line (.badNameStart .attributeName character))
      else .error (.parse line (.unexpectedCharacter character))

def readData (source : Source) : Outcome :=
  match payloadOf source.lineNumber (Text.trim (source.readLine.1.getD [])) with
  | .error fault => .error fault
  | .ok payload =>
      .ok (source.readLine.2, .lineStart, onLine source.lineNumber [payload.data])

/-! ### Filter bodies -/

structure FilterBody where
  lines : List Text
  blanksAfter : Nat
  source : Source

/-- Reads the lines of a filter that are indented by `least` at the least.  The
first line fixes the width that is cut off every line; `blanks` lines of spaces
were read since the last line of the body. -/
def readFilterLines (least : Nat) (bodyWidth : Option Nat) (blanks : Nat) (source : Source) :
    FilterBody :=
  match _next : source.readLine.1 with
  | none => { lines := [], blanksAfter := blanks, source := source.readLine.2 }
  | some line =>
      let indent := Text.leadingSpaces line
      if indent = line.length then
        readFilterLines least bodyWidth (blanks + 1) source.readLine.2
      else if indent < bodyWidth.getD least then
        { lines := [], blanksAfter := blanks, source := source.readLine.2.unreadLine line }
      else
        let width := bodyWidth.getD indent
        let others := readFilterLines least (some width) 0 source.readLine.2
        { others with lines := List.replicate blanks [] ++ line.drop width :: others.lines }
termination_by source.size
decreasing_by
  all_goals
    have := Source.size_readLine _next
    omega

def readFilterBody (name : Text) (line width : Nat) (scanner : Scanner) :
    Scanner × List Lexeme :=
  let body := readFilterLines (width + 1) none 0 scanner.source
  ({ scanner with
     source := body.source
     mode := .lineStart
     blankPending := scanner.blankPending || 0 < body.blanksAfter },
    onLine line [.filter name body.lines])

/-! ### Steps -/

/-- Looks at a new line: the end of the source closes every level, a blank line
is passed over, and any other line is read next. -/
def startLine (scanner : Scanner) : Scanner × List Lexeme :=
  match scanner.source.peekLine with
  | none =>
      let (closed, left) := scanner.levels.dedentTo 0
      ({ scanner with levels := left, mode := .done },
        onLine scanner.source.lineNumber (List.replicate (closed.getD 0) .dedent))
  | some line =>
      if Text.isAllBlank line then
        ({ scanner with
           source := scanner.source.readLine.2
           blankPending := scanner.blankPending || scanner.begun }, [])
      else ({ scanner with mode := .indentation }, [])

def advance (scanner : Scanner) : Outcome → Except Fault (Scanner × List Lexeme)
  | .error fault => .error fault
  | .ok (source, mode, lexemes) =>
      .ok ({ scanner with source := source, mode := mode }, lexemes)

def act (scanner : Scanner) : Except Fault (Scanner × List Lexeme) :=
  match scanner.mode with
  | .lineStart => .ok scanner.startLine
  | .indentation => scanner.readIndentation
  | .pieces parentheses => scanner.advance (readPiece parentheses scanner.source)
  | .data => scanner.advance (readData scanner.source)
  | .filterBody name line width => .ok (scanner.readFilterBody name line width)
  | .done => .ok (scanner, [])

/-- One step, with a record of whether anything was yielded so far. -/
def step (scanner : Scanner) : Except Fault (Scanner × List Lexeme) :=
  match scanner.act with
  | .error fault => .error fault
  | .ok (next, lexemes) => .ok ({ next with begun := next.begun || !lexemes.isEmpty }, lexemes)

end Scanner

end Stencil
