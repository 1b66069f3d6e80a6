import Stencil.Token

/-! Everything that can go wrong while a template is read, compiled, rendered or
its layout options are parsed.

A fault is a cause with its data.  The wording is in `Cause.message` and
`Fault.message` alone, so statements speak of causes and not of texts. -/

namespace Stencil

inductive NameRole where
  | elementName
  | attributeName
  deriving DecidableEq, Repr

def NameRole.label : NameRole → String
  | .elementName => "element"
  | .attributeName => "attribute"

inductive DirectiveFlaw where
  | missingMarker
  | unexpected (slice : Text)
  | missingQuote (name : Text)
  | missingValue
  | badEscape
  deriving DecidableEq, Repr

inductive Cause where
  /-- A line is indented to a width that no enclosing level has. -/
  | unalignedIndent (width : Nat)
  /-- `=` and its variants, or `-`, with no code after the sign. -/
  | missingCode (sign : Char)
  | badNameStart (role : NameRole) (character : Char)
  | missingName (role : NameRole)
  | shortcutQuoted (shortcut : Char)
  | shortcutAssigned (shortcut : Char)
  | shortcutEmpty (shortcut : Char)
  | unclosedParenthesis
  | unopenedParenthesis
  | strayBackslash
  | parenthesisBeforeData
  | parenthesisBeforeSlash
  | unexpectedCharacter (character : Char)
  | missingAttributeValue (name : Text)
  | unterminatedQuote
  | newlineInQuote
  | unescapedQuote (quote : Char)
  | characterAfterValue (character : Char)
  | missingFilterName
  | malformedDirective (flaw : DirectiveFlaw)
  | unknownHeaderKind (kind : Text)
  | unsupportedHeaderEncoding (value : Text)
  | slashOutsideElement
  | attributeOutsideElement
  | codeInDirective
  | dataOutsideElement
  | nestedInSelfClosed
  | nestedInDirective
  /-- A level opens after a token that cannot have children, or at the start. -/
  | unexpectedIndent (after : Option Token.Kind)
  | unopenedDedent
  | nestedDirective
  | lateDirective
  | unknownFilter (name : Text)
  | duplicateAttribute (name tag : Text)
  /-- A cause that a producer of lexemes gives in its own words. -/
  | reported (message : Text)
  deriving DecidableEq, Repr

def ticked (text : Text) : String :=
  "`" ++ String.ofList text ++ "`"

def DirectiveFlaw.message : DirectiveFlaw → String
  | .missingMarker => "expected `!!!`"
  | .unexpected slice => "unexpected " ++ ticked slice
  | .missingQuote name => "attribute " ++ ticked name ++ " needs a quoted value"
  | .missingValue => "expected a quoted value"
  | .badEscape => "invalid escape sequence"

def Cause.message : Cause → String
  | .unalignedIndent width =>
      "inconsistent indentation: " ++ String.ofList (Text.decimal width) ++
        " spaces does not match any enclosing level"
  | .missingCode sign => "missing code after " ++ ticked [sign]
  | .badNameStart role character =>
      role.label ++ " name cannot start with " ++ ticked [character]
  | .missingName role => "expected " ++ role.label ++ " name"
  | .shortcutQuoted shortcut =>
      "the " ++ ticked [shortcut] ++ " shortcut cannot take a quoted value"
  | .shortcutAssigned shortcut =>
      "the " ++ ticked [shortcut] ++ " shortcut cannot be assigned a value"
  | .shortcutEmpty shortcut =>
      "missing value after the " ++ ticked [shortcut] ++ " shortcut"
  | .unclosedParenthesis => "unmatched `(` in attribute list"
  | .unopenedParenthesis => "unmatched `)` in attribute list"
  | .strayBackslash => "a `\\` in an attribute list must end the line"
  | .parenthesisBeforeData => "unmatched `(` before inline data"
  | .parenthesisBeforeSlash => "unmatched `(` before `/`"
  | .unexpectedCharacter character =>
      "unexpected character " ++ ticked [character] ++ " in attribute list"
  | .missingAttributeValue name => "missing value for attribute " ++ ticked name
  | .unterminatedQuote => "unterminated quoted value"
  | .newlineInQuote =>
      "newline inside a quoted value; wrap the attribute list in parentheses to continue it"
  | .unescapedQuote quote => "unescaped " ++ ticked [quote] ++ " inside a quoted value"
  | .characterAfterValue character =>
      "invalid character " ++ ticked [character] ++ " after attribute value"
  | .missingFilterName => "missing filter name after `:`"
  | .malformedDirective flaw => "malformed meta directive: " ++ flaw.message
  | .unknownHeaderKind kind => "unknown markup header kind " ++ ticked kind
  | .unsupportedHeaderEncoding value =>
      "header encoding " ++ ticked value ++ " is not supported, only UTF-8 output is"
  | .slashOutsideElement => "`/` outside of an element"
  | .attributeOutsideElement => "attribute outside of an element"
  | .codeInDirective => "meta directive attributes must be literal strings"
  | .dataOutsideElement => "inline data outside of an element"
  | .nestedInSelfClosed => "a self-closing element cannot contain nested lines"
  | .nestedInDirective => "a meta directive cannot contain nested lines"
  | .unexpectedIndent (some kind) => "unexpected indentation after " ++ kind.label
  | .unexpectedIndent none => "unexpected indentation at the start of the document"
  | .unopenedDedent => "dedent without an open element"
  | .nestedDirective => "nested meta directives are not allowed"
  | .lateDirective => "a meta directive must be the first construct in the document"
  | .unknownFilter name => "unknown filter " ++ ticked name
  | .duplicateAttribute name tag =>
      "duplicate attribute " ++ ticked name ++ " on " ++ ticked tag
  | .reported message => String.ofList message

inductive Reason where
  | undefined
  | unknownParameter
  /-- Any other failure, in the words of the evaluator. -/
  | reported (detail : Text)
  deriving DecidableEq, Repr

def Reason.message : Reason → String
  | .undefined => "expression is undefined"
  | .unknownParameter => "unknown parameter"
  | .reported detail => String.ofList detail

inductive Fault where
  | invalidCharacter (line : Nat) (character : Char)
  | parse (line : Nat) (cause : Cause)
  | unsupportedEncoding (label : Text)
  | evaluation (code : Text) (reason : Reason)
  | layout (detail : Text)
  deriving DecidableEq, Repr

namespace Fault

def line : Fault → Option Nat
  | .invalidCharacter line _ | .parse line _ => some line
  | _ => none

def message : Fault → String
  | .invalidCharacter line character =>
      "invalid character " ++ String.ofList (Text.quotedChar character) ++ " on line " ++
        String.ofList (Text.decimal line)
  | .parse line cause =>
      "parse error on line " ++ String.ofList (Text.decimal line) ++ ": " ++ cause.message
  | .unsupportedEncoding label => "unsupported source encoding: " ++ ticked label
  | .evaluation code reason => "failed to evaluate " ++ ticked code ++ ": " ++ reason.message
  | .layout detail => "failed to parse compile options: " ++ String.ofList detail

def code : Fault → String
  | .invalidCharacter _ _ => "quill::invalid_character"
  | .parse _ _ => "quill::parse"
  | .unsupportedEncoding _ => "quill::unsupported_encoding"
  | .evaluation _ _ => "quill::evaluation"
  | .layout _ => "quill::config_parse"

def help : Fault → Option String
  | .invalidCharacter _ _ =>
      some ("control characters (including tabs) and non-characters are not allowed " ++
        "in templates")
  | .unsupportedEncoding _ =>
      some "templates must be UTF-8; change the `coding:` pragma to `utf-8`"
  | .layout _ => some "supported keys: indent_width, base_indent"
  | _ => none

end Fault

end Stencil
