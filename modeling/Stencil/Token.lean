import Stencil.Text.Quoted

/-! Tokens: the units a template is cut into, each with only the payload that is
meaningful for it, and lexemes, which are tokens with the line they start on. -/

namespace Stencil

inductive Token where
  /-- `%tag`, or the implied tag of a shortcut line. -/
  | element (tag : Text)
  /-- An attribute with a literal value: quoted, bare, a flag or a shortcut. -/
  | literalAttribute (name value : Text)
  /-- An attribute whose value is code between backticks. -/
  | codeAttribute (name code : Text)
  /-- The `/` that closes an attribute list. -/
  | selfClose
  /-- Literal text after `:` on an element line. -/
  | data (text : Text)
  | codeData (code : Text) (escape : Bool)
  | content (text : Text)
  /-- A line of code whose value is written. -/
  | codeContent (code : Text) (escape : Bool)
  /-- A comment block, one entry for each line. -/
  | comment (lines : List Text)
  /-- `!!! kind`; its attributes follow as attribute tokens. -/
  | directive (kind : Text)
  /-- `:name` and the lines of its body as they stand. -/
  | filter (name : Text) (lines : List Text)
  /-- A line of code that writes its own lines. -/
  | rawCode (code : Text)
  | indent
  | dedent
  /-- A run of blank lines. -/
  | blankLine
  deriving DecidableEq, Repr

namespace Token

inductive Kind where
  | element
  | anyAttribute
  | selfClose
  | data
  | content
  | comment
  | directive
  | filter
  | rawCode
  | indent
  | dedent
  | blankLine
  deriving DecidableEq, Repr

def Kind.label : Kind → String
  | .element => "element"
  | .anyAttribute => "attribute"
  | .selfClose => "self-close marker"
  | .data => "inline data"
  | .content => "content"
  | .comment => "comment"
  | .directive => "meta directive"
  | .filter => "filter"
  | .rawCode => "raw code"
  | .indent => "indent"
  | .dedent => "dedent"
  | .blankLine => "blank line"

def kind : Token → Kind
  | .element _ => .element
  | .literalAttribute _ _ | .codeAttribute _ _ => .anyAttribute
  | .selfClose => .selfClose
  | .data _ | .codeData _ _ => .data
  | .content _ | .codeContent _ _ => .content
  | .comment _ => .comment
  | .directive _ => .directive
  | .filter _ _ => .filter
  | .rawCode _ => .rawCode
  | .indent => .indent
  | .dedent => .dedent
  | .blankLine => .blankLine

/-- Whether a token only carries the layout of the template. -/
def isStructural : Token → Bool
  | .indent | .dedent | .blankLine => true
  | _ => false

def needsEscape : Token → Bool
  | .literalAttribute _ _ | .data _ | .content _ | .comment _ => true
  | .codeData _ escape | .codeContent _ escape => escape
  | _ => false

/-- The sign in front of code: escaped code has `=`, verbatim code `!=`. -/
def codeSign (escape : Bool) : Text :=
  if escape then "= ".toList else "!= ".toList

def describe : Token → Text
  | .element tag => '%' :: tag
  | .literalAttribute name value => name ++ '=' :: Text.quoted value
  | .codeAttribute name code => name ++ "=`".toList ++ code ++ "`".toList
  | .selfClose => "/".toList
  | .data text => ": ".toList ++ text
  | .codeData code escape => ": ".toList ++ codeSign escape ++ code
  | .content text => text
  | .codeContent code escape => codeSign escape ++ code
  | .comment lines => "// ".toList ++ " / ".toList.intercalate lines
  | .directive kind => "!!! ".toList ++ kind
  | .filter name lines =>
      ':' :: name ++ " (".toList ++ Text.decimal lines.length ++ " lines)".toList
  | .rawCode code => "- ".toList ++ code
  | .indent => "<indent>".toList
  | .dedent => "<dedent>".toList
  | .blankLine => "<blank>".toList

end Token

/-- A token with the number of the line it starts on. -/
structure Lexeme where
  token : Token
  line : Nat
  deriving DecidableEq, Repr

end Stencil
