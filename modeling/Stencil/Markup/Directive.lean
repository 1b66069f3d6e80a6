import Stencil.Fault
import Stencil.Text.Digits

/-! Meta directives: lines such as `!!! xml version="1.0"`.

The line is cut into words, and the words are read as an optional kind and a
list of named values.  A value with a backslash is read like the words of a
command shell, which start outside of quotes. -/

namespace Stencil
namespace Markup

structure Directive where
  kind : Text
  attributes : List (Text × Text)
  deriving DecidableEq, Repr

namespace Directive

/-! ### Words -/

inductive Word where
  | marker
  | equals
  | name (text : Text)
  | quoted (quote : Char) (inner : Text)
  /-- Text that starts no other word. -/
  | junk (text : Text)
  deriving DecidableEq, Repr

def Word.slice : Word → Text
  | .marker => "!!!".toList
  | .equals => "=".toList
  | .name text => text
  | .quoted quote inner => quote :: inner ++ [quote]
  | .junk text => text

def isNameStart (character : Char) : Bool :=
  character.isAlpha || character = '_'

def isNameCharacter (character : Char) : Bool :=
  character.isAlphanum || character = '_' || character = '.' || character = ':' ||
    character = '-'

/-- The text of a quotation up to its closing quote, and whether it is closed.  A
backslash takes the next character with it, unless that is a newline. -/
def quotation (quote : Char) : Text → Text × Bool
  | [] => ([], false)
  | [last] => if last = quote then ([], true) else ([last], false)
  | first :: second :: rest =>
      if first = quote then ([], true)
      else if first = '\\' then
        if second = '\n' then ([first], false)
        else
          let (inner, closed) := quotation quote rest
          (first :: second :: inner, closed)
      else
        let (inner, closed) := quotation quote (second :: rest)
        (first :: inner, closed)

def readWord (first : Char) (rest : Text) : Word × Nat :=
  if first = '!' then
    if Text.startsWith "!!".toList rest then (.marker, 2)
    else if Text.startsWith "!".toList rest then (.junk "!!".toList, 1)
    else (.junk [first], 0)
  else if first = '=' then (.equals, 0)
  else if isNameStart first then
    let others := rest.takeWhile isNameCharacter
    (.name (first :: others), others.length)
  else if first = '\x22' ∨ first = '\x27' then
    match quotation first rest with
    | (inner, true) => (.quoted first inner, inner.length + 1)
    | (inner, false) => (.junk (first :: inner), inner.length)
  else (.junk [first], 0)

def words : Text → List Word
  | [] => []
  | first :: rest =>
      if first = ' ' then words rest
      else
        let (word, taken) := readWord first rest
        word :: words (rest.drop taken)
termination_by text => text.length
decreasing_by
  · simp only [List.length_cons]
    omega
  · simp only [List.length_cons, List.length_drop]
    omega

/-! ### Values -/

inductive Quoting where
  | plain
  | single
  | double
  deriving DecidableEq, Repr

/-- The character whose code point is written in hexadecimal, with an optional
plus sign. -/
def codePoint? (digits : Text) : Option Char :=
  (Text.hexValue? (if digits.head? = some '+' then digits.tail else digits)).bind Text.scalar?

def escaped? (letter : Char) : Option Char :=
  if letter = 'a' then some '\x07'
  else if letter = 'b' then some '\x08'
  else if letter = 'v' then some '\x0b'
  else if letter = 'f' then some '\x0c'
  else if letter = 'n' then some '\n'
  else if letter = 'r' then some '\r'
  else if letter = 't' then some '\t'
  else if letter = 'e' ∨ letter = 'E' then some '\x1b'
  else if letter ∈ ['\\', '\x27', '\x22', '$', '\x60', ' '] then some letter
  else none

/-- Reads a value like the words of a command shell: quotes are dropped and
change the mode, and only between double quotes a backslash escapes. -/
def unescape : Quoting → Text → Option Text
  | _, [] => some []
  | .plain, character :: rest =>
      if character = '\x27' then unescape .single rest
      else if character = '\x22' then unescape .double rest
      else (unescape .plain rest).map (character :: ·)
  | .single, character :: rest =>
      if character = '\x27' then unescape .plain rest
      else (unescape .single rest).map (character :: ·)
  | .double, character :: rest =>
      if character = '\x22' then unescape .plain rest
      else if character = '\\' then
        match rest with
        | [] => none
        | 'u' :: '\x7b' :: others =>
            let digits := others.takeWhile (· ≠ '\x7d')
            match codePoint? digits with
            | some found => (unescape .double (others.drop (digits.length + 1))).map (found :: ·)
            | none => none
        | letter :: others =>
            match escaped? letter with
            | some found => (unescape .double others).map (found :: ·)
            | none => none
      else (unescape .double rest).map (character :: ·)
termination_by _ text => text.length
decreasing_by all_goals simp_all <;> omega

/-- The value between two quotes; without a backslash it is taken as it stands. -/
def decodeValue (inner : Text) : Except DirectiveFlaw Text :=
  if '\\' ∈ inner then
    match unescape .plain inner with
    | some value => .ok value
    | none => .error .badEscape
  else .ok inner

/-! ### Directives -/

def valueOf : Word → Except DirectiveFlaw Text
  | .quoted _ inner => decodeValue inner
  | _ => .error .missingValue

def attributesOf : List Word → Except DirectiveFlaw (List (Text × Text))
  | [] => .ok []
  | .name name :: .equals :: value :: rest =>
      match valueOf value with
      | .error flaw => .error flaw
      | .ok value =>
          match attributesOf rest with
          | .error flaw => .error flaw
          | .ok attributes => .ok ((name, value) :: attributes)
  | [.name _, .equals] => .error .missingValue
  | .name name :: _ => .error (.missingQuote name)
  | word :: _ => .error (.unexpected word.slice)

def defaultKind : Text := "xml".toList

/-- The directive that a list of words stands for.  A name right after the marker
is the kind unless a value is assigned to it. -/
def ofWords : List Word → Except DirectiveFlaw Directive
  | .marker :: .name name :: .equals :: rest =>
      (attributesOf (.name name :: .equals :: rest)).map fun attributes =>
        { kind := defaultKind, attributes := attributes }
  | .marker :: .name name :: rest =>
      (attributesOf rest).map fun attributes =>
        { kind := name, attributes := attributes }
  | .marker :: rest =>
      (attributesOf rest).map fun attributes =>
        { kind := defaultKind, attributes := attributes }
  | _ => .error .missingMarker

def parse (number : Nat) (line : Text) : Except Fault Directive :=
  match ofWords (words line) with
  | .ok directive => .ok directive
  | .error flaw => .error (.parse number (.malformedDirective flaw))

end Directive

end Markup
end Stencil
