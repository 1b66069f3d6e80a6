import Stencil.Expression.Basic
import Stencil.Value.Reader

/-! The words that expressions are written in. -/

namespace Stencil
namespace Expression

inductive Sign where
  | plus
  | minus
  | star
  | slash
  | doubleSlash
  | percent
  | doubleStar
  | tilde
  | equal
  | unequal
  | less
  | lessEqual
  | greater
  | greaterEqual
  | assign
  | dot
  | comma
  | colon
  | pipe
  | openParen
  | closeParen
  | openBracket
  | closeBracket
  | openBrace
  | closeBrace
  deriving DecidableEq, Repr

inductive Word where
  | name (text : Text)
  | int (number : Nat)
  | float (number : Float)
  | string (text : Text)
  | sign (sign : Sign)
  deriving Repr

def Word.isSign (sign : Sign) : Word → Bool
  | .sign found => found = sign
  | _ => false

def Word.isKeyword (keyword : String) : Word → Bool
  | .name found => found = keyword.toList
  | _ => false

/-! ### Signs -/

def pairSign? (first second : Char) : Option Sign :=
  if first = '/' ∧ second = '/' then some .doubleSlash
  else if first = '*' ∧ second = '*' then some .doubleStar
  else if first = '=' ∧ second = '=' then some .equal
  else if first = '!' ∧ second = '=' then some .unequal
  else if first = '>' ∧ second = '=' then some .greaterEqual
  else if first = '<' ∧ second = '=' then some .lessEqual
  else none

def singleSigns : List (Char × Sign) := [
  ('+', .plus), ('-', .minus), ('*', .star), ('/', .slash), ('%', .percent), ('~', .tilde),
  ('<', .less), ('>', .greater), ('=', .assign), ('.', .dot), (',', .comma), (':', .colon),
  ('|', .pipe), ('(', .openParen), (')', .closeParen), ('[', .openBracket),
  (']', .closeBracket), ('\x7b', .openBrace), ('\x7d', .closeBrace)]

def singleSign? (character : Char) : Option Sign :=
  (singleSigns.find? fun entry => entry.1 = character).map Prod.snd

/-! ### Names -/

def isNameStart (character : Char) : Bool :=
  character.isAlpha || character = '_'

def isNameCharacter (character : Char) : Bool :=
  character.isAlphanum || character = '_'

/-! ### Numbers -/

inductive NumberPart where
  | whole
  | fraction
  | exponent
  | power
  | based (base : Nat)
  deriving DecidableEq, Repr

/-- The part of a number that a character goes on with, if it does.  A point in front
of a name is no part of the number before it, but asks for a member. -/
def NumberPart.step (part : NumberPart) (character : Char) (rest : Text) : Option NumberPart :=
  if character = '_' then some part
  else if character.isDigit then
    match part with
    | .exponent => some .power
    | _ => some part
  else
    match part with
    | .whole =>
        if character = '.' && !rest.head?.any isNameStart then some .fraction
        else if character = 'e' ∨ character = 'E' then some .exponent
        else none
    | .fraction => if character = 'e' ∨ character = 'E' then some .exponent else none
    | .exponent => if character = '+' ∨ character = '-' then some .power else none
    | .based 16 => if (Text.hexDigit? character).isSome then some part else none
    | _ => none

def numberExtent (part : NumberPart) : Text → Text × NumberPart
  | [] => ([], part)
  | character :: rest =>
      match part.step character rest with
      | none => ([], part)
      | some next =>
          let (others, last) := numberExtent next rest
          (character :: others, last)

/-- An integer, which must fit into 128 bits. -/
def intWord (base : Nat) (digits : Text) : Except Flaw Word :=
  match Text.number? base digits with
  | some number => if number < Nat.pow 2 128 then .ok (.int number) else .error .malformed
  | none => .error .malformed

/-- The double nearest to decimal digits times a power of ten.  Powers far out of
range are decided by the number of digits alone. -/
def nearestFloat (digits : Nat) (exponent : Int) : Float :=
  let magnitude := ((Text.decimal digits).length : Int) + exponent
  if digits = 0 ∨ magnitude < -400 then 0.0
  else if 400 < magnitude then 1.0 / 0.0
  else Float.ofScientific digits (exponent < 0) exponent.natAbs

def floatWord (written : Text) : Except Flaw Word :=
  let whole := written.takeWhile Char.isDigit
  let afterWhole := written.dropWhile Char.isDigit
  let unpointed := if afterWhole.head? = some '.' then afterWhole.tail else afterWhole
  let fraction := unpointed.takeWhile Char.isDigit
  match Value.readPower (unpointed.dropWhile Char.isDigit) with
  | some (power, []) =>
      .ok (.float (nearestFloat (Text.digitsValue (whole ++ fraction))
        (power.getD 0 - fraction.length)))
  | _ => .error .malformed

def baseOf (first : Char) (rest : Text) : Option Nat :=
  if first ≠ '0' then none
  else
    match rest with
    | 'b' :: _ | 'B' :: _ => some 2
    | 'o' :: _ | 'O' :: _ => some 8
    | 'x' :: _ | 'X' :: _ => some 16
    | _ => none

/-- The number that starts with the digit `first`, and how many of the following
characters belong to it.  Underscores may stand anywhere but at the end. -/
def readNumber (first : Char) (rest : Text) : Except Flaw (Word × Nat) :=
  let base := baseOf first rest
  let start := match base with
    | some base => numberExtent (.based base) rest.tail
    | none => numberExtent .whole (first :: rest)
  let written := start.1
  let digits := written.filter (· ≠ '_')
  let taken := if base.isSome then written.length + 1 else written.length - 1
  if written.getLast? = some '_' then .error .malformed
  else
    match start.2 with
    | .based base => (intWord base digits).map fun word => (word, taken)
    | .whole => (intWord 10 digits).map fun word => (word, taken)
    | _ => (floatWord digits).map fun word => (word, taken)

/-! ### Strings -/

def stringExtent (quote : Char) : Text → Option Text
  | [] => none
  | [last] => if last = quote then some [] else none
  | first :: second :: rest =>
      if first = quote then some []
      else if first = '\\' then (stringExtent quote rest).map fun inner => first :: second :: inner
      else (stringExtent quote (second :: rest)).map fun inner => first :: inner

def unescapeString : Text → Option Text
  | [] => some []
  | character :: rest =>
      if character = '\\' then
        match rest with
        | [] => none
        | letter :: others =>
            if letter = 'u' then
              match Value.unicodeEscape? others with
              | none => none
              | some (found, taken) =>
                  (unescapeString (others.drop taken)).map fun text => found :: text
            else if letter = '\x27' then
              (unescapeString others).map fun text => letter :: text
            else
              match Value.letterEscape? letter with
              | none => none
              | some found => (unescapeString others).map fun text => found :: text
      else (unescapeString rest).map fun text => character :: text
termination_by text => text.length
decreasing_by all_goals simp_all <;> omega

def readString (quote : Char) (rest : Text) : Except Flaw (Word × Nat) :=
  match stringExtent quote rest with
  | none => .error .malformed
  | some inner =>
      match unescapeString inner with
      | none => .error .malformed
      | some text => .ok (.string text, inner.length + 1)

/-! ### Words -/

def isGap (character : Char) : Bool :=
  character ∈ [' ', '\t', '\n', '\r', '\x0c']

/-- The word that starts with `first`, and how many of the following characters
belong to it. -/
def readWord (first : Char) (rest : Text) : Except Flaw (Word × Nat) :=
  match rest.head?.bind (pairSign? first) with
  | some sign => .ok (.sign sign, 1)
  | none =>
      match singleSign? first with
      | some sign => .ok (.sign sign, 0)
      | none =>
          if first = '\x22' ∨ first = '\x27' then readString first rest
          else if first.isDigit then readNumber first rest
          else if isNameStart first then
            let others := rest.takeWhile isNameCharacter
            .ok (.name (first :: others), others.length)
          else .error .malformed

def bracketsAfter (depth : Nat) : Word → Nat
  | .sign .openParen | .sign .openBracket | .sign .openBrace => depth + 1
  | .sign .closeParen | .sign .closeBracket | .sign .closeBrace => depth - 1
  | _ => depth

/-- The words of an expression in a snippet, up to the mark that closes it. -/
structure Enclosed where
  words : List Word
  /-- The blank text after the mark is dropped. -/
  trimAfter : Bool
  rest : Text

/-- What follows a closing mark, and whether the mark asks to trim. -/
def closedBy? (mark text : Text) : Option (Bool × Text) :=
  match Text.afterLead mark text with
  | some rest => some (false, rest)
  | none =>
      match Text.afterLead ('-' :: mark) text with
      | some rest => some (true, rest)
      | none => (Text.afterLead ('+' :: mark) text).map fun rest => (false, rest)

/-- Reads words up to a closing mark that stands outside of all brackets. -/
def readEnclosed (mark : Text) (depth : Nat) (text : Text) : Except Flaw Enclosed :=
  match text with
  | [] => .error .malformed
  | first :: rest =>
      if isGap first then readEnclosed mark depth rest
      else
        match if depth = 0 then closedBy? mark (first :: rest) else none with
        | some (trimAfter, after) => .ok { words := [], trimAfter := trimAfter, rest := after }
        | none =>
            match readWord first rest with
            | .error flaw => .error flaw
            | .ok (word, taken) =>
                match readEnclosed mark (bracketsAfter depth word) (rest.drop taken) with
                | .error flaw => .error flaw
                | .ok enclosed => .ok { enclosed with words := word :: enclosed.words }
termination_by text.length
decreasing_by
  · simp only [List.length_cons]
    omega
  · simp only [List.length_cons, List.length_drop]
    omega

theorem length_le_of_closedBy? {mark text rest : Text} {trims : Bool}
    (closed : closedBy? mark text = some (trims, rest)) : rest.length ≤ text.length := by
  unfold closedBy? at closed
  split at closed
  next _ found =>
    rw [Text.afterLead_eq_some_iff] at found
    simp only [Option.some.injEq, Prod.mk.injEq] at closed
    simp [found, ← closed.2]
  next =>
    split at closed
    next _ found =>
      rw [Text.afterLead_eq_some_iff] at found
      simp only [Option.some.injEq, Prod.mk.injEq] at closed
      simp only [found, ← closed.2, List.length_append]
      omega
    next =>
      obtain ⟨after, found, equal⟩ := Option.map_eq_some_iff.1 closed
      rw [Text.afterLead_eq_some_iff] at found
      simp only [Prod.mk.injEq] at equal
      simp only [found, ← equal.2, List.length_append]
      omega

theorem rest_length_le_of_readEnclosed {mark : Text} {depth : Nat} {text : Text}
    {enclosed : Enclosed} (read : readEnclosed mark depth text = .ok enclosed) :
    enclosed.rest.length ≤ text.length := by
  fun_induction readEnclosed mark depth text generalizing enclosed with
  | case1 => simp at read
  | case2 depth first rest _ inductionHypothesis =>
      have := inductionHypothesis read
      simp only [List.length_cons]
      omega
  | case3 depth first rest _ trimAfter after closed =>
      simp only [Except.ok.injEq] at read
      subst read
      split at closed
      · exact length_le_of_closedBy? closed
      · simp at closed
  | case4 => simp at read
  | case5 => simp at read
  | case6 depth first rest _ _ word taken _ inner readInner inductionHypothesis =>
      simp only [Except.ok.injEq] at read
      subst read
      have := inductionHypothesis readInner
      simp only [List.length_drop] at this
      simp only [List.length_cons]
      omega

def readWords (text : Text) : Except Flaw (List Word) :=
  match text with
  | [] => .ok []
  | first :: rest =>
      if isGap first then readWords rest
      else
        match readWord first rest with
        | .error flaw => .error flaw
        | .ok (word, taken) => (readWords (rest.drop taken)).map fun words => word :: words
termination_by text.length
decreasing_by
  · simp only [List.length_cons]
    omega
  · simp only [List.length_cons, List.length_drop]
    omega

end Expression
end Stencil
