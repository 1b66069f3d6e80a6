import Stencil.Expression.Word

/-! Reading expressions from words.

From the loosest to the tightest, the levels are: `if`, `or`, `and`, `not`,
comparisons, sums, `~`, products, powers, and operands.  Operators of a level
associate to the left, but comparisons form a chain in which every operand is
compared with the next one.  A minus sign binds to the primary after it, and members,
items, filters and tests apply to the result.  Brackets may be nested up to a fixed
depth. -/

namespace Stencil
namespace Expression

abbrev Parse (α : Type) := Except Flaw (α × List Word)

/-- The levels of operators, loosest first. -/
inductive Level where
  | disjunction
  | conjunction
  | negation
  | comparison
  | sum
  | concatenation
  | product
  | power
  deriving DecidableEq, Repr

def Level.tighter : Level → Option Level
  | .disjunction => some .conjunction
  | .conjunction => some .negation
  | .negation => some .comparison
  | .comparison => some .sum
  | .sum => some .concatenation
  | .concatenation => some .product
  | .product => some .power
  | .power => none

def comparisonOf : Sign → Option Comparison
  | .equal => some .equal
  | .unequal => some .unequal
  | .less => some .less
  | .lessEqual => some .lessEqual
  | .greater => some .greater
  | .greaterEqual => some .greaterEqual
  | _ => none

def comparisonAt : List Word → Option (Comparison × List Word)
  | .sign sign :: rest => (comparisonOf sign).map fun comparison => (comparison, rest)
  | first :: rest =>
      if first.isKeyword "in" then some (.isIn, rest)
      else
        match rest with
        | second :: others =>
            if first.isKeyword "not" ∧ second.isKeyword "in" then some (.isNotIn, others)
            else none
        | [] => none
  | [] => none

/-- The operator of a level at the start of words, as a way to join two operands,
and the words after it.  Comparisons are not joined by two. -/
def operatorAt (level : Level) : List Word → Option ((Expr → Expr → Expr) × List Word)
  | .sign sign :: rest =>
      let op : Option BinaryOp :=
        match level, sign with
        | .sum, .plus => some .add
        | .sum, .minus => some .subtract
        | .concatenation, .tilde => some .concat
        | .product, .star => some .multiply
        | .product, .slash => some .divide
        | .product, .doubleSlash => some .floorDivide
        | .product, .percent => some .modulo
        | .power, .doubleStar => some .power
        | _, _ => none
      op.map fun op => (.binary op, rest)
  | first :: rest =>
      match level with
      | .disjunction => if first.isKeyword "or" then some (.or, rest) else none
      | .conjunction => if first.isKeyword "and" then some (.and, rest) else none
      | _ => none
  | [] => none

def chained (first : Expr) (links : List (Comparison × Expr)) : Expr :=
  if links.isEmpty then first else .chain first links

def integerLiteral (number : Nat) : Datum :=
  if number < Nat.pow 2 64 then .int number else .wide number

def constantOf (name : Text) : Option Datum :=
  if name ∈ ["true".toList, "True".toList] then some (.bool true)
  else if name ∈ ["false".toList, "False".toList] then some (.bool false)
  else if name ∈ ["none".toList, "None".toList] then some .none
  else none

/-- Whether a word starts the argument of a test that stands without brackets. -/
def startsArgument (word : Word) : Bool :=
  match word with
  | .name name =>
      name ∉ ["and".toList, "or".toList, "else".toList, "is".toList]
  | .int _ | .float _ | .string _ => true
  | .sign sign => sign ∈ [.plus, .minus, .openBracket, .openBrace]

structure Arguments where
  positional : List Expr := []
  named : List (Text × Expr) := []

def expect (sign : Sign) : List Word → Except Flaw (List Word)
  | first :: rest => if first.isSign sign then .ok rest else .error .malformed
  | [] => .error .malformed

mutual

/-- Reads an expression.  The first argument bounds the depth of the reading. -/
def parseExpr : Nat → List Word → Parse Expr
  | 0, _ => .error .malformed
  | steps + 1, words =>
      match parseLevel steps .disjunction words with
      | .error flaw => .error flaw
      | .ok (first, rest) => parseConditions steps first rest

def parseConditions : Nat → Expr → List Word → Parse Expr
  | 0, _, _ => .error .malformed
  | steps + 1, value, words =>
      match words with
      | keyword :: rest =>
          if keyword.isKeyword "if" then
            match parseLevel steps .disjunction rest with
            | .error flaw => .error flaw
            | .ok (condition, afterCondition) =>
                match afterCondition with
                | other :: afterOther =>
                    if other.isKeyword "else" then
                      match parseExpr steps afterOther with
                      | .error flaw => .error flaw
                      | .ok (otherwise, last) =>
                          parseConditions steps (.conditional condition value (some otherwise)) last
                    else
                      parseConditions steps (.conditional condition value none) afterCondition
                | [] => .ok (.conditional condition value none, [])
          else .ok (value, words)
      | [] => .ok (value, [])

def parseLevel : Nat → Level → List Word → Parse Expr
  | 0, _, _ => .error .malformed
  | steps + 1, level, words =>
      match level, words with
      | .negation, keyword :: rest =>
          if keyword.isKeyword "not" then
            (parseLevel steps .negation rest).map fun (operand, last) => (.not operand, last)
          else parseLevel steps .comparison words
      | .comparison, _ =>
          match parseTighter steps .comparison words with
          | .error flaw => .error flaw
          | .ok (first, rest) =>
              (parseLinks steps rest).map fun (links, last) => (chained first links, last)
      | _, _ =>
          match parseTighter steps level words with
          | .error flaw => .error flaw
          | .ok (first, rest) => parseOperators steps level first rest

def parseTighter : Nat → Level → List Word → Parse Expr
  | 0, _, _ => .error .malformed
  | steps + 1, level, words =>
      match level.tighter with
      | some next => parseLevel steps next words
      | none => parseOperand steps words

def parseOperators : Nat → Level → Expr → List Word → Parse Expr
  | 0, _, _, _ => .error .malformed
  | steps + 1, level, first, words =>
      match operatorAt level words with
      | none => .ok (first, words)
      | some (join, rest) =>
          match parseTighter steps level rest with
          | .error flaw => .error flaw
          | .ok (second, last) => parseOperators steps level (join first second) last

def parseLinks : Nat → List Word → Parse (List (Comparison × Expr))
  | 0, _ => .error .malformed
  | steps + 1, words =>
      match comparisonAt words with
      | none => .ok ([], words)
      | some (comparison, rest) =>
          match parseTighter steps .comparison rest with
          | .error flaw => .error flaw
          | .ok (operand, last) =>
              (parseLinks steps last).map fun (links, final) =>
                ((comparison, operand) :: links, final)

def parseOperand : Nat → List Word → Parse Expr
  | 0, _ => .error .malformed
  | steps + 1, words =>
      match parseSigned steps words with
      | .error flaw => .error flaw
      | .ok (operand, rest) =>
          match parseMembers steps operand rest with
          | .error flaw => .error flaw
          | .ok (extended, last) => parseFilters steps extended last

def parseSigned : Nat → List Word → Parse Expr
  | 0, _ => .error .malformed
  | steps + 1, words =>
      match words with
      | .sign .minus :: rest =>
          (parseSigned steps rest).map fun (operand, last) => (.negate operand, last)
      | _ => parsePrimary steps words

def parsePrimary : Nat → List Word → Parse Expr
  | 0, _ => .error .malformed
  | steps + 1, words =>
      match words with
      | .name name :: rest =>
          match constantOf name with
          | some datum => .ok (.constant datum, rest)
          | none => .ok (.reference name, rest)
      | .int number :: rest => .ok (.constant (integerLiteral number), rest)
      | .float number :: rest => .ok (.constant (.float number), rest)
      | .string text :: rest => .ok (.constant (.string text), rest)
      | .sign .openParen :: rest => parseGroup steps rest
      | .sign .openBracket :: rest =>
          (parseItems steps .closeBracket true rest).map fun (items, last) => (.list items, last)
      | .sign .openBrace :: rest =>
          (parseEntries steps true rest).map fun (entries, last) => (.map entries, last)
      | _ => .error .malformed

def parseGroup : Nat → List Word → Parse Expr
  | 0, _ => .error .malformed
  | steps + 1, words =>
      match words with
      | .sign .closeParen :: rest => .ok (.list [], rest)
      | _ =>
          match parseExpr steps words with
          | .error flaw => .error flaw
          | .ok (first, rest) =>
              match rest with
              | .sign .comma :: _ =>
                  (parseItems steps .closeParen false rest).map fun (items, last) =>
                    (.list (first :: items), last)
              | _ => (expect .closeParen rest).map fun last => (first, last)

/-- Reads items up to a closing sign.  A comma stands between items, and may stand
after the last. -/
def parseItems : Nat → Sign → (atStart : Bool) → List Word → Parse (List Expr)
  | 0, _, _, _ => .error .malformed
  | steps + 1, closing, atStart, words =>
      match words with
      | [] => .error .malformed
      | first :: rest =>
          if first.isSign closing then .ok ([], rest)
          else
            match if atStart then .ok words else expect .comma words with
            | .error flaw => .error flaw
            | .ok afterComma =>
                match afterComma with
                | [] => .error .malformed
                | next :: afterNext =>
                    if next.isSign closing then .ok ([], afterNext)
                    else
                      match parseExpr steps afterComma with
                      | .error flaw => .error flaw
                      | .ok (item, last) =>
                          (parseItems steps closing false last).map fun (items, final) =>
                            (item :: items, final)

def parseEntries : Nat → (atStart : Bool) → List Word → Parse (List (Expr × Expr))
  | 0, _, _ => .error .malformed
  | steps + 1, atStart, words =>
      match words with
      | [] => .error .malformed
      | first :: rest =>
          if first.isSign .closeBrace then .ok ([], rest)
          else
            match if atStart then .ok words else expect .comma words with
            | .error flaw => .error flaw
            | .ok afterComma =>
                match afterComma with
                | [] => .error .malformed
                | next :: afterNext =>
                    if next.isSign .closeBrace then .ok ([], afterNext)
                    else
                      match parseExpr steps afterComma with
                      | .error flaw => .error flaw
                      | .ok (key, afterKey) =>
                          match expect .colon afterKey with
                          | .error flaw => .error flaw
                          | .ok afterColon =>
                              match parseExpr steps afterColon with
                              | .error flaw => .error flaw
                              | .ok (value, last) =>
                                  (parseEntries steps false last).map fun (entries, final) =>
                                    ((key, value) :: entries, final)

def parseArguments : Nat → (atStart : Bool) → List Word → Parse Arguments
  | 0, _, _ => .error .malformed
  | steps + 1, atStart, words =>
      match words with
      | [] => .error .malformed
      | first :: rest =>
          if first.isSign .closeParen then .ok ({}, rest)
          else
            match if atStart then .ok words else expect .comma words with
            | .error flaw => .error flaw
            | .ok afterComma =>
                match afterComma with
                | .sign .closeParen :: last => .ok ({}, last)
                | .name name :: .sign .assign :: afterAssign =>
                    match parseExpr steps afterAssign with
                    | .error flaw => .error flaw
                    | .ok (value, last) =>
                        match parseArguments steps false last with
                        | .error flaw => .error flaw
                        | .ok (arguments, final) =>
                            if arguments.positional.isEmpty then
                              .ok ({ arguments with named := (name, value) :: arguments.named },
                                final)
                            else .error .malformed
                | _ =>
                    match parseExpr steps afterComma with
                    | .error flaw => .error flaw
                    | .ok (value, last) =>
                        (parseArguments steps false last).map fun (arguments, final) =>
                          ({ arguments with positional := value :: arguments.positional }, final)

def parseMembers : Nat → Expr → List Word → Parse Expr
  | 0, _, _ => .error .malformed
  | steps + 1, operand, words =>
      match words with
      | .sign .dot :: .name name :: rest => parseMembers steps (.member operand name) rest
      | .sign .dot :: _ => .error .malformed
      | .sign .openBracket :: rest =>
          match parseExpr steps rest with
          | .error flaw => .error flaw
          | .ok (key, afterKey) =>
              match expect .closeBracket afterKey with
              | .error flaw => .error flaw
              | .ok last => parseMembers steps (.item operand key) last
      | .sign .openParen :: rest =>
          match parseArguments steps true rest with
          | .error flaw => .error flaw
          | .ok (arguments, last) =>
              parseMembers steps (.call operand arguments.positional arguments.named) last
      | _ => .ok (operand, words)

def parseFilters : Nat → Expr → List Word → Parse Expr
  | 0, _, _ => .error .malformed
  | steps + 1, operand, words =>
      match words with
      | .sign .pipe :: .name name :: .sign .openParen :: rest =>
          match parseArguments steps true rest with
          | .error flaw => .error flaw
          | .ok (arguments, last) =>
              parseFilters steps (.filter operand name arguments.positional arguments.named) last
      | .sign .pipe :: .name name :: rest =>
          parseFilters steps (.filter operand name [] []) rest
      | .sign .pipe :: _ => .error .malformed
      | first :: rest =>
          if first.isKeyword "is" then
            match rest with
            | second :: others =>
                if second.isKeyword "not" then
                  match parseTest steps operand others with
                  | .error flaw => .error flaw
                  | .ok (test, last) => parseFilters steps (.not test) last
                else
                  match parseTest steps operand rest with
                  | .error flaw => .error flaw
                  | .ok (test, last) => parseFilters steps test last
            | [] => .error .malformed
          else .ok (operand, words)
      | [] => .ok (operand, [])

def parseTest : Nat → Expr → List Word → Parse Expr
  | 0, _, _ => .error .malformed
  | steps + 1, operand, words =>
      match words with
      | .name name :: .sign .openParen :: rest =>
          (parseArguments steps true rest).map fun (arguments, last) =>
            (.test operand name arguments.positional, last)
      | .name name :: rest =>
          if rest.head?.any startsArgument then
            match parseSigned steps rest with
            | .error flaw => .error flaw
            | .ok (argument, afterArgument) =>
                (parseMembers steps argument afterArgument).map fun (extended, last) =>
                  (.test operand name [extended], last)
          else .ok (.test operand name [], rest)
      | _ => .error .malformed

end

/-- A bound on the depth of reading words: every word passes a fixed number of
levels. -/
def depthFor (words : List Word) : Nat :=
  16 * (words.length + 2)

/-- The greatest number of brackets around a word, if `depth` stand around the first;
a closing bracket does not count as a word inside. -/
def nesting (depth : Nat) : List Word → Nat
  | [] => 0
  | word :: rest =>
      let after := bracketsAfter depth word
      max (if after < depth then 0 else depth) (nesting after rest)

def nestingLimit : Nat := 149

def parseUnconditional (words : List Word) : Parse Expr :=
  if nestingLimit < nesting 0 words then .error .malformed
  else parseLevel (depthFor words) .disjunction words

def parseAll (words : List Word) : Except Flaw Expr :=
  if nestingLimit < nesting 0 words then .error .malformed
  else
    match parseExpr (depthFor words) words with
    | .ok (expr, []) => .ok expr
    | .ok (_, _ :: _) => .error .malformed
    | .error flaw => .error flaw

def parse (text : Text) : Except Flaw Expr :=
  match readWords text with
  | .error flaw => .error flaw
  | .ok words => parseAll words

end Expression
end Stencil
