import Stencil.Expression.Datum

/-! Expressions as trees, and what can go wrong with them. -/

namespace Stencil

inductive Flaw where
  | malformed
  | undefinedValue
  | badOperands (operation : String)
  | unknownFilter (name : Text)
  | unknownTest (name : Text)
  | notCallable
  | badArguments (filter : Text)
  | notIterable
  | notRepresentable
  deriving DecidableEq, Repr

def Flaw.message : Flaw → Text
  | .malformed => "malformed code".toList
  | .undefinedValue => "undefined value".toList
  | .badOperands operation => "invalid operands of ".toList ++ operation.toList
  | .unknownFilter name => "unknown filter ".toList ++ name
  | .unknownTest name => "unknown test ".toList ++ name
  | .notCallable => "value is not callable".toList
  | .badArguments filter => "invalid arguments of filter ".toList ++ filter
  | .notIterable => "value is not iterable".toList
  | .notRepresentable => "value has no JSON form".toList

inductive BinaryOp where
  | add
  | subtract
  | multiply
  | divide
  | floorDivide
  | modulo
  | power
  | concat
  deriving DecidableEq, Repr

inductive Comparison where
  | equal
  | unequal
  | less
  | lessEqual
  | greater
  | greaterEqual
  | isIn
  | isNotIn
  deriving DecidableEq, Repr

inductive Expr where
  | constant (datum : Datum)
  | reference (name : Text)
  | negate (operand : Expr)
  | not (operand : Expr)
  | and (first second : Expr)
  | or (first second : Expr)
  | binary (op : BinaryOp) (first second : Expr)
  /-- Every operand is compared with the next one. -/
  | chain (first : Expr) (links : List (Comparison × Expr))
  | member (operand : Expr) (name : Text)
  | item (operand key : Expr)
  | list (items : List Expr)
  | map (entries : List (Expr × Expr))
  | filter (operand : Expr) (name : Text) (arguments : List Expr)
      (named : List (Text × Expr))
  | test (operand : Expr) (name : Text) (arguments : List Expr)
  | conditional (condition value : Expr) (otherwise : Option Expr)
  | call (function : Expr) (arguments : List Expr) (named : List (Text × Expr))
  deriving Repr

end Stencil
