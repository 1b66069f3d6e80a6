import Stencil.Decimal.Remainder
import Stencil.Expression.Basic

/-! What the operators of expressions compute.

Integers have 128 bits with a sign, and a result outside of them is refused.  An
operation on an integer and a double is one on doubles.  Lists that are put together
or repeated become streams. -/

namespace Stencil
namespace Operator

def isInRange (number : Int) : Bool :=
  -(Nat.pow 2 127 : Int) ≤ number && number < Nat.pow 2 127

def intResult (operation : String) (number : Int) : Except Flaw Datum :=
  if isInRange number then .ok (.int number) else .error (.badOperands operation)

inductive Operands where
  | ints (first second : Int)
  | floats (first second : Float)

/-- The operands of arithmetic.  Two wide literals are words of 128 bits with a sign;
a wide literal beside an integer must fit into such a word. -/
def operands? (first second : Datum) : Option Operands :=
  match first.number?, second.number? with
  | some (.int left), some (.int right) => some (.ints left right)
  | some (.wide left), some (.wide right) =>
      some (.ints (Datum.signedWord left) (Datum.signedWord right))
  | some (.wide left), some (.int right) =>
      if isInRange left then some (.ints left right) else none
  | some (.int left), some (.wide right) =>
      if isInRange right then some (.ints left right) else none
  | some left, some right => some (.floats left.toFloat right.toFloat)
  | _, _ => none

def arithmetic (operation : String) (onInts : Int → Int → Int)
    (onFloats : Float → Float → Float) (first second : Datum) : Except Flaw Datum :=
  match operands? first second with
  | some (.ints left right) => intResult operation (onInts left right)
  | some (.floats left right) => .ok (.float (onFloats left right))
  | none => .error (.badOperands operation)

def sequence? : Datum → Option (List Datum)
  | .list items | .stream items => some items
  | _ => none

def add (first second : Datum) : Except Flaw Datum :=
  match first, second with
  | .string left, .string right => .ok (.string (left ++ right))
  | _, _ =>
      match sequence? first, sequence? second with
      | some left, some right => .ok (.stream (left ++ right))
      | _, _ => arithmetic "+" (· + ·) (· + ·) first second

def repetitions (count : Datum) : Except Flaw Nat :=
  match count.index? with
  | some number => if 0 ≤ number then .ok number.toNat else .error (.badOperands "*")
  | none => .error (.badOperands "*")

def repeated {α : Type} (items : List α) (count : Nat) : List α :=
  (List.replicate count items).flatten

def multiply (first second : Datum) : Except Flaw Datum :=
  match first, second with
  | .string text, count | count, .string text =>
      (repetitions count).map fun times => .string (repeated text times)
  | _, _ =>
      match sequence? first, sequence? second with
      | some items, _ => (repetitions second).map fun times => .stream (repeated items times)
      | none, some items => (repetitions first).map fun times => .stream (repeated items times)
      | none, none => arithmetic "*" (· * ·) (· * ·) first second

/-- Quotient, which is always a double. -/
def divide (first second : Datum) : Except Flaw Datum :=
  match first.number?, second.number? with
  | some left, some right => .ok (.float (left.toFloat / right.toFloat))
  | _, _ => .error (.badOperands "/")

/-- Division with a whole quotient, or its remainder; an integer is not divided by
zero. -/
def wholeDivision (operation : String) (onInts : Int → Int → Int)
    (onFloats : Float → Float → Float) (first second : Datum) : Except Flaw Datum :=
  match operands? first second with
  | some (.ints left right) =>
      if right = 0 then .error (.badOperands operation)
      else intResult operation (onInts left right)
  | some (.floats left right) => .ok (.float (onFloats left right))
  | none => .error (.badOperands operation)

/-- A power of integers, unless its size is beyond every bound. -/
def intPower (base : Int) (exponent : Nat) : Except Flaw Datum :=
  if base.natAbs ≤ 1 then
    intResult "**" (Int.pow base (if exponent = 0 then 0 else 2 - exponent % 2))
  else if 127 < exponent then .error (.badOperands "**")
  else intResult "**" (Int.pow base exponent)

/-- Power; the exponent of an integer is not negative. -/
def power (first second : Datum) : Except Flaw Datum :=
  match operands? first second with
  | some (.ints base exponent) =>
      if 0 ≤ exponent && exponent < Nat.pow 2 32 then intPower base exponent.toNat
      else .error (.badOperands "**")
  | some (.floats base exponent) => .ok (.float (base.pow exponent))
  | none => .error (.badOperands "**")

def concat (first second : Datum) : Except Flaw Datum :=
  match first, second with
  | .undefined, _ | _, .undefined => .error .undefinedValue
  | _, _ => .ok (.string (first.print ++ second.print))

def occursIn (part : Text) : Text → Bool
  | [] => part.isEmpty
  | first :: rest => Text.startsWith part (first :: rest) || occursIn part rest

/-- Whether a text holds the printed form of a datum, a list an item or a map a key. -/
def isIn (item container : Datum) : Except Flaw Bool :=
  match container with
  | .absent => .ok false
  | .string text => .ok (occursIn item.print text)
  | .list items | .stream items => .ok (items.any item.same)
  | .map entries => .ok (Datum.lookUp item entries).isSome
  | _ => .error (.badOperands "in")

def compareDefined (comparison : Comparison) (first second : Datum) : Except Flaw Bool :=
  match comparison with
  | .equal => .ok (first.same second)
  | .unequal => .ok (!first.same second)
  | .less => .ok (first.order second = .lt)
  | .lessEqual => .ok (first.order second ≠ .gt)
  | .greater => .ok (first.order second = .gt)
  | .greaterEqual => .ok (first.order second ≠ .lt)
  | .isIn => isIn first second
  | .isNotIn => (isIn first second).map fun found => !found

def compare (comparison : Comparison) (first second : Datum) : Except Flaw Bool :=
  match first, second with
  | .undefined, _ | _, .undefined => .error .undefinedValue
  | _, _ => compareDefined comparison first second

def apply (op : BinaryOp) (first second : Datum) : Except Flaw Datum :=
  match op with
  | .add => add first second
  | .subtract => arithmetic "-" (· - ·) (· - ·) first second
  | .multiply => multiply first second
  | .divide => divide first second
  | .floorDivide => wholeDivision "//" Int.ediv Decimal.wholeQuotient first second
  | .modulo => wholeDivision "%" Int.emod Decimal.remainder first second
  | .power => power first second
  | .concat => concat first second

/-- The negative of a number; truth values are no numbers here. -/
def negate : Datum → Except Flaw Datum
  | .int number => intResult "-" (-number)
  | .wide number => intResult "-" (-number)
  | .float number => .ok (.float (-number))
  | _ => .error (.badOperands "-")

/-- Whether a condition holds; it must not be undefined. -/
def holds : Datum → Except Flaw Bool
  | .undefined => .error .undefinedValue
  | datum => .ok datum.truth

end Operator
end Stencil
