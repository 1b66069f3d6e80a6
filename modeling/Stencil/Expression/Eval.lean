import Stencil.Expression.Filter
import Stencil.Expression.Operator

/-! The value of an expression, given what its names stand for.

Of `and` and `or` the value is one of the operands.  An `and` of constants that does
not hold is the exception: it is false. -/

namespace Stencil

/-- What names stand for; the first entry of a name counts. -/
abbrev Scope := List (Text × Datum)

namespace Scope

def get (name : Text) (scope : Scope) : Datum :=
  (scope.lookup name).getD .undefined

def put (name : Text) (datum : Datum) (scope : Scope) : Scope :=
  (name, datum) :: scope

def ofParameters (parameters : Parameters) : Scope :=
  parameters.map fun parameter => (parameter.1, Datum.ofValue parameter.2)

end Scope

namespace Expr

def within (container : Datum) (part : Datum → Datum) : Except Flaw Datum :=
  if container.isUndefined then .error .undefinedValue else .ok (part container)

def literal? : Expr → Option Datum
  | .constant datum => some datum
  | _ => none

def literalEntry? (entry : Expr × Expr) : Option (Datum × Datum) :=
  match entry.1.literal?, entry.2.literal? with
  | some key, some value => some (key, value)
  | _, _ => none

def bothConstant (first second : Datum) : Datum :=
  if first.truth && second.truth then second else .bool false

mutual

/-- The value of an expression that is made of constants alone.  The items of lists
and maps must be written out. -/
def constant? : Expr → Option Datum
  | .constant datum => some datum
  | .list items => (items.mapM literal?).map .list
  | .map entries => (entries.mapM literalEntry?).map Datum.ofEntries
  | .negate operand => (constant? operand).bind fun datum => (Operator.negate datum).toOption
  | .not operand => (constant? operand).map fun datum => .bool !datum.truth
  | .and first second =>
      match constant? first, constant? second with
      | some left, some right => some (bothConstant left right)
      | _, _ => none
  | .or first second =>
      match constant? first, constant? second with
      | some left, some right => some (if left.truth then left else right)
      | _, _ => none
  | .binary op first second =>
      match constant? first, constant? second with
      | some left, some right => (Operator.apply op left right).toOption
      | _, _ => none
  | .chain first links =>
      (constant? first).bind fun left => (constantLinks? left links).map .bool
  | _ => none

def constantLinks? (left : Datum) : List (Comparison × Expr) → Option Bool
  | [] => some true
  | (comparison, operand) :: links =>
      match constant? operand with
      | none => none
      | some right =>
          match Operator.compare comparison left right, constantLinks? right links with
          | .ok holds, some others => some (holds && others)
          | _, _ => none

end

mutual

def eval (scope : Scope) : Expr → Except Flaw Datum
  | .constant datum => .ok datum
  | .reference name => .ok (scope.get name)
  | .negate operand =>
      match eval scope operand with
      | .error flaw => .error flaw
      | .ok datum => Operator.negate datum
  | .not operand =>
      match eval scope operand with
      | .error flaw => .error flaw
      | .ok datum => (Operator.holds datum).map fun truth => .bool !truth
  | .and first second =>
      match constant? first, constant? second with
      | some left, some right => .ok (bothConstant left right)
      | _, _ =>
          match eval scope first with
          | .error flaw => .error flaw
          | .ok datum =>
              match Operator.holds datum with
              | .error flaw => .error flaw
              | .ok true => eval scope second
              | .ok false => .ok datum
  | .or first second =>
      match eval scope first with
      | .error flaw => .error flaw
      | .ok datum =>
          match Operator.holds datum with
          | .error flaw => .error flaw
          | .ok true => .ok datum
          | .ok false => eval scope second
  | .binary op first second =>
      match eval scope first with
      | .error flaw => .error flaw
      | .ok left =>
          match eval scope second with
          | .error flaw => .error flaw
          | .ok right => Operator.apply op left right
  | .chain first links =>
      match eval scope first with
      | .error flaw => .error flaw
      | .ok left => (evalLinks scope left links).map .bool
  | .member operand name =>
      match eval scope operand with
      | .error flaw => .error flaw
      | .ok datum => within datum (Datum.member name)
  | .item operand key =>
      match eval scope operand with
      | .error flaw => .error flaw
      | .ok datum =>
          match eval scope key with
          | .error flaw => .error flaw
          | .ok index => within datum (Datum.item index)
  | .list items => (evalAll scope items).map .list
  | .map entries => (evalEntries scope entries).map Datum.ofEntries
  | .filter operand name arguments named =>
      match eval scope operand with
      | .error flaw => .error flaw
      | .ok datum =>
          match evalAll scope arguments with
          | .error flaw => .error flaw
          | .ok values =>
              match evalNamed scope named with
              | .error flaw => .error flaw
              | .ok namedValues => Filter.apply name datum values namedValues
  | .test operand name arguments =>
      match eval scope operand with
      | .error flaw => .error flaw
      | .ok datum =>
          match evalAll scope arguments with
          | .error flaw => .error flaw
          | .ok values => Filter.test name datum values
  | .conditional condition value otherwise =>
      match eval scope condition with
      | .error flaw => .error flaw
      | .ok datum =>
          match Operator.holds datum with
          | .error flaw => .error flaw
          | .ok true => eval scope value
          | .ok false => evalOtherwise scope otherwise
  | .call _ _ _ => .error .notCallable

/-- Whether a chain of comparisons holds from an operand on.  What follows the first
comparison that does not hold is not evaluated. -/
def evalLinks (scope : Scope) (left : Datum) : List (Comparison × Expr) → Except Flaw Bool
  | [] => .ok true
  | (comparison, operand) :: links =>
      match eval scope operand with
      | .error flaw => .error flaw
      | .ok right =>
          match Operator.compare comparison left right with
          | .error flaw => .error flaw
          | .ok true => evalLinks scope right links
          | .ok false => .ok false

def evalOtherwise (scope : Scope) : Option Expr → Except Flaw Datum
  | none => .ok .absent
  | some otherwise => eval scope otherwise

def evalAll (scope : Scope) : List Expr → Except Flaw (List Datum)
  | [] => .ok []
  | first :: others =>
      match eval scope first with
      | .error flaw => .error flaw
      | .ok datum => (evalAll scope others).map fun data => datum :: data

def evalEntries (scope : Scope) : List (Expr × Expr) → Except Flaw (List (Datum × Datum))
  | [] => .ok []
  | (key, value) :: others =>
      match eval scope key with
      | .error flaw => .error flaw
      | .ok keyDatum =>
          match eval scope value with
          | .error flaw => .error flaw
          | .ok datum => (evalEntries scope others).map fun entries => (keyDatum, datum) :: entries

def evalNamed (scope : Scope) : List (Text × Expr) → Except Flaw (List (Text × Datum))
  | [] => .ok []
  | (name, value) :: others =>
      match eval scope value with
      | .error flaw => .error flaw
      | .ok datum => (evalNamed scope others).map fun entries => (name, datum) :: entries

end

end Expr
end Stencil
