import Stencil.Expression.Eval
import Stencil.Snippet.Basic

/-! The text of a snippet, given what its names stand for. -/

namespace Stencil
namespace Snippet

def printed : Datum → Except Flaw Text
  | .undefined => .error .undefinedValue
  | datum => .ok datum.print

def roundInfo (index count : Nat) : Datum :=
  Datum.ofEntries [
    (.string "index".toList, .int (index + 1)),
    (.string "index0".toList, .int index),
    (.string "revindex".toList, .int (count - index)),
    (.string "revindex0".toList, .int (count - index - 1)),
    (.string "first".toList, .bool (index = 0)),
    (.string "last".toList, .bool (index + 1 = count)),
    (.string "length".toList, .int count)]

def guarded (scope : Scope) (name : Text) (guard : Option Expr) :
    List Datum → Except Flaw (List Datum)
  | [] => .ok []
  | item :: others =>
      match guard with
      | none => .ok (item :: others)
      | some condition =>
          match condition.eval (scope.put name item) with
          | .error flaw => .error flaw
          | .ok datum =>
              match Operator.holds datum with
              | .error flaw => .error flaw
              | .ok holds =>
                  (guarded scope name guard others).map fun items =>
                    if holds then item :: items else items

/-- Runs the rounds of a loop, each with its number, and joins their texts.  What a
round assigns is gone with it. -/
def rounds (scope : Scope) (name : Text) (count : Nat)
    (round : Scope → Except Flaw (Text × Scope)) : Nat → List Datum → Except Flaw Text
  | _, [] => .ok []
  | index, item :: others =>
      match round ((scope.put "loop".toList (roundInfo index count)).put name item) with
      | .error flaw => .error flaw
      | .ok (written, _) =>
          (rounds scope name count round (index + 1) others).map fun rest => written ++ rest

mutual

def render (scope : Scope) : Snippet → Except Flaw (Text × Scope)
  | .text written => .ok (written, scope)
  | .print value =>
      match value.eval scope with
      | .error flaw => .error flaw
      | .ok datum => (printed datum).map fun written => (written, scope)
  | .assign name value =>
      (value.eval scope).map fun datum => ([], scope.put name datum)
  | .choice condition body otherwise =>
      match condition.eval scope with
      | .error flaw => .error flaw
      | .ok datum =>
          match Operator.holds datum with
          | .error flaw => .error flaw
          | .ok true => renderAll scope body
          | .ok false => renderAll scope otherwise
  | .loop name range guard body otherwise =>
      match range.eval scope with
      | .error flaw => .error flaw
      | .ok datum =>
          match Filter.itemsOf datum with
          | .error flaw => .error flaw
          | .ok all =>
              match guarded scope name guard all with
              | .error flaw => .error flaw
              | .ok [] => renderAll scope otherwise
              | .ok items =>
                  (rounds scope name items.length (fun inner => renderAll inner body) 0 items).map
                    fun written => (written, scope)

def renderAll (scope : Scope) : List Snippet → Except Flaw (Text × Scope)
  | [] => .ok ([], scope)
  | part :: others =>
      match render scope part with
      | .error flaw => .error flaw
      | .ok (written, next) =>
          (renderAll next others).map fun (rest, last) => (written ++ rest, last)

end

end Snippet
end Stencil
