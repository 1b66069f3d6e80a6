import Stencil.Expression.Basic
import Stencil.Text.Blank

/-! The filters and tests of expressions.

A filter takes the datum before the bar and the arguments in brackets.  A text
argument must not be undefined.  A text argument that may be left out is also left
out by none. -/

namespace Stencil
namespace Filter

/-! ### Arguments -/

/-- A text argument: a string, or else the printed form. -/
def textOf : Datum → Except Flaw Text
  | .undefined => .error .undefinedValue
  | datum => .ok datum.print

def textOr (standard : Text) : Datum → Except Flaw Text
  | .undefined => .error .undefinedValue
  | .absent | .none => .ok standard
  | datum => .ok datum.print

/-- A named flag that may be left out; it must be a truth value. -/
def flagOf (name flag : Text) (named : List (Text × Datum)) : Except Flaw Bool :=
  match named.lookup flag with
  | none | some .undefined | some .absent | some .none => .ok false
  | some (.bool truth) => .ok truth
  | some _ => .error (.badArguments name)

/-! ### Texts -/

/-- Replaces every occurrence of a text.  `skip` characters belong to an occurrence
that is replaced already. -/
def replaceFrom (old new : Text) (skip : Nat) : Text → Text
  | [] => []
  | first :: rest =>
      match skip with
      | remaining + 1 => replaceFrom old new remaining rest
      | 0 =>
          if Text.startsWith old (first :: rest) then
            new ++ replaceFrom old new (old.length - 1) rest
          else first :: replaceFrom old new 0 rest

/-- Replaces every occurrence of a text; the empty text occurs around every
character. -/
def replace (old new text : Text) : Text :=
  if old.isEmpty then new ++ text.flatMap fun character => character :: new
  else replaceFrom old new 0 text

def trimCharacters (characters text : Text) : Text :=
  ((text.dropWhile (· ∈ characters)).reverse.dropWhile (· ∈ characters)).reverse

def join (joiner : Text) : List Datum → Text
  | [] => []
  | [item] => item.print
  | item :: others => item.print ++ joiner ++ join joiner others

/-! ### Lists -/

/-- The order in which items are sorted: without regard to the case of ASCII
letters, unless case matters. -/
def sortOrder (caseMatters : Bool) : Datum → Datum → Ordering
  | .string first, .string second =>
      if caseMatters then Text.order first second
      else Text.order (Text.asciiLower first) (Text.asciiLower second)
  | first, second => first.order second

def insertSorted (comesBefore : Datum → Datum → Bool) (item : Datum) : List Datum → List Datum
  | [] => [item]
  | other :: others =>
      if comesBefore other item then other :: insertSorted comesBefore item others
      else item :: other :: others

/-- Sorted items, upwards or downwards; equal ones keep their order. -/
def sort (caseMatters downwards : Bool) (items : List Datum) : List Datum :=
  let wanted : Ordering := if downwards then .gt else .lt
  items.foldr (insertSorted fun first second => sortOrder caseMatters first second = wanted) []

def itemsOf (datum : Datum) : Except Flaw (List Datum) :=
  match datum with
  | .undefined => .error .undefinedValue
  | _ =>
      match datum.items? with
      | some items => .ok items
      | none => .error .notIterable

def first (name : Text) : Datum → Except Flaw Datum
  | .string text => .ok ((text.head?.map fun character => .string [character]).getD .undefined)
  | .list items | .stream items => .ok (items.head?.getD .undefined)
  | .map entries => .ok ((entries.head?.map Prod.fst).getD .undefined)
  | _ => .error (.badArguments name)

def last (name : Text) : Datum → Except Flaw Datum
  | .string text => .ok ((text.getLast?.map fun character => .string [character]).getD .undefined)
  | .list items | .stream items => .ok (items.getLast?.getD .undefined)
  | _ => .error (.badArguments name)

/-- A text or a list from its end.  The keys of a map stay in their order, and what
has no value stays as it is. -/
def reverse (name : Text) : Datum → Except Flaw Datum
  | .undefined => .ok .undefined
  | .absent => .ok .absent
  | .none => .ok .none
  | .string text => .ok (.string text.reverse)
  | .list items | .stream items => .ok (.stream items.reverse)
  | .map entries => .ok (.stream (entries.map Prod.fst))
  | _ => .error (.badArguments name)

/-- The printed items of a datum with a text between them; what has no value has no
items. -/
def joined (datum joiner : Datum) : Except Flaw Datum :=
  match textOr [] joiner with
  | .error flaw => .error flaw
  | .ok text =>
      if datum.isUndefined then .ok (.string [])
      else (itemsOf datum).map fun items => .string (join text items)

def trimmed (datum characters : Datum) : Except Flaw Datum :=
  match textOf datum with
  | .error flaw => .error flaw
  | .ok text =>
      match characters with
      | .undefined => .error .undefinedValue
      | .absent | .none => .ok (.string (Text.trim text))
      | given => .ok (.string (trimCharacters given.print text))

/-- A datum, or a standard in place of what is undefined; with `lax` also in place
of what counts as false. -/
def orDefault (datum standard : Datum) (lax : Bool) : Datum :=
  if datum.isUndefined || (lax && !datum.truth) then standard else datum

/-! ### Filters by name -/

def names : List Text :=
  ["upper".toList, "lower".toList, "length".toList, "count".toList, "trim".toList,
    "replace".toList, "join".toList, "sort".toList, "first".toList, "last".toList,
    "reverse".toList, "default".toList, "d".toList]

def sorted (name : Text) (datum : Datum) (named : List (Text × Datum)) : Except Flaw Datum :=
  match itemsOf datum, flagOf name "case_sensitive".toList named,
      flagOf name "reverse".toList named with
  | .ok items, .ok caseMatters, .ok downwards =>
      if named.all fun entry => entry.1 ∈ ["case_sensitive".toList, "reverse".toList] then
        .ok (.list (sort caseMatters downwards items))
      else .error (.badArguments name)
  | .error flaw, _, _ | _, .error flaw, _ | _, _, .error flaw => .error flaw

def apply (name : Text) (datum : Datum) (arguments : List Datum)
    (named : List (Text × Datum)) : Except Flaw Datum :=
  match String.ofList name, arguments, named with
  | "upper", [], [] => (textOf datum).map fun text => .string (Text.upper text)
  | "lower", [], [] => (textOf datum).map fun text => .string (Text.lower text)
  | "length", [], [] | "count", [], [] =>
      match datum.length? with
      | some length => .ok (.int length)
      | none => .error (.badArguments name)
  | "trim", [], [] => trimmed datum .none
  | "trim", [characters], [] => trimmed datum characters
  | "replace", [old, new], [] =>
      match textOf datum, textOf old, textOf new with
      | .ok text, .ok oldText, .ok newText => .ok (.string (replace oldText newText text))
      | _, _, _ => .error .undefinedValue
  | "join", [], [] => joined datum .none
  | "join", [joiner], [] => joined datum joiner
  | "sort", [], named => sorted name datum named
  | "first", [], [] => first name datum
  | "last", [], [] => last name datum
  | "reverse", [], [] => reverse name datum
  | "default", [], [] | "d", [], [] => .ok (orDefault datum (.string []) false)
  | "default", [standard], [] | "d", [standard], [] => .ok (orDefault datum standard false)
  | "default", [standard, lax], [] | "d", [standard, lax], [] =>
      .ok (orDefault datum standard lax.truth)
  | _, _, _ => .error (if name ∈ names then .badArguments name else .unknownFilter name)

def test (name : Text) (datum : Datum) (arguments : List Datum) : Except Flaw Datum :=
  match String.ofList name, arguments with
  | "defined", [] => .ok (.bool !datum.isUndefined)
  | "undefined", [] => .ok (.bool datum.isUndefined)
  | "none", [] => .ok (.bool (datum matches .none))
  | _, _ => .error (.unknownTest name)

end Filter
end Stencil
