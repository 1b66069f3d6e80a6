import Stencil.Decimal.Order
import Stencil.Text.LetterCase
import Stencil.Text.Quoted
import Stencil.Value.Basic

/-! Data: what expressions compute with.

A datum is a value, or undefined, or absent.  Undefined is what has no value and
must not be used; absent is the outcome of a condition that chose nothing, which
is printed as nothing.  Unlike an object, a map may have keys of any kind.

Every two data are comparable.  The order goes by kind first: what has no value,
none, truth values, numbers, texts, lists, maps, streams.  Within a kind, numbers
go by their exact value, texts by code points, and collections item by item.
Equality is wider: a truth value equals its number, and a list equals a stream with
the same items. -/

namespace Stencil

inductive Datum where
  | undefined
  | absent
  | none
  | bool (truth : Bool)
  | int (number : Int)
  /-- A literal of more than 64 bits, as an unsigned word of 128 bits. -/
  | wide (number : Nat)
  | float (number : Float)
  | string (text : Text)
  | list (items : List Datum)
  /-- Items that are made from other items. -/
  | stream (items : List Datum)
  | map (entries : List (Datum × Datum))
  deriving Repr

namespace Datum

def isUndefined : Datum → Bool
  | .undefined | .absent => true
  | _ => false

/-! ### Numbers -/

inductive Number where
  | int (number : Int)
  | wide (number : Nat)
  | float (number : Float)

/-- The number of a datum; truth values count as zero and one. -/
def number? : Datum → Option Number
  | .bool truth => some (.int (if truth then 1 else 0))
  | .int number => some (.int number)
  | .wide number => some (.wide number)
  | .float number => some (.float number)
  | _ => Option.none

def Number.toFloat : Number → Float
  | .int number => Float.ofInt number
  | .wide number => Float.ofNat number
  | .float number => number

/-- An unsigned word of 128 bits, read with a sign. -/
def signedWord (number : Nat) : Int :=
  if number < Nat.pow 2 127 then number else (number : Int) - Nat.pow 2 128

/-- The integer that a datum stands for as an index; a double must be one. -/
def index? : Datum → Option Int
  | .bool truth => some (if truth then 1 else 0)
  | .int number => some number
  | .float number =>
      let whole : Int := number.toInt64.toInt
      if Float.ofInt whole == number then some whole else Option.none
  | _ => Option.none

/-- The order of two numbers.  Two wide literals are read with a sign. -/
def Number.order : Number → Number → Ordering
  | .int first, .int second => Ord.compare first second
  | .int first, .wide second => Ord.compare first second
  | .wide first, .int second => Ord.compare (first : Int) second
  | .wide first, .wide second => Ord.compare (signedWord first) (signedWord second)
  | .float first, .float second => Decimal.order first second
  | .int first, .float second => Decimal.orderInt first second
  | .wide first, .float second => Decimal.orderInt first second
  | .float first, .int second => (Decimal.orderInt second first).swap
  | .float first, .wide second => (Decimal.orderInt second first).swap

def Number.same : Number → Number → Bool
  | .float first, .float second => first == second
  | .int first, .float second => Decimal.sameInt first second
  | .wide first, .float second => Decimal.sameInt first second
  | .float first, .int second => Decimal.sameInt second first
  | .float first, .wide second => Decimal.sameInt second first
  | first, second => first.order second = .eq

/-! ### Order and equality -/

def rank : Datum → Nat
  | .undefined | .absent => 0
  | .none => 1
  | .bool _ => 2
  | .int _ | .wide _ | .float _ => 3
  | .string _ => 4
  | .list _ => 5
  | .map _ => 6
  | .stream _ => 7

/-- The order of two data that have no parts: by kind, and then as numbers. -/
def orderPlain (first second : Datum) : Ordering :=
  match Ord.compare first.rank second.rank with
  | .eq =>
      match first.number?, second.number? with
      | some left, some right => left.order right
      | _, _ => .eq
  | decided => decided

mutual

def order : Datum → Datum → Ordering
  | .string first, .string second => Text.order first second
  | .list first, .list second => orderItems first second
  | .stream first, .stream second => orderItems first second
  | .map first, .map second => orderEntries first second
  | first, second => orderPlain first second

def orderItems : List Datum → List Datum → Ordering
  | [], [] => .eq
  | [], _ :: _ => .lt
  | _ :: _, [] => .gt
  | first :: firstRest, second :: secondRest =>
      match order first second with
      | .eq => orderItems firstRest secondRest
      | decided => decided

def orderEntries : List (Datum × Datum) → List (Datum × Datum) → Ordering
  | [], [] => .eq
  | [], _ :: _ => .lt
  | _ :: _, [] => .gt
  | (key, value) :: firstRest, (otherKey, otherValue) :: secondRest =>
      match order key otherKey with
      | .eq =>
          match order value otherValue with
          | .eq => orderEntries firstRest secondRest
          | decided => decided
      | decided => decided

end

mutual

def same : Datum → Datum → Bool
  | .none, .none => true
  | .string first, .string second => first = second
  | .list first, .list second => sameItems first second
  | .list first, .stream second => sameItems first second
  | .stream first, .list second => sameItems first second
  | .stream first, .stream second => sameItems first second
  | .map first, .map second => sameEntries first second
  | first, second =>
      match first.number?, second.number? with
      | some left, some right => left.same right
      | _, _ => first.isUndefined && second.isUndefined

def sameItems : List Datum → List Datum → Bool
  | [], [] => true
  | first :: firstRest, second :: secondRest => same first second && sameItems firstRest secondRest
  | _, _ => false

def sameEntries : List (Datum × Datum) → List (Datum × Datum) → Bool
  | [], [] => true
  | (key, value) :: firstRest, (otherKey, otherValue) :: secondRest =>
      order key otherKey = .eq && same value otherValue && sameEntries firstRest secondRest
  | _, _ => false

end

def truth : Datum → Bool
  | .undefined | .absent | .none => false
  | .bool truth => truth
  | .int number => number ≠ 0
  | .wide number => number ≠ 0
  | .float number => number != 0.0
  | .string text => !text.isEmpty
  | .list items | .stream items => !items.isEmpty
  | .map entries => !entries.isEmpty

/-! ### Maps and members -/

/-- Puts an entry into a map that is ordered by key; a later value of a key
replaces the earlier one. -/
def insertEntry (key value : Datum) : List (Datum × Datum) → List (Datum × Datum)
  | [] => [(key, value)]
  | (other, held) :: entries =>
      match order key other with
      | .lt => (key, value) :: (other, held) :: entries
      | .eq => (other, value) :: entries
      | .gt => (other, held) :: insertEntry key value entries

def ofEntries (entries : List (Datum × Datum)) : Datum :=
  .map (entries.foldl (fun held entry => insertEntry entry.1 entry.2 held) [])

def lookUp (key : Datum) (entries : List (Datum × Datum)) : Option Datum :=
  (entries.find? fun entry => order entry.1 key = .eq).map Prod.snd

/-- The item at an index, which counts from the end if it is negative. -/
def itemAt {α : Type} (items : List α) (index : Int) : Option α :=
  if 0 ≤ index then items[index.toNat]?
  else if index.natAbs ≤ items.length then items[items.length - index.natAbs]?
  else Option.none

/-- The member of a datum under a name; undefined if it has none. -/
def member (name : Text) : Datum → Datum
  | .map entries => (lookUp (.string name) entries).getD .undefined
  | _ => .undefined

/-- The item of a datum under a key; undefined if it has none. -/
def item (key : Datum) : Datum → Datum
  | .map entries => (lookUp key entries).getD .undefined
  | .list items | .stream items => ((index? key).bind (itemAt items)).getD .undefined
  | .string text =>
      (((index? key).bind (itemAt text)).map fun character => .string [character]).getD .undefined
  | _ => .undefined

def items? : Datum → Option (List Datum)
  | .none | .undefined | .absent => some []
  | .string text => some (text.map fun character => .string [character])
  | .list items | .stream items => some items
  | .map entries => some (entries.map Prod.fst)
  | _ => Option.none

def length? : Datum → Option Nat
  | .string text => some text.length
  | .list items | .stream items => some items.length
  | .map entries => some entries.length
  | _ => Option.none

/-! ### Text -/

def floatText (style : Decimal.Style) (number : Float) : Text :=
  if number.isNaN then "NaN".toList
  else if number.isInf then if number < 0.0 then "-inf".toList else "inf".toList
  else style.finite number.toBits

mutual

def listing : Datum → Text
  | .undefined | .absent => "undefined".toList
  | .none => "None".toList
  | .bool true => "True".toList
  | .bool false => "False".toList
  | .int number => Decimal.signed number
  | .wide number => Text.decimal number
  | .float number => floatText .listing number
  | .string text => Text.quoted text
  | .list items => '[' :: listingItems items ++ [']']
  | .stream items => '[' :: listingItems items ++ [']']
  | .map entries => '\x7b' :: listingEntries entries ++ ['\x7d']

def listingItems : List Datum → Text
  | [] => []
  | [item] => listing item
  | item :: others => listing item ++ ", ".toList ++ listingItems others

def listingEntries : List (Datum × Datum) → Text
  | [] => []
  | [(key, value)] => listing key ++ ": ".toList ++ listing value
  | (key, value) :: others =>
      listing key ++ ": ".toList ++ listing value ++ ", ".toList ++ listingEntries others

end

/-- A datum as it is printed: a string as it is, everything else as in a listing. -/
def print : Datum → Text
  | .undefined | .absent => []
  | .string text => text
  | .float number => floatText .prose number
  | datum => listing datum

/-! ### Values -/

mutual

def ofValue : Value → Datum
  | .null => .none
  | .bool truth => .bool truth
  | .int number => .int number
  | .float number => .float number
  | .string text => .string text
  | .array items => .list (ofItems items)
  | .object members => .map (ofMembers members)

def ofItems : List Value → List Datum
  | [] => []
  | item :: others => ofValue item :: ofItems others

def ofMembers : List (Text × Value) → List (Datum × Datum)
  | [] => []
  | (name, value) :: others => (.string name, ofValue value) :: ofMembers others

end

def memberName? : Datum → Option Text
  | .string text => some text
  | .int number => some (Decimal.signed number)
  | .wide number => some (Text.decimal number)
  | .bool true => some "true".toList
  | .bool false => some "false".toList
  | .float number => if number.isFinite then some (floatText .data number) else Option.none
  | _ => Option.none

mutual

/-- The value of a datum, unless an integer or a key has no place in values. -/
def toValue? : Datum → Option Value
  | .undefined | .absent | .none => some .null
  | .bool truth => some (.bool truth)
  | .int number =>
      if -(Nat.pow 2 63 : Int) ≤ number ∧ number < Nat.pow 2 64 then some (.int number)
      else Option.none
  | .wide _ => Option.none
  | .float number => some (if number.isFinite then .float number else .null)
  | .string text => some (.string text)
  | .list items => (toItems? items).map .array
  | .stream items => (toItems? items).map .array
  | .map entries => (toMembers? entries).map Value.ofMembers

def toItems? : List Datum → Option (List Value)
  | [] => some []
  | item :: others =>
      match toValue? item, toItems? others with
      | some value, some values => some (value :: values)
      | _, _ => Option.none

def toMembers? : List (Datum × Datum) → Option (List (Text × Value))
  | [] => some []
  | (key, value) :: others =>
      match memberName? key, toValue? value, toMembers? others with
      | some name, some held, some members => some ((name, held) :: members)
      | _, _, _ => Option.none

end

end Datum

end Stencil
