import Stencil.Decimal.Style

/-! Values: what parameters hold and what embedded code evaluates to.

An object keeps its members in the order of their names, each name once.  The
text of a value is the value itself for a string, nothing for null, and compact
JSON for everything else. -/

namespace Stencil

/-- A JSON value; integers and doubles are told apart. -/
inductive Value where
  | null
  | bool (truth : Bool)
  | int (number : Int)
  | float (number : Float)
  | string (text : Text)
  | array (items : List Value)
  | object (members : List (Text × Value))
  deriving Repr

namespace Value

/-- Puts a member into a list that is ordered by name; a later value of a name
replaces the earlier one. -/
def insertMember {α : Type} (name : Text) (value : α) : List (Text × α) → List (Text × α)
  | [] => [(name, value)]
  | (other, held) :: members =>
      match Text.order name other with
      | .lt => (name, value) :: (other, held) :: members
      | .eq => (name, value) :: members
      | .gt => (other, held) :: insertMember name value members

def ofMembers (members : List (Text × Value)) : Value :=
  .object (members.foldl (fun held member => insertMember member.1 member.2 held) [])

def member? (name : Text) : Value → Option Value
  | .object members => (members.find? fun held => held.1 = name).map Prod.snd
  | _ => none

/-! ### JSON text -/

def hexPair (code : Nat) : Text :=
  [Nat.digitChar (code / 16 % 16), Nat.digitChar (code % 16)]

def jsonCharacter (character : Char) : Text :=
  if character = '\x22' then ['\\', '\x22']
  else if character = '\\' then ['\\', '\\']
  else if character = '\x08' then ['\\', 'b']
  else if character = '\x0c' then ['\\', 'f']
  else if character = '\n' then ['\\', 'n']
  else if character = '\r' then ['\\', 'r']
  else if character = '\t' then ['\\', 't']
  else if character.toNat < 0x20 then "\\u00".toList ++ hexPair character.toNat
  else [character]

def jsonString (text : Text) : Text :=
  '\x22' :: text.flatMap jsonCharacter ++ ['\x22']

/-- A double in JSON; what is not finite has no number there. -/
def jsonFloat (number : Float) : Text :=
  if number.isFinite then Decimal.Style.data.finite number.toBits else "null".toList

mutual

def toJson : Value → Text
  | .null => "null".toList
  | .bool true => "true".toList
  | .bool false => "false".toList
  | .int number => Decimal.signed number
  | .float number => jsonFloat number
  | .string text => jsonString text
  | .array items => '[' :: jsonItems items ++ [']']
  | .object members => '\x7b' :: jsonMembers members ++ ['\x7d']

def jsonItems : List Value → Text
  | [] => []
  | [item] => toJson item
  | item :: others => toJson item ++ ',' :: jsonItems others

def jsonMembers : List (Text × Value) → Text
  | [] => []
  | [(name, value)] => jsonString name ++ ':' :: toJson value
  | (name, value) :: others =>
      jsonString name ++ ':' :: toJson value ++ ',' :: jsonMembers others

end

def toText : Value → Text
  | .null => []
  | .string text => text
  | value => toJson value

end Value

abbrev Parameters := List (Text × Value)

end Stencil
