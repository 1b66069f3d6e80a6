/-!
Texts as lists of characters.

A template is read line by line and character by character, so a text is the
list of its Unicode scalar values and every reader is a recursion on it.  This
module cuts texts into lines, unifies their line breaks, and strips or replaces
fixed parts.  Classes of characters are in `Stencil.Text.Blank` and
`Stencil.Text.Word`.
-/

namespace Stencil

abbrev Text := List Char

instance : LawfulBEq Text := List.instLawfulBEq

namespace Text

/-! ### Lines -/

/-- The lines of a text.  A final newline opens no further line, and the empty
text has no lines. -/
def lines : Text → List Text
  | [] => []
  | character :: rest =>
      if character = '\n' then [] :: lines rest
      else
        match lines rest with
        | [] => [[character]]
        | line :: others => (character :: line) :: others

/-- The pieces of a text between its newlines.  There is always one piece more
than there are newlines. -/
def pieces : Text → List Text
  | [] => [[]]
  | character :: rest =>
      if character = '\n' then [] :: pieces rest
      else
        match pieces rest with
        | [] => [[character]]
        | piece :: others => (character :: piece) :: others

theorem pieces_ne_nil (text : Text) : pieces text ≠ [] := by
  cases text with
  | nil => simp [pieces]
  | cons character rest =>
      unfold pieces
      split
      · simp
      · split <;> simp

def afterFirstLine : Text → Text
  | [] => []
  | character :: rest => if character = '\n' then rest else afterFirstLine rest

/-- Turns every carriage return that stands before a newline, together with
that newline, into the newline alone. -/
def joinReturns : Text → Text
  | [] => []
  | '\r' :: '\n' :: rest => '\n' :: joinReturns rest
  | character :: rest => character :: joinReturns rest

/-- One style of line break: a return with its newline, and every remaining
return, becomes a newline. -/
def unifyBreaks (text : Text) : Text :=
  (joinReturns text).map fun character =>
    if character = '\r' then '\n' else character

/-! ### Fixed parts -/

def afterLead : (lead text : Text) → Option Text
  | [], text => some text
  | _ :: _, [] => none
  | expected :: lead, character :: rest =>
      if expected = character then afterLead lead rest else none

theorem afterLead_eq_some_iff {lead text rest : Text} :
    afterLead lead text = some rest ↔ text = lead ++ rest := by
  induction lead generalizing text with
  | nil => simp [afterLead]
  | cons expected lead ih =>
      cases text with
      | nil => simp [afterLead]
      | cons character others =>
          by_cases same : expected = character
          · subst same
            simp [afterLead, ih]
          · simp [afterLead, same, Ne.symm same]

def startsWith (lead text : Text) : Bool :=
  (afterLead lead text).isSome

def dropFinalNewline (text : Text) : Text :=
  if text.getLast? = some '\n' then text.dropLast else text

def leadingSpaces (line : Text) : Nat :=
  (line.takeWhile (· = ' ')).length

theorem leadingSpaces_le_length (line : Text) : leadingSpaces line ≤ line.length :=
  (List.takeWhile_sublist _).length_le

def spaces (width : Nat) : Text :=
  List.replicate width ' '

def decimal (number : Nat) : Text :=
  Nat.toDigits 10 number

def digitsValue (digits : Text) : Nat :=
  digits.foldl (fun value digit => value * 10 + (digit.toNat - '0'.toNat)) 0

def order : Text → Text → Ordering
  | [], [] => .eq
  | [], _ :: _ => .lt
  | _ :: _, [] => .gt
  | first :: firstRest, second :: secondRest =>
      if first < second then .lt
      else if second < first then .gt
      else order firstRest secondRest

def asciiLower (text : Text) : Text :=
  text.map Char.toLower

end Text

end Stencil
