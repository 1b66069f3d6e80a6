import Stencil.Expression.Parser
import Stencil.Text.Blank

/-! Cutting a snippet into text, expressions and tags.

An opening mark is a brace with a second brace, a percent sign or a hash: an
expression, a tag or a comment follows.  A minus sign inside of a mark drops the
blank text next to it. -/

namespace Stencil
namespace Snippet

open Expression

inductive Piece where
  | text (text : Text)
  | print (words : List Word)
  | tag (words : List Word)
  deriving Repr

def isOpening (first second : Char) : Bool :=
  first = '\x7b' && second ∈ ['\x7b', '%', '#']

def leadingText : Text → Text
  | first :: second :: rest =>
      if isOpening first second then [] else first :: leadingText (second :: rest)
  | short => short

/-- What follows a comment, and whether its mark asks to trim.  The flag says
whether a minus sign was read last. -/
def afterComment (afterMinus : Bool) : Text → Option (Bool × Text)
  | [] => none
  | first :: rest =>
      match first, rest with
      | '#', '\x7d' :: others => some (afterMinus, others)
      | _, _ => afterComment (first = '-') rest

theorem length_lt_of_afterComment {afterMinus trims : Bool} {text rest : Text}
    (found : afterComment afterMinus text = some (trims, rest)) : rest.length < text.length := by
  induction text generalizing afterMinus with
  | nil => simp [afterComment] at found
  | cons first others inductionHypothesis =>
      unfold afterComment at found
      split at found
      · simp only [Option.some.injEq, Prod.mk.injEq] at found
        simp only [← found.2, List.length_cons]
        omega
      · have := inductionHypothesis found
        simp only [List.length_cons]
        omega

def afterOpening : Text → Bool × Text
  | '-' :: rest => (true, rest)
  | '+' :: rest => (false, rest)
  | rest => (false, rest)

theorem length_afterOpening_le (text : Text) : (afterOpening text).2.length ≤ text.length := by
  unfold afterOpening
  split <;> simp

def between (trimBefore trimAfter : Bool) (text : Text) : Piece :=
  let started := if trimBefore then Text.trimStart text else text
  .text (if trimAfter then Text.trimEnd started else started)

/-- Cuts a text into pieces.  The flag says whether the mark before it asks to trim. -/
def cut (trimBefore : Bool) (text : Text) : Except Flaw (List Piece) :=
  let lead := leadingText text
  match _rest : text.drop lead.length with
  | _ :: kind :: rest =>
      let piece := between trimBefore (afterOpening rest).1 lead
      if kind = '#' then
        match _found : afterComment false rest with
        | none => .error .malformed
        | some (trimAfter, others) =>
            (cut trimAfter others).map fun pieces => piece :: pieces
      else
        let mark : Text := if kind = '%' then ['%', '\x7d'] else ['\x7d', '\x7d']
        match _read : readEnclosed mark 0 (afterOpening rest).2 with
        | .error flaw => .error flaw
        | .ok enclosed =>
            let word := if kind = '%' then Piece.tag enclosed.words else Piece.print enclosed.words
            (cut enclosed.trimAfter enclosed.rest).map fun pieces => piece :: word :: pieces
  | _ => .ok [between trimBefore false lead]
termination_by text.length
decreasing_by
  · have shorter := length_lt_of_afterComment _found
    have whole := congrArg List.length _rest
    simp only [List.length_drop, List.length_cons] at whole
    omega
  · have shorter := rest_length_le_of_readEnclosed _read
    have opening := length_afterOpening_le rest
    have whole := congrArg List.length _rest
    simp only [List.length_drop, List.length_cons] at whole
    omega

def withoutFinalBreak (text : Text) : Text :=
  let shorter := Text.dropFinalNewline text
  if shorter.getLast? = some '\r' then shorter.dropLast else shorter

/-- The pieces of a snippet.  One line break at its end does not count. -/
def pieces (text : Text) : Except Flaw (List Piece) :=
  cut false (withoutFinalBreak text)

end Snippet
end Stencil
