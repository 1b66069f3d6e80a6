import Stencil.Proofs.Placement
import Stencil.Proofs.Recasting

/-! Two texts one after the other, and their lines.

With a newline and lines of spaces between them, two texts have the lines of the first, the
lines of spaces, and the lines of the second with higher numbers.  A pragma counts on the
first line of the first text only. -/

namespace Stencil

open Source (Recast)

/-! ### Joining texts -/

namespace Text

/-- What follows the last newline of a text; empty if the text ends in one. -/
def lastLine (text : Text) : Text :=
  text.pieces.getLastD []

/-- Two texts with a newline and then lines of so many spaces between them. -/
def joined (blanks : List Nat) (first second : Text) : Text :=
  first ++ '\n' :: (blanks.flatMap (fun width => spaces width ++ ['\n']) ++ second)

theorem lastLine_newline {line : Text} (rest : Text) (unbroken : '\n' ∉ line) :
    lastLine (line ++ '\n' :: rest) = lastLine rest := by
  unfold lastLine
  rw [pieces_newline rest unbroken]
  cases given : rest.pieces with
  | nil => exact absurd given (pieces_ne_nil rest)
  | cons piece others => rfl

theorem getLast?_pieces (text : Text) : text.pieces.getLast? = some text.lastLine := by
  unfold lastLine
  cases given : text.pieces with
  | nil => exact absurd given (pieces_ne_nil text)
  | cons piece others => rw [List.getLastD_cons, List.getLast?_cons, List.getLastD_eq_getLast?]

theorem lines_eq_pieces {text : Text} (given : text.lastLine ≠ []) : text.lines = text.pieces := by
  induction text using line_induction with
  | unbroken line free =>
      rw [lastLine, pieces_of_unbroken free] at given
      rw [pieces_of_unbroken free]
      exact lines_unbroken free given
  | broken line rest free ih =>
      rw [lastLine_newline rest free] at given
      rw [lines_newline rest free, pieces_newline rest free, ih given]

theorem lines_append_newline (text rest : Text) :
    lines (text ++ '\n' :: rest) = text.pieces ++ lines rest := by
  induction text using line_induction with
  | unbroken line free =>
      rw [lines_newline rest free, pieces_of_unbroken free]
      rfl
  | broken line later free ih =>
      rw [List.append_assoc, List.cons_append, lines_newline _ free, pieces_newline later free, ih]
      rfl

theorem lines_blanks (blanks : List Nat) (rest : Text) :
    lines (blanks.flatMap (fun width => spaces width ++ ['\n']) ++ rest) =
      blanks.map spaces ++ lines rest := by
  induction blanks with
  | nil => rfl
  | cons width others ih =>
      have free : '\n' ∉ spaces width := by simp [spaces]
      rw [List.flatMap_cons, List.append_assoc, List.append_assoc, List.singleton_append,
        lines_newline _ free, ih]
      rfl

theorem lines_joined {first : Text} (blanks : List Nat) (second : Text)
    (given : first.lastLine ≠ []) :
    lines (joined blanks first second) = first.lines ++ (blanks.map spaces ++ lines second) := by
  rw [joined, lines_append_newline, lines_blanks, lines_eq_pieces given]

theorem unifyBreaks_joined {first : Text} (blanks : List Nat) (second : Text)
    (free : '\r' ∉ first) :
    unifyBreaks (joined blanks first second) = joined blanks first second.unifyBreaks := by
  have spaced : '\r' ∉ blanks.flatMap (fun width => spaces width ++ ['\n']) := by
    simp [spaces]
  have lead : '\r' ∉ first ++ '\n' :: blanks.flatMap (fun width => spaces width ++ ['\n']) := by
    simp [free, spaced]
  have unified := unifyBreaks_append second lead
  simpa [joined] using unified

theorem joined_newline (blanks : List Nat) (first second : Text) :
    joined blanks (first ++ ['\n']) second = joined (0 :: blanks) first second := by
  simp [joined, spaces]

end Text

namespace Source

theorem numberFrom_append (first : Nat) (lines others : List Text) :
    numberFrom first (lines ++ others) =
      numberFrom first lines ++ numberFrom (first + lines.length) others := by
  induction lines generalizing first with
  | nil => rfl
  | cons line lines ih =>
      rw [List.cons_append, numberFrom, ih, numberFrom, List.cons_append, List.length_cons,
        Nat.add_assoc, Nat.add_comm 1]

theorem map_snd_numberFrom (first : Nat) (lines : List Text) :
    (numberFrom first lines).map Prod.snd = lines := by
  induction lines generalizing first with
  | nil => rfl
  | cons line others ih => rw [numberFrom, List.map_cons, ih]

theorem renumber_numberFrom (shift first : Nat) (lines : List Text) :
    (Recast.renumber shift).lines (numberFrom first lines) = numberFrom (first + shift) lines := by
  induction lines generalizing first with
  | nil => rfl
  | cons line others ih =>
      have kept : Text.reindent (Recast.renumber shift).width line = line := Text.reindent_id
      rw [numberFrom, numberFrom, Recast.lines_cons, ih, kept, Nat.add_right_comm]
      rfl

theorem getLast?_numberFrom (first : Nat) (lines : List Text) :
    (numberFrom first lines).getLast?.map Prod.snd = lines.getLast? := by
  rw [← List.getLast?_map, map_snd_numberFrom]

theorem ofLines_joined {number : Nat} {whole first second : Text} {blanks : List Nat}
    {one two : Source} (positive : 0 < number)
    (lines : whole.lines = first.lines ++ (blanks.map Text.spaces ++ second.lines))
    (loadsFirst : ofLines number first = .ok one) (loadsSecond : ofLines 1 second = .ok two) :
    ∃ gap shift, gap.map Prod.snd = blanks.map Text.spaces ∧
      ofLines number whole =
        .ok ⟨one.lines ++ (gap ++ (Recast.renumber shift).lines two.lines), none, one.number⟩ := by
  obtain ⟨allowedFirst, rfl⟩ := ofLines_eq_ok_iff.mp loadsFirst
  obtain ⟨allowedSecond, rfl⟩ := ofLines_eq_ok_iff.mp loadsSecond
  have spaced : ∀ line ∈ blanks.map Text.spaces, ∀ character ∈ line,
      isDisallowed character = false := by
    intro line member character inside
    obtain ⟨width, -, rfl⟩ := List.mem_map.mp member
    rw [List.eq_of_mem_replicate inside]
    rfl
  refine ⟨numberFrom (number + first.lines.length) (blanks.map Text.spaces),
    number + first.lines.length + blanks.length - 1, map_snd_numberFrom _ _, ?_⟩
  rw [ofLines_eq_ok_iff, lines]
  constructor
  · simp only [List.forall_mem_append]
    exact ⟨allowedFirst, spaced, allowedSecond⟩
  · have start : 1 + (number + first.lines.length + blanks.length - 1) =
        number + first.lines.length + (blanks.map Text.spaces).length := by
      rw [List.length_map]
      omega
    rw [numberFrom_append, numberFrom_append, renumber_numberFrom, start]

/-- A text that starts with an element has no pragma. -/
theorem ofText_sign {text : Text} (sign : text.head? = some '%') :
    ofText text = ofLines 1 text.unifyBreaks ∧
      ∃ rest others, text.unifyBreaks.lines = ('%' :: rest) :: others := by
  obtain ⟨rest, rfl⟩ := List.head?_eq_some_iff.mp sign
  have unified : Text.unifyBreaks ('%' :: rest) = '%' :: Text.unifyBreaks rest :=
    @Text.unifyBreaks_append ['%'] rest (by decide)
  have first : ∃ line others, Text.lines ('%' :: Text.unifyBreaks rest) = ('%' :: line) :: others := by
    rw [Text.lines, if_neg (by decide)]
    split
    · exact ⟨[], [], rfl⟩
    · exact ⟨_, _, rfl⟩
  obtain ⟨line, others, lines⟩ := first
  have unmarked : Encoding.pragma ('%' :: line) = none := by
    simp [Encoding.pragma, Encoding.isGap, Text.afterLead]
  rw [unified]
  refine ⟨?_, line, others, lines⟩
  simp only [ofText, unified, lines, List.headD_cons, unmarked]

theorem ofText_joined {first second : Text} {one two : Source} (blanks : List Nat)
    (free : '\r' ∉ first) (given : first.lastLine ≠ [])
    (unmarked : Encoding.pragma first.lastLine = none) (sign : second.head? = some '%')
    (loadsFirst : ofText first = .ok one) (loadsSecond : ofText second = .ok two) :
    one.lines.getLast?.map Prod.snd = some first.lastLine ∧
      ∃ gap shift, gap.map Prod.snd = blanks.map Text.spaces ∧
        ofText (Text.joined blanks first second) =
          .ok ⟨one.lines ++ (gap ++ (Recast.renumber shift).lines two.lines), none, one.number⟩ := by
  have unified := Text.unifyBreaks_of_not_mem free
  have unifiedBoth := Text.unifyBreaks_joined blanks second free
  have lines := Text.lines_joined blanks second.unifyBreaks given
  rw [(ofText_sign sign).1] at loadsSecond
  unfold ofText at loadsFirst ⊢
  simp only [unified, unifiedBoth, lines] at loadsFirst ⊢
  have ends : first.lines.getLast? = some first.lastLine := by
    rw [Text.lines_eq_pieces given]
    exact Text.getLast?_pieces first
  cases parts : first.lines with
  | nil =>
      rw [parts] at ends
      contradiction
  | cons line others =>
      rw [parts] at loadsFirst lines ends
      simp only [List.cons_append, List.headD_cons] at loadsFirst lines ⊢
      split at loadsFirst
      · refine ⟨?_, ofLines_joined (by decide) (by rw [lines, parts]; rfl) loadsFirst loadsSecond⟩
        obtain ⟨-, rfl⟩ := ofLines_eq_ok_iff.mp loadsFirst
        rw [getLast?_numberFrom, parts, ends]
      · rename_i label marked
        split at loadsFirst
        · contradiction
        · have tail : first.afterFirstLine.lines = others := by
            rw [Text.lines_afterFirstLine, parts, List.tail_cons]
          -- a pragma line alone would be the last line as well
          have later : others ≠ [] := by
            rintro rfl
            rw [List.getLast?_singleton, Option.some.injEq] at ends
            rw [← ends, marked] at unmarked
            contradiction
          refine ⟨?_, ofLines_joined (by decide) ?_ loadsFirst loadsSecond⟩
          · obtain ⟨-, rfl⟩ := ofLines_eq_ok_iff.mp loadsFirst
            rw [getLast?_numberFrom, tail, ← ends]
            exact (List.getLast?_cons_of_ne_nil later).symm
          · rw [Text.lines_afterFirstLine, lines, tail, List.tail_cons]

theorem ofText_of_lines {text other : Text}
    (same : text.unifyBreaks.lines = other.unifyBreaks.lines) : ofText text = ofText other := by
  have later : text.unifyBreaks.afterFirstLine.lines = other.unifyBreaks.afterFirstLine.lines := by
    rw [Text.lines_afterFirstLine, Text.lines_afterFirstLine, same]
  simp only [ofText, ofLines, same, later]

theorem ofText_append_newline {text : Text} (free : '\r' ∉ text) (given : text.lastLine ≠ []) :
    ofText (text ++ ['\n']) = ofText text := by
  apply ofText_of_lines
  rw [Text.unifyBreaks_append _ free, Text.unifyBreaks_of_not_mem free]
  exact (Text.lines_append_newline text []).trans
    ((List.append_nil _).trans (Text.lines_eq_pieces given).symm)

end Source

end Stencil
