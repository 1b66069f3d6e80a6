import Stencil.Output

/-! What writing does to the text of an output.

An output holds lines, but what it stands for is one text.  Writing adds a newline,
if something was written before, and then the new text with spaces in front of each
of its lines that is not empty.  The spaces are put in by a walk over the text that
knows only whether it stands at the start of a line, so the walk over two texts in a
row is the walk over each of them. -/

namespace Stencil

namespace Text

/-! ### Placing the lines of a text -/

/-- A text whose lines stand at a column; `fresh` says that it starts a line. -/
def placed (column : Nat) : Bool → Text → Text
  | _, [] => []
  | fresh, character :: rest =>
      if character = '\n' then '\n' :: placed column true rest
      else (if fresh then spaces column else []) ++ character :: placed column false rest

/-- Whether the start of a line follows a text, if the text starts one or not. -/
def freshAfter : Bool → Text → Bool
  | fresh, [] => fresh
  | _, character :: rest => freshAfter (character = '\n') rest

theorem placed_append (column : Nat) (fresh : Bool) (first second : Text) :
    placed column fresh (first ++ second) =
      placed column fresh first ++ placed column (freshAfter fresh first) second := by
  induction first generalizing fresh with
  | nil => rfl
  | cons character rest ih =>
      by_cases newline : character = '\n'
      · simp [placed, freshAfter, newline, ih]
      · simp [placed, freshAfter, newline, ih]

theorem freshAfter_append (fresh : Bool) (first second : Text) :
    freshAfter fresh (first ++ second) = freshAfter (freshAfter fresh first) second := by
  induction first generalizing fresh with
  | nil => rfl
  | cons character rest ih => exact ih _

theorem placed_inside {text : Text} (column : Nat) (unbroken : '\n' ∉ text) :
    placed column false text = text := by
  induction text with
  | nil => rfl
  | cons character rest ih =>
      simp only [List.mem_cons, not_or] at unbroken
      simp [placed, Ne.symm unbroken.1, ih unbroken.2]

theorem placed_cons {character : Char} (column : Nat) (fresh : Bool) (rest : Text)
    (visible : character ≠ '\n') :
    placed column fresh (character :: rest) =
      (if fresh then spaces column else []) ++ character :: placed column false rest := by
  simp [placed, visible]

theorem freshAfter_unbroken {text : Text} (unbroken : '\n' ∉ text) :
    freshAfter false text = false := by
  induction text with
  | nil => rfl
  | cons character rest ih =>
      simp only [List.mem_cons, not_or] at unbroken
      simp [freshAfter, Ne.symm unbroken.1, ih unbroken.2]

theorem freshAfter_concat {last : Char} (fresh : Bool) (text : Text) (visible : last ≠ '\n') :
    freshAfter fresh (text ++ [last]) = false := by
  rw [freshAfter_append]
  simp [freshAfter, visible]

theorem placed_unbroken_append {first : Text} (column : Nat) (second : Text)
    (unbroken : '\n' ∉ first) :
    placed column false (first ++ second) = first ++ placed column false second := by
  rw [placed_append, placed_inside column unbroken, freshAfter_unbroken unbroken]

/-- The placed form of a text that stands between visible characters. -/
def enclosed (column : Nat) (text : Text) : Text :=
  placed column false text ++ if freshAfter false text then spaces column else []

theorem placed_enclosed {character : Char} (column : Nat) (text rest : Text)
    (visible : character ≠ '\n') :
    placed column false (text ++ character :: rest) =
      enclosed column text ++ character :: placed column false rest := by
  rw [placed_append, placed_cons column _ rest visible, enclosed, List.append_assoc]

/-! ### Pieces between newlines -/

theorem intercalate_cons (first : Text) (others : List Text) :
    ['\n'].intercalate (first :: others) = first ++ others.flatMap fun line => '\n' :: line := by
  induction others generalizing first with
  | nil => simp
  | cons second others ih => simp [ih]

theorem intercalate_append {first second : List Text} (before : first ≠ [])
    (after : second ≠ []) :
    ['\n'].intercalate (first ++ second) =
      ['\n'].intercalate first ++ '\n' :: ['\n'].intercalate second := by
  cases first with
  | nil => contradiction
  | cons firstLine firstOthers =>
      cases second with
      | nil => contradiction
      | cons secondLine secondOthers =>
          simp [intercalate_cons]

/-- The walk places the pieces of a text; the first one stands behind spaces only if
it starts a line. -/
theorem placed_eq_pieces (column : Nat) (text : Text) :
    ∃ first others, pieces text = first :: others ∧
      placed column true text =
        Output.place column first ++
          others.flatMap (fun piece => '\n' :: Output.place column piece) ∧
      placed column false text =
        first ++ others.flatMap (fun piece => '\n' :: Output.place column piece) := by
  induction text with
  | nil => exact ⟨[], [], rfl, rfl, rfl⟩
  | cons character rest ih =>
      obtain ⟨first, others, cut, freshly, inside⟩ := ih
      by_cases newline : character = '\n'
      · subst character
        refine ⟨[], first :: others, ?_, ?_, ?_⟩
        · simp [pieces, cut]
        · simp [placed, freshly, Output.place]
        · simp [placed, freshly]
      · refine ⟨character :: first, others, ?_, ?_, ?_⟩
        · simp [pieces, newline, cut]
        · simp [placed, newline, inside, Output.place]
        · simp [placed, newline, inside]

theorem pieces_of_unbroken {text : Text} (unbroken : '\n' ∉ text) : pieces text = [text] := by
  induction text with
  | nil => rfl
  | cons character rest ih =>
      simp only [List.mem_cons, not_or] at unbroken
      simp [pieces, Ne.symm unbroken.1, ih unbroken.2]

/-- The first line of a text begins with every part of it that has no newline. -/
theorem pieces_append_unbroken {lead : Text} (rest : Text) (unbroken : '\n' ∉ lead) :
    ∃ line others, (lead ++ rest).pieces = (lead ++ line) :: others := by
  induction lead with
  | nil =>
      cases found : rest.pieces with
      | nil => exact absurd found (pieces_ne_nil rest)
      | cons line others => exact ⟨line, others, found⟩
  | cons character lead ih =>
      simp only [List.mem_cons, not_or] at unbroken
      obtain ⟨line, others, found⟩ := ih unbroken.2
      refine ⟨line, others, ?_⟩
      rw [List.cons_append, pieces, if_neg (Ne.symm unbroken.1), found]
      rfl

theorem dropFinalNewline_concat {last : Char} (text : Text) (visible : last ≠ '\n') :
    dropFinalNewline (text ++ [last]) = text ++ [last] := by
  simp [dropFinalNewline, visible]

theorem dropFinalNewline_of_unbroken {text : Text} (unbroken : '\n' ∉ text) :
    dropFinalNewline text = text := by
  unfold dropFinalNewline
  split
  · rename_i ends
    exact absurd (List.mem_of_getLast? ends) unbroken
  · rfl

end Text

namespace Output

/-- What stands between the text written so far and the next line. -/
def joint (output : Output) : Text :=
  if output.lines.isEmpty then [] else ['\n']

theorem text_of_lines {output written : Output} {lines : List Text} (some : lines ≠ [])
    (grown : written.lines = output.lines ++ lines) :
    written.text = output.text ++ output.joint ++ ['\n'].intercalate lines := by
  unfold text joint
  rw [grown]
  cases before : output.lines with
  | nil => rfl
  | cons first others =>
      rw [Text.intercalate_append (by simp) some]
      simp

theorem text_emit (text : Text) (output : Output) :
    (output.emit text).text =
      output.text ++ output.joint ++
        Text.placed output.levels.current true text.dropFinalNewline := by
  obtain ⟨first, others, cut, freshly, -⟩ :=
    Text.placed_eq_pieces output.levels.current text.dropFinalNewline
  rw [text_of_lines (by simp [cut]) rfl, cut, freshly, List.map_cons, Text.intercalate_cons,
    List.flatMap_map]

theorem text_emit_concat {last : Char} (text : Text) (output : Output) (visible : last ≠ '\n') :
    (output.emit (text ++ [last])).text =
      output.text ++ output.joint ++
        Text.placed output.levels.current true (text ++ [last]) := by
  rw [text_emit, Text.dropFinalNewline_concat text visible]

theorem text_blank (output : Output) : output.blank.text = output.text ++ output.joint := by
  rw [text_of_lines (by simp) rfl]
  simp

@[simp] theorem text_indent (output : Output) : output.indent.text = output.text := rfl

@[simp] theorem text_dedent (output : Output) : output.dedent.text = output.text := rfl

@[simp] theorem levels_emit (text : Text) (output : Output) :
    (output.emit text).levels = output.levels := rfl

@[simp] theorem unit_emit (text : Text) (output : Output) :
    (output.emit text).unit = output.unit := rfl

theorem joint_emit (text : Text) (output : Output) : (output.emit text).joint = ['\n'] := by
  simp [joint, emit, Text.pieces_ne_nil]

@[simp] theorem joint_dedent (output : Output) : output.dedent.joint = output.joint := rfl

@[simp] theorem levels_indent (output : Output) :
    output.indent.levels = output.levels.pushBy output.unit := rfl

@[simp] theorem levels_dedent (output : Output) :
    output.dedent.levels = output.levels.pop.2 := rfl

theorem emit_foldl (texts : List Text) {output : Output} (begun : output.joint = ['\n']) :
    let written := texts.foldl (fun written text => written.emit text) output
    written.text = output.text ++ texts.flatMap (fun text =>
        '\n' :: Text.placed output.levels.current true text.dropFinalNewline) ∧
      written.joint = ['\n'] ∧ written.levels = output.levels ∧ written.unit = output.unit := by
  induction texts generalizing output with
  | nil => simp [begun]
  | cons text others ih =>
      obtain ⟨grown, joint, kept⟩ := ih (joint_emit text output)
      refine ⟨?_, joint, kept⟩
      rw [List.foldl_cons, grown, text_emit, begun, levels_emit]
      simp

end Output

end Stencil
