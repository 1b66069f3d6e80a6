import Stencil.Proofs.Placement
import Stencil.Template

/-! Comments without two hyphens in a row.

Splitting pairs of hyphens until none is left gives a line without a pair.  Parts
without a pair make a text without one, if the later part does not begin with a
hyphen, and placing lines puts in spaces only.  A written comment therefore ends
where its own sign ends it. -/

namespace Stencil
namespace Markup

def doubleHyphen : Text := "--".toList

/-- What may stand between the signs of a comment. -/
def IsCommentBody (body : Text) : Prop :=
  ¬ doubleHyphen <:+: body ∧ body.getLast? ≠ some '-'

/-! ### Counting pairs -/

theorem hyphenPairs_cons (character : Char) (rest : Text) :
    hyphenPairs (character :: rest) =
      (if character = '-' ∧ rest.head? = some '-' then 1 else 0) + hyphenPairs rest := by
  cases rest with
  | nil => simp [hyphenPairs]
  | cons second others => simp [hyphenPairs]

theorem hyphenPairs_cons_of_ne {character : Char} (rest : Text) (other : character ≠ '-') :
    hyphenPairs (character :: rest) = hyphenPairs rest := by
  rw [hyphenPairs_cons, if_neg (fun both => other both.1), Nat.zero_add]

theorem hyphenPairs_append_of_not_mem {first : Text} (second : Text) (free : '-' ∉ first) :
    hyphenPairs (first ++ second) = hyphenPairs second := by
  induction first with
  | nil => rfl
  | cons character rest ih =>
      simp only [List.mem_cons, not_or] at free
      rw [List.cons_append, hyphenPairs_cons_of_ne _ (Ne.symm free.1)]
      exact ih free.2

theorem hyphenPairs_append {second : Text} (first : Text) (other : second.head? ≠ some '-') :
    hyphenPairs (first ++ second) = hyphenPairs first + hyphenPairs second := by
  induction first with
  | nil => simp [hyphenPairs]
  | cons character rest ih =>
      rw [List.cons_append, hyphenPairs_cons, hyphenPairs_cons, ih]
      have sameHead : (rest ++ second).head? = some '-' ↔ rest.head? = some '-' := by
        cases rest with
        | nil => simp [other]
        | cons next others => simp
      simp only [sameHead]
      omega

theorem hyphenPairs_eq_zero_iff (text : Text) :
    hyphenPairs text = 0 ↔ ¬ doubleHyphen <:+: text := by
  induction text with
  | nil => simp [hyphenPairs, doubleHyphen]
  | cons character rest ih =>
      rw [hyphenPairs_cons, List.infix_cons_iff, not_or, ← ih]
      have startsPair :
          doubleHyphen <+: character :: rest ↔ character = '-' ∧ rest.head? = some '-' := by
        cases rest with
        | nil => simp [doubleHyphen, List.cons_prefix_cons]
        | cons second others =>
            simp [doubleHyphen, List.cons_prefix_cons, eq_comm]
      rw [startsPair]
      split
      · simp_all
      · simp_all

theorem hyphenPairs_dropFinalNewline {text : Text} (unpaired : hyphenPairs text = 0) :
    hyphenPairs text.dropFinalNewline = 0 := by
  rw [hyphenPairs_eq_zero_iff] at unpaired ⊢
  intro paired
  apply unpaired
  unfold Text.dropFinalNewline at paired
  split at paired
  · exact paired.trans (List.dropLast_prefix text).isInfix
  · exact paired

/-! ### Escaped comment lines -/

theorem hyphenPairs_escapeComment (text : Text) : hyphenPairs (escapeComment text) = 0 := by
  fun_induction escapeComment text with
  | case1 text paired ih => exact ih
  | case2 text unpaired => omega

/-- Placing the lines of a text puts no hyphen next to another. -/
theorem hyphenPairs_placed (column : Nat) (fresh : Bool) (text : Text) :
    hyphenPairs (Text.placed column fresh text) = hyphenPairs text := by
  have spaced (rest : Text) :
      hyphenPairs (Text.spaces column ++ rest) = hyphenPairs rest :=
    hyphenPairs_append_of_not_mem rest (by simp [Text.spaces, List.mem_replicate])
  induction text generalizing fresh with
  | nil => rfl
  | cons character rest ih =>
      by_cases newline : character = '\n'
      · subst character
        simp only [Text.placed, if_true]
        rw [hyphenPairs_cons_of_ne _ (by decide), hyphenPairs_cons_of_ne _ (by decide)]
        exact ih true
      · -- A pair shows in the head of the rest, which placing inside a line does not move.
        have sameHead : (Text.placed column false rest).head? = rest.head? := by
          cases rest with
          | nil => rfl
          | cons next others =>
              by_cases broken : next = '\n'
              · simp [Text.placed, broken]
              · simp [Text.placed, broken]
        have inside : hyphenPairs (character :: Text.placed column false rest) =
            hyphenPairs (character :: rest) := by
          rw [hyphenPairs_cons, hyphenPairs_cons, sameHead, ih false]
        cases fresh with
        | false => simpa [Text.placed, newline] using inside
        | true => simpa [Text.placed, newline, spaced] using inside

/-! ### Written comments -/

/-- What a comment writes between its signs: a line between spaces, or lines of
their own one level deeper. -/
def commentBody (levels : Levels) (unit : Nat) : List Text → Text
  | [line] => ' ' :: Text.enclosed levels.current line ++ [' ']
  | lines =>
      lines.flatMap (fun line =>
          '\n' :: Text.placed (levels.pushBy unit).current true line.dropFinalNewline) ++
        '\n' :: Text.spaces levels.current

private theorem joint_inside (output : Output) :
    (output.emit "<!--".toList).indent.joint = ['\n'] :=
  Output.joint_emit _ output

theorem text_writeComment (lines : List Text) (output : Output) :
    (Template.writeComment lines output).text =
      output.text ++ output.joint ++ Text.spaces output.levels.current ++
        ("<!--".toList ++ commentBody output.levels output.unit lines ++ "-->".toList) := by
  have begin (column : Nat) : Text.placed column true "<!--".toList =
      Text.spaces column ++ "<!--".toList := by
    simp [Text.placed]
  have finish (column : Nat) : Text.placed column true "-->".toList =
      Text.spaces column ++ "-->".toList := by
    simp [Text.placed]
  unfold Template.writeComment commentBody
  split
  · rename_i line
    have parts : "<!-- ".toList ++ line ++ " -->".toList =
        "<!-- ".toList ++ (line ++ ' ' :: "--".toList) ++ ['>'] := by
      simp
    have goesOn : Text.freshAfter true "<!-- ".toList = false := rfl
    rw [parts, Output.text_emit_concat _ output (by decide), List.append_assoc, List.append_assoc,
      Text.placed_append, goesOn, List.append_assoc, List.cons_append,
      Text.placed_enclosed _ _ _ (by decide)]
    simp [Text.placed]
  · obtain ⟨text, joint, levels, -⟩ := Output.emit_foldl lines (joint_inside output)
    have pair : "-->".toList = "--".toList ++ ['>'] := rfl
    simp only
    rw [pair, Output.text_emit_concat _ _ (by decide), ← pair, Output.text_dedent, text,
      Output.joint_dedent, joint, finish]
    have opened : "<!--".toList = "<!-".toList ++ ['-'] := rfl
    rw [Output.text_indent, opened, Output.text_emit_concat _ _ (by decide), ← opened, begin]
    have back : (List.foldl (fun written line => written.emit line)
        (output.emit "<!--".toList).indent lines).dedent.levels = output.levels := by
      rw [Output.levels_dedent, levels]
      rfl
    rw [back]
    simp

theorem levels_writeComment (lines : List Text) (output : Output) :
    (Template.writeComment lines output).levels = output.levels := by
  unfold Template.writeComment
  split
  · rfl
  · obtain ⟨-, -, levels, -⟩ := Output.emit_foldl lines (joint_inside output)
    rw [Output.levels_emit, Output.levels_dedent, levels]
    rfl

theorem unit_writeComment (lines : List Text) (output : Output) :
    (Template.writeComment lines output).unit = output.unit := by
  unfold Template.writeComment
  split
  · rfl
  · obtain ⟨-, -, -, unit⟩ := Output.emit_foldl lines (joint_inside output)
    exact unit

private theorem hyphenPairs_lines (column : Nat) {lines : List Text} {rest : Text}
    (unpaired : ∀ line ∈ lines, hyphenPairs line = 0) (other : rest.head? ≠ some '-') :
    hyphenPairs (lines.flatMap (fun line =>
      '\n' :: Text.placed column true line.dropFinalNewline) ++ rest) = hyphenPairs rest := by
  induction lines with
  | nil => rfl
  | cons line others ih =>
      have headed : (others.flatMap (fun line =>
          '\n' :: Text.placed column true line.dropFinalNewline) ++ rest).head? ≠ some '-' := by
        cases others with
        | nil => exact other
        | cons => simp
      rw [List.flatMap_cons, List.append_assoc, List.cons_append,
        hyphenPairs_cons_of_ne _ (by decide), hyphenPairs_append _ headed, hyphenPairs_placed,
        hyphenPairs_dropFinalNewline (unpaired line (by simp)), Nat.zero_add]
      exact ih (fun other member => unpaired other (by simp [member]))

private theorem hyphenPairs_of_not_mem {text : Text} (free : '-' ∉ text) :
    hyphenPairs text = 0 := by
  have alone := hyphenPairs_append_of_not_mem [] free
  rwa [List.append_nil] at alone

private theorem getLast?_append_ne {first second : Text} (given : second ≠ [])
    (free : '-' ∉ second) : (first ++ second).getLast? ≠ some '-' := by
  rw [List.getLast?_append, List.getLast?_eq_some_getLast given, Option.some_or]
  intro ends
  have member := List.getLast_mem given
  rw [Option.some.inj ends] at member
  exact free member

theorem isCommentBody_commentBody (levels : Levels) (unit : Nat) {lines : List Text}
    (unpaired : ∀ line ∈ lines, hyphenPairs line = 0) :
    IsCommentBody (commentBody levels unit lines) := by
  have free (column : Nat) : '-' ∉ Text.spaces column := by
    simp [Text.spaces, List.mem_replicate]
  rw [IsCommentBody, ← hyphenPairs_eq_zero_iff]
  unfold commentBody
  split
  · rename_i line
    refine ⟨?_, getLast?_append_ne (by simp) (by decide)⟩
    rw [List.cons_append, hyphenPairs_cons_of_ne _ (by decide), Text.enclosed, List.append_assoc,
      hyphenPairs_append _ ?_, hyphenPairs_placed, unpaired line (by simp)]
    · split
      · rw [hyphenPairs_append_of_not_mem _ (free _)]
        rfl
      · rfl
    · split
      · cases levels.current <;> simp [Text.spaces, List.replicate_succ]
      · simp
  · refine ⟨?_, getLast?_append_ne (by simp) (by simp [free])⟩
    rw [hyphenPairs_lines _ unpaired (by simp), hyphenPairs_cons_of_ne _ (by decide)]
    exact hyphenPairs_of_not_mem (free _)

end Markup
end Stencil
