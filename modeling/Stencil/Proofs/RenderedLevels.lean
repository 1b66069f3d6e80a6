import Stencil.Evaluator.Lookup
import Stencil.Proofs.Comments
import Stencil.Proofs.Nesting
import Stencil.Proofs.Rendering

/-! The levels of a render follow the nesting of its instructions.

The levels of an output are determined by the layout and by how many elements are open:
each open element adds one unit.  An instruction moves the levels as it moves the walk over
open tags, so an assembled program never closes a level that it did not open. -/

namespace Stencil

/-! ### Levels of a layout -/

namespace Layout

def columns (layout : Layout) : Nat → List Nat
  | 0 => []
  | depth + 1 => (layout.baseIndent + (depth + 1)) * layout.indentWidth :: layout.columns depth

def levels (layout : Layout) (depth : Nat) : Levels where
  base := layout.baseColumn
  inner := layout.columns depth

theorem current_levels (layout : Layout) (depth : Nat) :
    (layout.levels depth).current = (layout.baseIndent + depth) * layout.indentWidth := by
  cases depth with
  | zero => rfl
  | succ depth => rfl

theorem depth_levels (layout : Layout) (depth : Nat) : (layout.levels depth).depth = depth := by
  induction depth with
  | zero => rfl
  | succ depth ih =>
      change (layout.columns depth).length + 1 = depth + 1
      exact congrArg Nat.succ ih

theorem pushBy_levels (layout : Layout) (depth : Nat) :
    (layout.levels depth).pushBy layout.indentWidth = layout.levels (depth + 1) := by
  have wider : (layout.levels depth).current + layout.indentWidth =
      (layout.baseIndent + (depth + 1)) * layout.indentWidth := by
    rw [current_levels, ← Nat.add_assoc, Nat.succ_mul]
  rw [Levels.pushBy, wider]
  rfl

theorem pop_levels (layout : Layout) (depth : Nat) :
    (layout.levels (depth + 1)).pop.2 = layout.levels depth := rfl

end Layout

namespace Output

structure Laid (layout : Layout) (depth : Nat) (output : Output) : Prop where
  levels : output.levels = layout.levels depth
  unit : output.unit = layout.indentWidth

/-- What was written begins with a line that has `lead` at a column. -/
def WritesAt (column : Nat) (lead : Text) (output written : Output) : Prop :=
  ∃ line others, written.lines = output.lines ++ (Text.spaces column ++ lead ++ line) :: others

section Writing

variable {layout : Layout} {depth : Nat} {output : Output}

theorem laid_ofLayout (layout : Layout) : Laid layout 0 (ofLayout layout) := ⟨rfl, rfl⟩

theorem Laid.same {written : Output} (laid : Laid layout depth output)
    (levels : written.levels = output.levels) (unit : written.unit = output.unit) :
    Laid layout depth written :=
  ⟨levels.trans laid.levels, unit.trans laid.unit⟩

theorem Laid.emit (laid : Laid layout depth output) (text : Text) :
    Laid layout depth (output.emit text) :=
  laid.same rfl rfl

theorem Laid.indent (laid : Laid layout depth output) : Laid layout (depth + 1) output.indent := by
  constructor
  · rw [levels_indent, laid.levels, laid.unit]
    exact layout.pushBy_levels depth
  · exact laid.unit

theorem Laid.dedent (laid : Laid layout (depth + 1) output) : Laid layout depth output.dedent := by
  constructor
  · rw [levels_dedent, laid.levels]
    exact layout.pop_levels depth
  · exact laid.unit

theorem Laid.depth_eq (laid : Laid layout depth output) : output.depth = depth := by
  rw [Output.depth, laid.levels]
  exact layout.depth_levels depth

theorem Laid.current_eq (laid : Laid layout depth output) :
    output.levels.current = (layout.baseIndent + depth) * layout.indentWidth := by
  rw [laid.levels]
  exact layout.current_levels depth

end Writing

theorem writesAt_emit (output : Output) (lead body : Text) (last : Char)
    (given : lead ≠ []) (unbroken : '\n' ∉ lead) (visible : last ≠ '\n') :
    WritesAt output.levels.current lead output (output.emit (lead ++ body ++ [last])) := by
  obtain ⟨line, others, found⟩ := Text.pieces_append_unbroken (body ++ [last]) unbroken
  refine ⟨line, others.map (place output.levels.current), ?_⟩
  have nonempty : (lead ++ line).isEmpty = false := by
    cases lead with
    | nil => contradiction
    | cons character rest => rfl
  rw [emit, Text.dropFinalNewline_concat _ visible, List.append_assoc, found, List.map_cons, place,
    nonempty]
  simp

end Output

/-! ### Instructions -/

/-- Raw code may write lines, but leaves the levels as it finds them. -/
def Evaluator.KeepsLevels (evaluator : Evaluator) : Prop :=
  ∀ code parameters output written, evaluator.execute code parameters output = .ok written →
    written.levels = output.levels ∧ written.unit = output.unit

theorem Evaluator.keepsLevels_ofEvaluate (evaluate : Text → Parameters → Except Fault Value) :
    (ofEvaluate evaluate).KeepsLevels := by
  intro code parameters output written executed
  simp only [ofEvaluate, writeValue] at executed
  split at executed
  · contradiction
  · cases executed
    split
    · exact ⟨rfl, rfl⟩
    · exact ⟨rfl, rfl⟩

namespace Template

/-- The output at the moment when an instruction takes one level back. -/
def dedented? (instruction : Instruction) (output : Output) : Option Output :=
  match instruction with
  | .closeElement _ => some output
  | .comment [_] => none
  | .comment lines =>
      some (lines.foldl (fun written line => written.emit line)
        (output.emit "<!--".toList).indent)
  | _ => none

variable {template : Template} {parameters : Parameters} {layout : Layout} {output : Output}

theorem laid_foldl {depth : Nat} (lines : List Text) (laid : Output.Laid layout depth output) :
    Output.Laid layout depth (lines.foldl (fun written line => written.emit line) output) := by
  induction lines generalizing output with
  | nil => exact laid
  | cons line others ih => exact ih (laid.emit line)

theorem depth_dedented {instruction : Instruction} {stack next : List Text}
    (laid : Output.Laid layout stack.length output)
    (walked : Nesting.afterInstruction instruction stack = some next) :
    ∀ inside ∈ dedented? instruction output, 0 < inside.depth := by
  intro inside member
  cases instruction with
  | closeElement tag =>
      cases member
      rw [laid.depth_eq]
      cases stack with
      | nil => contradiction
      | cons innermost outer => exact Nat.succ_pos _
  | comment lines =>
      have deeper : Output.Laid layout (stack.length + 1)
          (lines.foldl (fun written line => written.emit line)
            (output.emit "<!--".toList).indent) :=
        laid_foldl lines (laid.emit _).indent
      simp only [dedented?] at member
      split at member
      · contradiction
      · contradiction
      · rename_i same
        cases same
        cases member
        rw [deeper.depth_eq]
        exact Nat.succ_pos _
      · contradiction
  | _ => contradiction

theorem laid_execute {instruction : Instruction} {stack next : List Text} {written : Output}
    (keeps : template.evaluator.KeepsLevels) (laid : Output.Laid layout stack.length output)
    (walked : Nesting.afterInstruction instruction stack = some next)
    (executed : template.execute parameters instruction output = .ok written) :
    Output.Laid layout next.length written := by
  cases instruction with
  | element tag attributes body =>
      cases walked
      simp only [execute] at executed
      split at executed
      · contradiction
      · split at executed
        · contradiction
        · cases executed
          exact laid.emit _
  | openElement tag attributes =>
      cases walked
      simp only [execute] at executed
      split at executed
      · contradiction
      · cases executed
        exact (laid.emit _).indent
  | closeElement tag =>
      cases executed
      cases stack with
      | nil => contradiction
      | cons innermost outer =>
          simp only [Nesting.afterInstruction] at walked
          split at walked
          · cases walked
            exact laid.dedent.emit _
          · contradiction
  | content fragment =>
      cases walked
      simp only [execute] at executed
      split at executed
      · contradiction
      · cases executed
        exact laid.emit _
  | comment lines =>
      cases walked
      cases executed
      exact laid.same (Markup.levels_writeComment lines output)
        (Markup.unit_writeComment lines output)
  | blank =>
      cases walked
      cases executed
      exact laid.same rfl rfl
  | rawCode code =>
      cases walked
      obtain ⟨levels, unit⟩ := keeps code parameters output written executed
      exact laid.same levels unit

theorem laid_executeAll {instructions : List Instruction} {stack reached : List Text}
    {last : Output} (keeps : template.evaluator.KeepsLevels)
    (laid : Output.Laid layout stack.length output)
    (walked : Nesting.openTags stack instructions = some reached)
    (executed : template.executeAll parameters instructions output = .ok last) :
    Output.Laid layout reached.length last := by
  induction instructions generalizing stack output with
  | nil =>
      cases walked
      cases executed
      exact laid
  | cons instruction others ih =>
      obtain ⟨next, moved, walkedOthers⟩ := Option.bind_eq_some_iff.mp walked
      obtain ⟨written, first, executedOthers⟩ := executeAll_cons executed
      exact ih (laid_execute keeps laid moved first) walkedOthers executedOthers

theorem laid_opening (template : Template) : Output.Laid template.layout 0 template.opening := by
  unfold opening
  split
  · exact Output.laid_ofLayout _
  · exact (Output.laid_ofLayout _).emit _

/-! ### Runs -/

theorem executeAll_append {first second : List Instruction} {last : Output}
    (executed : template.executeAll parameters (first ++ second) output = .ok last) :
    ∃ middle, template.executeAll parameters first output = .ok middle ∧
      template.executeAll parameters second middle = .ok last := by
  induction first generalizing output with
  | nil => exact ⟨output, rfl, executed⟩
  | cons instruction others ih =>
      obtain ⟨written, first, rest⟩ := executeAll_cons executed
      obtain ⟨middle, early, late⟩ := ih rest
      refine ⟨middle, ?_, late⟩
      simp only [executeAll, first, early]

theorem writesAt_opening {tag : Text} {attributes : List Attribute} {written : Output}
    (executed : template.execute parameters (.openElement tag attributes) output = .ok written) :
    Output.WritesAt output.levels.current ['<'] output written := by
  simp only [execute] at executed
  split at executed
  · contradiction
  · rename_i markup _
    cases executed
    exact output.writesAt_emit ['<'] (tag ++ markup) '>' (by simp) (by decide) (by decide)

theorem writesAt_closing {tag : Text} {written : Output}
    (executed : template.execute parameters (.closeElement tag) output = .ok written) :
    Output.WritesAt output.dedent.levels.current ['<', '/'] output written := by
  cases executed
  exact output.dedent.writesAt_emit ['<', '/'] tag '>' (by simp) (by decide) (by decide)

/-- In a render of an assembled program the output is as deep as elements are open, and each
level is one unit wider: so a closing line stands at the column of the line it matches, no
level is closed that was not opened, and all are closed at the end. -/
theorem levels_follow_nesting (items : List (Except Fault Lexeme)) (template : Template)
    (parameters : Parameters) (text : Text)
    (assembled : Program.ofItems items = .ok template.program)
    (keeps : template.evaluator.KeepsLevels)
    (rendered : template.render parameters = .ok text) :
    (∀ before instruction after,
      template.program.instructions = before ++ instruction :: after →
      ∃ output, template.executeAll parameters before template.opening = .ok output ∧
        Nesting.closings before ≤ Nesting.openings before ∧
        output.depth = Nesting.openings before - Nesting.closings before ∧
        output.levels.current =
          (template.layout.baseIndent + output.depth) * template.layout.indentWidth ∧
        ∀ inside ∈ dedented? instruction output, 0 < inside.depth) ∧
    (∀ outer opened attributes inner closed after,
      template.program.instructions = outer ++ .openElement opened attributes ::
        (inner ++ .closeElement closed :: after) →
      Nesting.Balanced inner →
      ∃ atOpening afterOpening atClosing afterClosing column,
        template.executeAll parameters outer template.opening = .ok atOpening ∧
        template.execute parameters (.openElement opened attributes) atOpening =
          .ok afterOpening ∧
        template.executeAll parameters inner afterOpening = .ok atClosing ∧
        template.execute parameters (.closeElement closed) atClosing = .ok afterClosing ∧
        Output.WritesAt column ['<'] atOpening afterOpening ∧
        Output.WritesAt column ['<', '/'] atClosing afterClosing) ∧
    ∃ last, template.run parameters = .ok last ∧ text = last.text ∧ last.depth = 0 := by
  have walked := Program.openTags_ofItems assembled
  obtain ⟨last, ran, shown⟩ := executeAll_of_render rendered
  have start : Output.Laid template.layout ([] : List Text).length template.opening :=
    laid_opening template
  refine ⟨?_, ?_, last, ran, shown, (laid_executeAll keeps start walked ran).depth_eq⟩
  · intro before instruction after parts
    rw [parts] at ran walked
    rw [Nesting.openTags_append] at walked
    obtain ⟨stack, early, late⟩ := Option.bind_eq_some_iff.mp walked
    obtain ⟨next, moved, -⟩ := Option.bind_eq_some_iff.mp late
    obtain ⟨output, executed, -⟩ := executeAll_append ran
    have laid := laid_executeAll keeps start early executed
    have counted := Nesting.length_openTags early
    rw [List.length_nil, Nat.zero_add] at counted
    refine ⟨output, executed, by omega, ?_, ?_, depth_dedented laid moved⟩
    · rw [laid.depth_eq]
      omega
    · rw [laid.depth_eq]
      exact laid.current_eq
  · intro outer opened attributes inner closed after parts balanced
    rw [parts] at ran walked
    rw [Nesting.openTags_append] at walked
    obtain ⟨stack, early, late⟩ := Option.bind_eq_some_iff.mp walked
    simp only [Nesting.openTags, Nesting.afterInstruction, Option.bind_some] at late
    rw [Nesting.openTags_append] at late
    obtain ⟨reached, within, -⟩ := Option.bind_eq_some_iff.mp late
    -- what lies between is balanced, so the walk is back above the opening line
    obtain rfl := Nesting.openTags_of_balanced balanced within
    obtain ⟨atOpening, executedOuter, ranOpening⟩ := executeAll_append ran
    obtain ⟨afterOpening, opening, ranInner⟩ := executeAll_cons ranOpening
    obtain ⟨atClosing, executedInner, ranClosing⟩ := executeAll_append ranInner
    obtain ⟨afterClosing, closing, -⟩ := executeAll_cons ranClosing
    have laidOpening := laid_executeAll keeps start early executedOuter
    have laidInner : Output.Laid template.layout (opened :: stack).length afterOpening :=
      laid_execute keeps laidOpening rfl opening
    have laidClosing := (laid_executeAll keeps laidInner within executedInner).dedent
    refine ⟨atOpening, afterOpening, atClosing, afterClosing, atOpening.levels.current,
      executedOuter, opening, executedInner, closing, writesAt_opening opening, ?_⟩
    rw [laidOpening.current_eq, ← laidClosing.current_eq]
    exact writesAt_closing closing

/-- A comment of two lines and raw code that writes two lines, each inside an element. -/
theorem levels_follow_nesting_raw :
    ∃ program : Program,
      Program.ofLexemes [⟨.element ['a'], 1⟩, ⟨.indent, 2⟩, ⟨.comment [['c'], ['d']], 2⟩,
        ⟨.element ['b'], 4⟩, ⟨.indent, 5⟩, ⟨.rawCode ['r'], 5⟩] = .ok program ∧
      render ⟨program, Evaluator.lookup, ⟨3, 1⟩⟩ [(['r'], .string "x\ny".toList)] =
        .ok ("   <a>\n      <!--\n         c\n         d\n      -->\n".toList ++
          "      <b>\n         x\n         y\n      </b>\n   </a>".toList) ∧
      ∃ last, run ⟨program, Evaluator.lookup, ⟨3, 1⟩⟩ [(['r'], .string "x\ny".toList)] =
        .ok last ∧ last.depth = 0 := by
  have safe : [['c'], ['d']].map Markup.escapeComment = [['c'], ['d']] := by
    simp [Markup.escapeComment, Markup.hyphenPairs]
  have assembled : Program.ofLexemes [⟨.element ['a'], 1⟩, ⟨.indent, 2⟩,
        ⟨.comment [['c'], ['d']], 2⟩, ⟨.element ['b'], 4⟩, ⟨.indent, 5⟩, ⟨.rawCode ['r'], 5⟩] =
      .ok ⟨none, .xml, [.openElement ['a'] [],
        .comment ([['c'], ['d']].map Markup.escapeComment), .openElement ['b'] [],
        .rawCode ['r'], .closeElement ['b'], .closeElement ['a']]⟩ := rfl
  rw [safe] at assembled
  refine ⟨_, assembled, rfl, ?_⟩
  obtain ⟨-, -, last, ran, -, closed⟩ := levels_follow_nesting _ ⟨_, Evaluator.lookup, ⟨3, 1⟩⟩
    [(['r'], .string "x\ny".toList)] _ assembled (Evaluator.keepsLevels_ofEvaluate _) rfl
  exact ⟨last, ran, closed⟩

end Template

end Stencil
