import Stencil.Proofs.Compiling
import Stencil.Proofs.DocumentAssembly
import Stencil.Proofs.DocumentScanning
import Stencil.Proofs.Rendering

/-! The template of a document renders to the markup of the document.

The tokens of the template are those of the document, they are assembled into its
instructions, and each instruction writes one line of the markup, at the column of its
level.  No code is run, so this holds for every evaluator and all parameters. -/

namespace Stencil

namespace Output

def below (lines : List Text) (output : Output) : Output :=
  { output with lines := output.lines ++ lines }

theorem below_below (first second : List Text) (output : Output) :
    (output.below first).below second = output.below (first ++ second) := by
  simp [below]

theorem emit_unbroken {text : Text} (output : Output) (unbroken : '\n' ∉ text) :
    output.emit text = output.below [place output.levels.current text] := by
  rw [emit, Text.dropFinalNewline_of_unbroken unbroken, Text.pieces_of_unbroken unbroken]
  rfl

end Output

namespace Document

theorem Attributes.newline_not_mem_markup (attributes : Attributes) :
    '\n' ∉ attributes.markup := by
  intro member
  obtain ⟨entry, -, inside⟩ := List.mem_flatMap.mp member
  have name := newline_not_mem_of_isName entry.1.named
  have value := Markup.newline_not_mem_escapeAttribute entry.2.newline_not_mem
  simp [name, value] at inside

theorem Attributes.written_emitted (attributes : Attributes) :
    Attribute.written attributes.emitted = attributes.markup := by
  rw [Attribute.written, emitted, List.flatMap_map]
  rfl

end Document

namespace Template

open Document

variable {template : Template} {parameters : Parameters}

theorem renderAttributes_emitted (attributes : Attributes) :
    template.renderAttributes parameters attributes.emitted = .ok attributes.markup := by
  rw [← attributes.written_emitted]
  refine renderAttributes_of_isLiteral ?_
  intro entry member
  obtain ⟨given, -, rfl⟩ := List.mem_map.mp member
  exact ⟨_, rfl⟩

/-! ### Lines at a level -/

structure AtLevel (layout : Layout) (level : Nat) (output : Output) : Prop where
  column : output.levels.current = (layout.baseIndent + level) * layout.indentWidth
  unit : output.unit = layout.indentWidth

section Lines

variable {level : Nat} {output : Output}

theorem AtLevel.below (atLevel : AtLevel template.layout level output) (lines : List Text) :
    AtLevel template.layout level (output.below lines) :=
  ⟨atLevel.column, atLevel.unit⟩

theorem AtLevel.indent (atLevel : AtLevel template.layout level output) :
    AtLevel template.layout (level + 1) output.indent where
  column := by
    have wider : output.indent.levels.current = output.levels.current + output.unit := rfl
    rw [wider, atLevel.column, atLevel.unit, ← Nat.add_assoc, Nat.succ_mul]
  unit := atLevel.unit

theorem AtLevel.emit (atLevel : AtLevel template.layout level output) {line : Text}
    (unbroken : '\n' ∉ line) :
    output.emit line = output.below [indented template.layout level line] := by
  rw [output.emit_unbroken unbroken, atLevel.column]
  rfl

theorem execute_text (atLevel : AtLevel template.layout level output) (content : Content) :
    template.execute parameters (.content (.text (Markup.escapeText content.text))) output =
      .ok (output.below [indented template.layout level (Markup.escapeText content.text)]) := by
  have unbroken := Markup.newline_not_mem_escapeText content.newline_not_mem
  simp only [execute, renderFragment, atLevel.emit unbroken]

theorem execute_empty (atLevel : AtLevel template.layout level output) (tag : Name)
    (attributes : Attributes) :
    template.execute parameters (.element tag.text attributes.emitted none) output =
      .ok (output.below [indented template.layout level
        ('<' :: tag.text ++ attributes.markup ++ "/>".toList)]) := by
  have unbroken : '\n' ∉ '<' :: tag.text ++ attributes.markup ++ "/>".toList := by
    simp [newline_not_mem_of_isName tag.named, attributes.newline_not_mem_markup]
  simp only [execute, renderAttributes_emitted, renderBody, elementLine, atLevel.emit unbroken]

theorem execute_opening (atLevel : AtLevel template.layout level output) (tag : Name)
    (attributes : Attributes) :
    template.execute parameters (.openElement tag.text attributes.emitted) output =
      .ok (output.below [indented template.layout level
        ('<' :: tag.text ++ attributes.markup ++ ['>'])]).indent := by
  have unbroken : '\n' ∉ '<' :: tag.text ++ attributes.markup ++ ['>'] := by
    simp [newline_not_mem_of_isName tag.named, attributes.newline_not_mem_markup]
  simp only [execute, renderAttributes_emitted, atLevel.emit unbroken]

theorem execute_closing (atLevel : AtLevel template.layout level output) (tag : Name)
    (lines : List Text) :
    template.execute parameters (.closeElement tag.text) (output.indent.below lines) =
      .ok (output.below (lines ++ [indented template.layout level
        ("</".toList ++ tag.text ++ ['>'])])) := by
  have unbroken : '\n' ∉ "</".toList ++ tag.text ++ ['>'] := by
    simp [newline_not_mem_of_isName tag.named]
  have back : (output.indent.below lines).dedent = output.below lines := rfl
  simp only [execute, back, (atLevel.below lines).emit unbroken, Output.below_below]

/-- The instructions of a forest write its lines. -/
theorem executeAll_forest (forest : List Tree) (others : List Instruction)
    (atLevel : AtLevel template.layout level output) :
    template.executeAll parameters (instructionsAll forest ++ others) output =
      template.executeAll parameters others
        (output.below (markupLinesAll template.layout level forest)) := by
  induction forest using forest_induction generalizing level output others with
  | nil => simp [instructionsAll, markupLinesAll, Output.below]
  | text content siblings ih =>
      simp only [instructionsAll, instructions, List.cons_append, List.nil_append, executeAll,
        execute_text atLevel]
      rw [ih others (atLevel.below _), Output.below_below]
      rfl
  | element tag attributes children siblings ihChildren ihSiblings =>
      rw [instructionsAll, instructions, markupLinesAll, markupLines, ← Output.below_below]
      by_cases childless : children.isEmpty = true
      · rw [if_pos childless, if_pos childless]
        simp only [List.cons_append, List.nil_append, executeAll, execute_empty atLevel]
        exact ihSiblings others (atLevel.below _)
      · rw [if_neg childless, if_neg childless]
        simp only [List.cons_append, List.append_assoc, executeAll, execute_opening atLevel]
        -- The closing tag is executed on the output that the children leave.
        rw [ihChildren _ (atLevel.below _).indent]
        simp only [List.nil_append, executeAll, execute_closing (atLevel.below _)]
        rw [ihSiblings others ((atLevel.below _).below _)]
        simp [Output.below]

end Lines

end Template

/-- The template of a document compiles, and renders to the markup of the document
whatever the step of its indentation, the layout, the evaluator and the parameters
are. -/
theorem Document.render_source (terminated : Bool) (step : Nat) (forest : List Document.Tree)
    (layout : Layout) (evaluator : Evaluator) (parameters : Parameters) (positive : 1 ≤ step) :
    ∃ program, Program.compile (Document.source terminated step forest) = .ok program ∧
      Template.render ⟨program, evaluator, layout⟩ parameters =
        .ok (Document.markup layout forest) := by
  obtain ⟨lexemes, scanned, tokens⟩ := Document.tokenize_source terminated forest positive
  have ready : Assembler.Ready [] [] Assembler.start :=
    .stands ⟨rfl, rfl, rfl, rfl, List.forall_mem_nil _⟩
  obtain ⟨assembler, pushed, readyLast⟩ := ready.takes_forest forest lexemes tokens
  have assembled : Program.ofLexemes lexemes =
      .ok ⟨none, Markup.Profile.xml, Document.instructionsAll forest⟩ := by
    simp only [Program.ofLexemes, Program.ofItems, pushed, readyLast.finish, List.nil_append]
  refine ⟨_, Program.compile_eq_ok_iff.mpr ⟨lexemes, scanned, assembled⟩, ?_⟩
  have start : Template.AtLevel layout 0 (Output.ofLayout layout) := by
    constructor
    · rw [Nat.add_zero]
      rfl
    · rfl
  have executed : Template.executeAll
        ⟨⟨none, Markup.Profile.xml, Document.instructionsAll forest⟩, evaluator, layout⟩ parameters
        (Document.instructionsAll forest ++ []) (Output.ofLayout layout) =
      .ok ((Output.ofLayout layout).below (Document.markupLinesAll layout 0 forest)) :=
    Template.executeAll_forest forest [] start
  rw [List.append_nil] at executed
  simp only [Template.render, Template.run, Template.opening, executed]
  rfl

/-- Nested elements, a value that needs both kinds of escaping, an empty text and a
text that looks like an element. -/
def Document.nested : List Document.Tree :=
  [.element ⟨['a'], rfl⟩
      ⟨[(⟨['b'], rfl⟩, ⟨"\x22<\\".toList, rfl⟩), (⟨['c'], rfl⟩, ⟨[], rfl⟩)], by decide⟩
      [.text ⟨⟨[], rfl⟩, rfl⟩,
        .element ⟨['d'], rfl⟩ ⟨[], by decide⟩ [.text ⟨⟨"%e".toList, rfl⟩, rfl⟩]],
    .element ⟨['f'], rfl⟩ ⟨[], by decide⟩ []]

theorem Document.render_source_nested :
    Document.source false 3 Document.nested =
        ("%a(b=\x22\\\x22<\\\\\x22 c=\x22\x22)\n".toList ++
          "   \\\n   %d\n      \\%e\n%f".toList) ∧
      Document.markup ⟨2, 1⟩ Document.nested =
        ("  <a b=\x22&quot;&lt;\\\x22 c=\x22\x22>\n\n".toList ++
          "    <d>\n      %e\n    </d>\n  </a>\n  <f/>".toList) ∧
      ∃ program,
        Program.compile (Document.source false 3 Document.nested) = .ok program ∧
        Template.render ⟨program, Evaluator.ofEvaluate fun _ _ => .ok .null, ⟨2, 1⟩⟩ [] =
          .ok (Document.markup ⟨2, 1⟩ Document.nested) := by
  refine ⟨by rfl, by rfl, ?_⟩
  exact Document.render_source false 3 Document.nested ⟨2, 1⟩ _ [] (by decide)

end Stencil
