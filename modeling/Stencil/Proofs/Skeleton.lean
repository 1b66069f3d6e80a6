import Stencil.Evaluator.Lookup
import Stencil.Proofs.Comments
import Stencil.Proofs.Compiling
import Stencil.Proofs.Rendering

/-! The markup of a rendered document does not depend on its parameters.

The skeleton of a text is the list of its tags, each from `<` to the next `>`.  Two
runs of a guarded program with different parameters stay alike: they place lines in
the same columns, neither text ends inside a tag, and the texts have the same
skeleton.  What differs is escaped text, which holds no `<`. -/

namespace Stencil
namespace Markup

/-! ### Skeletons -/

/-- The tags of a text that is read outside a tag, or after the given part of one. -/
def tagsFrom : Option Text → Text → List Text
  | _, [] => []
  | none, character :: rest =>
      if character = '<' then tagsFrom (some ['<']) rest else tagsFrom none rest
  | some opened, character :: rest =>
      if character = '>' then (opened ++ ['>']) :: tagsFrom none rest
      else tagsFrom (some (opened ++ [character])) rest

def openAfter : Option Text → Text → Option Text
  | state, [] => state
  | none, character :: rest =>
      if character = '<' then openAfter (some ['<']) rest else openAfter none rest
  | some opened, character :: rest =>
      if character = '>' then openAfter none rest
      else openAfter (some (opened ++ [character])) rest

/-- The tags of a text: each `<` with what follows it up to the next `>`. -/
def skeleton (text : Text) : List Text :=
  tagsFrom none text

theorem tagsFrom_append (state : Option Text) (first second : Text) :
    tagsFrom state (first ++ second) =
      tagsFrom state first ++ tagsFrom (openAfter state first) second := by
  induction first generalizing state with
  | nil => cases state <;> simp [tagsFrom, openAfter]
  | cons character rest ih =>
      cases state with
      | none =>
          simp only [List.cons_append, tagsFrom, openAfter]
          split
          · exact ih _
          · exact ih _
      | some opened =>
          simp only [List.cons_append, tagsFrom, openAfter]
          split
          · rw [ih, List.cons_append]
          · exact ih _

theorem openAfter_append (state : Option Text) (first second : Text) :
    openAfter state (first ++ second) = openAfter (openAfter state first) second := by
  induction first generalizing state with
  | nil => cases state <;> rfl
  | cons character rest ih =>
      cases state with
      | none =>
          simp only [List.cons_append, openAfter]
          split
          · exact ih _
          · exact ih _
      | some opened =>
          simp only [List.cons_append, openAfter]
          split
          · exact ih _
          · exact ih _

theorem openAfter_concat (state : Option Text) (text : Text) :
    openAfter state (text ++ ['>']) = none := by
  rw [openAfter_append]
  cases openAfter state text <;> rfl

theorem skeleton_of_not_mem {text : Text} (free : '<' ∉ text) :
    skeleton text = [] ∧ openAfter none text = none := by
  unfold skeleton
  induction text with
  | nil => exact ⟨rfl, rfl⟩
  | cons character rest ih =>
      simp only [List.mem_cons, not_or] at free
      simp only [tagsFrom, openAfter, if_neg (Ne.symm free.1)]
      exact ih free.2

/-! ### Texts with the same skeleton -/

/-- Two texts with the same tags, neither of which ends inside a tag. -/
structure SameTags (first second : Text) : Prop where
  same : skeleton first = skeleton second
  closedFirst : openAfter none first = none
  closedSecond : openAfter none second = none

namespace SameTags

variable {first second laterFirst laterSecond : Text}

theorem append (alike : SameTags first second) (later : SameTags laterFirst laterSecond) :
    SameTags (first ++ laterFirst) (second ++ laterSecond) where
  same := by
    -- The later texts are read outside a tag, since the earlier ones end there.
    have same := alike.same
    have sameLater := later.same
    unfold skeleton at same sameLater ⊢
    rw [tagsFrom_append, tagsFrom_append, alike.closedFirst, alike.closedSecond, same, sameLater]
  closedFirst := by rw [openAfter_append, alike.closedFirst, later.closedFirst]
  closedSecond := by rw [openAfter_append, alike.closedSecond, later.closedSecond]

theorem of_not_mem (freeFirst : '<' ∉ first) (freeSecond : '<' ∉ second) :
    SameTags first second where
  same := by rw [(skeleton_of_not_mem freeFirst).1, (skeleton_of_not_mem freeSecond).1]
  closedFirst := (skeleton_of_not_mem freeFirst).2
  closedSecond := (skeleton_of_not_mem freeSecond).2

theorem of_isText (isFirst : IsText first) (isSecond : IsText second) : SameTags first second :=
  of_not_mem (isFirst.clean '<' (by decide)) (isSecond.clean '<' (by decide))

theorem refl_concat (text : Text) : SameTags (text ++ ['>']) (text ++ ['>']) :=
  ⟨rfl, openAfter_concat none text, openAfter_concat none text⟩

theorem refl_placed (column : Nat) (fresh : Bool) (text : Text) :
    SameTags (Text.placed column fresh (text ++ ['>']))
      (Text.placed column fresh (text ++ ['>'])) := by
  rw [Text.placed_append, Text.placed_cons _ _ _ (by decide), ← List.append_assoc]
  exact refl_concat _

end SameTags

/-! ### Two runs -/

/-- Two outputs that place lines alike and hold the same tags. -/
structure Alike (first second : Output) : Prop where
  levels : first.levels = second.levels
  unit : first.unit = second.unit
  tags : SameTags first.text second.text

namespace Alike

variable {first second : Output}

theorem joint (first second : Output) : SameTags first.joint second.joint := by
  have free (output : Output) : '<' ∉ output.joint := by
    unfold Output.joint
    split <;> simp
  exact SameTags.of_not_mem (free first) (free second)

theorem emit_concat (alike : Alike first second) (text : Text) :
    Alike (first.emit (text ++ ['>'])) (second.emit (text ++ ['>'])) where
  levels := alike.levels
  unit := alike.unit
  tags := by
    rw [Output.text_emit_concat _ first (by decide), Output.text_emit_concat _ second (by decide),
      alike.levels]
    exact (alike.tags.append (joint first second)).append (SameTags.refl_placed _ true text)

theorem emit_text (alike : Alike first second) (firstText secondText : Text) :
    Alike (first.emit (escapeText firstText)) (second.emit (escapeText secondText)) where
  levels := alike.levels
  unit := alike.unit
  tags := by
    rw [Output.text_emit, Output.text_emit, dropFinalNewline_escapeText,
      dropFinalNewline_escapeText]
    exact (alike.tags.append (joint first second)).append
      (.of_isText (isText_placed_escapeText _ true _) (isText_placed_escapeText _ true _))

private theorem placed_between (column : Nat) (opening text closing : Text) :
    Text.placed column true ((opening ++ ['>'] ++ (text ++ '<' :: closing)) ++ ['>']) =
      Text.placed column true (opening ++ ['>']) ++
        (Text.enclosed column text ++ Text.placed column false (('<' :: closing) ++ ['>'])) := by
  rw [List.append_assoc, Text.placed_append, Text.freshAfter_concat _ _ (by decide),
    List.append_assoc, List.cons_append, Text.placed_enclosed _ _ _ (by decide),
    Text.placed_cons _ false _ (by decide)]
  rfl

theorem emit_inline (alike : Alike first second) (tag attributes firstText secondText : Text) :
    Alike (first.emit (Template.elementLine tag attributes (some (escapeText firstText))))
      (second.emit (Template.elementLine tag attributes (some (escapeText secondText)))) where
  levels := alike.levels
  unit := alike.unit
  tags := by
    have line (text : Text) : Template.elementLine tag attributes (some text) =
        ('<' :: tag ++ attributes ++ ['>'] ++ (text ++ '<' :: ('/' :: tag))) ++ ['>'] := by
      simp [Template.elementLine]
    have data (column : Nat) (text : Text) : IsText (Text.enclosed column (escapeText text)) :=
      Escaped.enclosed column (by decide) (isText_placed_escapeText column false text)
    rw [line, line, Output.text_emit_concat _ first (by decide),
      Output.text_emit_concat _ second (by decide), alike.levels, placed_between, placed_between]
    refine (alike.tags.append (joint first second)).append ?_
    refine (SameTags.refl_placed _ true _).append ?_
    exact (SameTags.of_isText (data _ firstText) (data _ secondText)).append
      (SameTags.refl_placed _ false _)

theorem indent (alike : Alike first second) : Alike first.indent second.indent where
  levels := by rw [Output.levels_indent, Output.levels_indent, alike.levels, alike.unit]
  unit := alike.unit
  tags := alike.tags

theorem dedent (alike : Alike first second) : Alike first.dedent second.dedent where
  levels := by rw [Output.levels_dedent, Output.levels_dedent, alike.levels]
  unit := alike.unit
  tags := alike.tags

theorem blank (alike : Alike first second) : Alike first.blank second.blank where
  levels := alike.levels
  unit := alike.unit
  tags := by
    rw [Output.text_blank, Output.text_blank]
    exact alike.tags.append (joint first second)

theorem write_comment (alike : Alike first second) (lines : List Text) :
    Alike (Template.writeComment lines first) (Template.writeComment lines second) where
  levels := by rw [levels_writeComment, levels_writeComment, alike.levels]
  unit := by rw [unit_writeComment, unit_writeComment, alike.unit]
  tags := by
    rw [text_writeComment, text_writeComment, alike.levels, alike.unit]
    have free : '<' ∉ Text.spaces second.levels.current := by
      simp [Text.spaces, List.mem_replicate]
    refine ((alike.tags.append (joint first second)).append (.of_not_mem free free)).append ?_
    -- Angle brackets in the comment do no harm: both runs write the same one.
    have parts (body : Text) : "<!--".toList ++ body ++ "-->".toList =
        ("<!--".toList ++ body ++ "--".toList) ++ ['>'] := by
      simp
    rw [parts]
    exact SameTags.refl_concat _

theorem wrote {instruction : Instruction} {laterFirst laterSecond : Output}
    (alike : Alike first second) (wroteFirst : Template.Wrote first instruction laterFirst)
    (wroteSecond : Template.Wrote second instruction laterSecond) :
    Alike laterFirst laterSecond := by
  cases wroteFirst with
  | empty =>
      cases wroteSecond with
      | empty =>
          have line (tag attributes : Text) : Template.elementLine tag attributes none =
              ('<' :: tag ++ attributes ++ ['/']) ++ ['>'] := by
            simp [Template.elementLine]
          rw [line]
          exact alike.emit_concat _
  | inline firstText =>
      cases wroteSecond with
      | inline secondText => exact alike.emit_inline _ _ firstText secondText
  | opened =>
      cases wroteSecond with
      | opened => exact (alike.emit_concat _).indent
  | closed =>
      cases wroteSecond with
      | closed => exact alike.dedent.emit_concat _
  | content firstText =>
      cases wroteSecond with
      | content secondText => exact alike.emit_text firstText secondText
  | comment =>
      cases wroteSecond with
      | comment => exact alike.write_comment _
  | blank =>
      cases wroteSecond with
      | blank => exact alike.blank

end Alike

end Markup

namespace Template

open Markup

variable {template : Template} {Named : Text → Prop}

/-- A run keeps two outputs alike, whatever its parameters are. -/
theorem alike_executeAll {instructions : List Instruction} {firstParameters : Parameters}
    {secondParameters : Parameters} {first second lastFirst lastSecond : Output}
    (profile : template.program.profile = Profile.xml)
    (guarded : ∀ instruction ∈ instructions, instruction.Guarded Named)
    (alike : Alike first second)
    (ranFirst : template.executeAll firstParameters instructions first = .ok lastFirst)
    (ranSecond : template.executeAll secondParameters instructions second = .ok lastSecond) :
    Alike lastFirst lastSecond := by
  induction instructions generalizing first second with
  | nil =>
      cases ranFirst
      cases ranSecond
      exact alike
  | cons instruction others ih =>
      obtain ⟨writtenFirst, stepFirst, laterFirst⟩ := executeAll_cons ranFirst
      obtain ⟨writtenSecond, stepSecond, laterSecond⟩ := executeAll_cons ranSecond
      have guardedStep := guarded instruction (by simp)
      have alikeStep := alike.wrote (wrote_of_execute profile guardedStep stepFirst)
        (wrote_of_execute profile guardedStep stepSecond)
      exact ih (fun other member => guarded other (by simp [member])) alikeStep laterFirst
        laterSecond

theorem alike_opening (template : Template) : Alike template.opening template.opening := by
  have start : Alike (Output.ofLayout template.layout) (Output.ofLayout template.layout) :=
    ⟨rfl, rfl, rfl, rfl, rfl⟩
  unfold opening
  split
  · exact start
  · rename_i header _
    have line : header.render = "<?".toList ++ header.kind ++
        header.attributes.flatMap (fun entry => Header.assignment entry.1 entry.2) ++
          ['?'] ++ ['>'] := by
      simp [Header.render]
    rw [line]
    exact start.emit_concat _

/-- Parameters cannot change the markup of a document through escaped code: whatever
two sets of parameters are, the rendered texts have the same tags. -/
theorem skeleton_render (text : Text) (lexemes : List Lexeme) (program : Program)
    (evaluator : Evaluator) (layout : Layout) (first second : Parameters)
    (renderedFirst renderedSecond : Text) (scanned : tokenize text = .ok lexemes)
    (escaping : ∀ lexeme ∈ lexemes, lexeme.token.escapesCode = true)
    (compiled : Program.compile text = .ok program)
    (resultFirst : render ⟨program, evaluator, layout⟩ first = .ok renderedFirst)
    (resultSecond : render ⟨program, evaluator, layout⟩ second = .ok renderedSecond) :
    skeleton renderedFirst = skeleton renderedSecond := by
  have assembled := Program.ofLexemes_of_compile scanned compiled
  have guards : ∀ lexeme ∈ lexemes, Assembler.GuardsLexeme (fun _ => True) lexeme :=
    fun lexeme member => ⟨escaping lexeme member, fun _ _ => trivial⟩
  obtain ⟨profile, guarded⟩ := Program.guarded_ofLexemes guards assembled
  obtain ⟨outputFirst, ranFirst, rfl⟩ := executeAll_of_render resultFirst
  obtain ⟨outputSecond, ranSecond, rfl⟩ := executeAll_of_render resultSecond
  have alike := alike_executeAll profile guarded (alike_opening _) ranFirst ranSecond
  exact alike.tags.same

/-- A closing tag and a line break in a parameter, and an empty parameter. -/
theorem skeleton_render_breakout :
    ∃ program : Program,
      Program.compile "!!! xml\n%b: = x".toList = .ok program ∧
      render ⟨program, Evaluator.lookup, ⟨2, 1⟩⟩ [(['x'], .string "</b>\n<i/>".toList)] =
        .ok ("  <?xml version=\x221.0\x22 encoding=\x22utf-8\x22?>\n".toList ++
          "  <b>&lt;/b&gt;\n  &lt;i/&gt;</b>".toList) ∧
      render ⟨program, Evaluator.lookup, ⟨2, 1⟩⟩ [(['x'], .null)] =
        .ok ("  <?xml version=\x221.0\x22 encoding=\x22utf-8\x22?>\n".toList ++
          "  <b></b>".toList) ∧
      skeleton ("  <?xml version=\x221.0\x22 encoding=\x22utf-8\x22?>\n".toList ++
          "  <b>&lt;/b&gt;\n  &lt;i/&gt;</b>".toList) =
        skeleton ("  <?xml version=\x221.0\x22 encoding=\x22utf-8\x22?>\n".toList ++
          "  <b></b>".toList) := by
  have scanned : tokenize "!!! xml\n%b: = x".toList =
      .ok [⟨.directive "xml".toList, 1⟩, ⟨.element ['b'], 2⟩, ⟨.codeData ['x'] true, 2⟩] :=
    tokenize_of_runWithin 20 (by decide +kernel)
  have compiled := Program.compile_eq_ok_iff.mpr ⟨_, scanned, rfl⟩
  refine ⟨_, compiled, rfl, rfl, ?_⟩
  exact skeleton_render _ _ _ Evaluator.lookup ⟨2, 1⟩ [(['x'], .string "</b>\n<i/>".toList)]
    [(['x'], .null)] _ _ scanned (by decide) compiled rfl rfl

end Template

end Stencil
