import Stencil.Evaluator.Lookup
import Stencil.Proofs.Comments
import Stencil.Proofs.Compiling
import Stencil.Proofs.Nesting
import Stencil.Proofs.Rendering

/-! Rendered documents are well formed.

`WellFormed` is a grammar of markup: text, empty elements, elements around further
markup, and comments.  While a document is rendered some elements are still open;
`Unfinished` is the same grammar with a stack of open tags, and it moves along with
the walk over opening and closing instructions.  A guarded program that has no
header therefore renders to a well-formed document, whatever its code gives. -/

namespace Stencil
namespace Markup

/-! ### The grammar -/

/-- Attributes of a tag: each after a space, with a name that no other one has and
an escaped value in double quotes. -/
def IsAttributeList (text : Text) : Prop :=
  ∃ entries : List (Text × Text),
    text = entries.flatMap (fun entry => ' ' :: entry.1 ++ "=\x22".toList ++ entry.2 ++ ['\x22']) ∧
    (entries.map Prod.fst).Nodup ∧
    ∀ entry ∈ entries, isName entry.1 = true ∧ IsValue entry.2

inductive WellFormed : Text → Prop
  | empty : WellFormed []
  | text {before text : Text} (earlier : WellFormed before) (isText : IsText text) :
      WellFormed (before ++ text)
  | leaf {before name attributes : Text} (earlier : WellFormed before)
      (named : isName name = true) (listed : IsAttributeList attributes) :
      WellFormed (before ++ ('<' :: name ++ attributes ++ "/>".toList))
  | element {before name attributes inner : Text} (earlier : WellFormed before)
      (named : isName name = true) (listed : IsAttributeList attributes)
      (content : WellFormed inner) :
      WellFormed (before ++
        ('<' :: name ++ attributes ++ ['>'] ++ inner ++ "</".toList ++ name ++ ['>']))
  | comment {before body : Text} (earlier : WellFormed before) (isBody : IsCommentBody body) :
      WellFormed (before ++ ("<!--".toList ++ body ++ "-->".toList))

theorem WellFormed.append {first second : Text} (wellFirst : WellFormed first)
    (wellSecond : WellFormed second) : WellFormed (first ++ second) := by
  induction wellSecond with
  | empty =>
      rw [List.append_nil]
      exact wellFirst
  | text earlier isText ih =>
      rw [← List.append_assoc]
      exact .text ih isText
  | leaf earlier named listed ih =>
      rw [← List.append_assoc]
      exact .leaf ih named listed
  | element earlier named listed content ih _ =>
      rw [← List.append_assoc]
      exact .element ih named listed content
  | comment earlier isBody ih =>
      rw [← List.append_assoc]
      exact .comment ih isBody

theorem wellFormed_of_isText {text : Text} (isText : IsText text) : WellFormed text :=
  .text .empty isText

/-! ### Documents with open elements -/

/-- Markup in which the elements of a stack are open, innermost first. -/
inductive Unfinished : List Text → Text → Prop
  | outside {text : Text} (well : WellFormed text) : Unfinished [] text
  | inside {stack : List Text} {before name attributes inner : Text}
      (around : Unfinished stack before) (named : isName name = true)
      (listed : IsAttributeList attributes) (content : WellFormed inner) :
      Unfinished (name :: stack) (before ++ ('<' :: name ++ attributes ++ ['>'] ++ inner))

namespace Unfinished

variable {stack : List Text} {before after name attributes : Text}

theorem append (unfinished : Unfinished stack before) (well : WellFormed after) :
    Unfinished stack (before ++ after) := by
  cases unfinished with
  | outside wellBefore => exact .outside (wellBefore.append well)
  | inside around named listed content =>
      rw [List.append_assoc, List.append_assoc]
      exact .inside around named listed (content.append well)

theorem append_text (unfinished : Unfinished stack before) (isText : IsText after) :
    Unfinished stack (before ++ after) :=
  unfinished.append (wellFormed_of_isText isText)

theorem opening (unfinished : Unfinished stack before) (named : isName name = true)
    (listed : IsAttributeList attributes) :
    Unfinished (name :: stack) (before ++ ('<' :: name ++ attributes ++ ['>'])) := by
  have opened := Unfinished.inside unfinished named listed .empty
  rwa [List.append_nil] at opened

theorem closing (unfinished : Unfinished (name :: stack) before) :
    Unfinished stack (before ++ ("</".toList ++ name ++ ['>'])) := by
  cases unfinished with
  | inside around named listed content =>
      have closed := around.append (.element .empty named listed content)
      simpa [List.append_assoc] using closed

theorem named_innermost (unfinished : Unfinished (name :: stack) before) :
    isName name = true := by
  cases unfinished with
  | inside around named listed content => exact named

end Unfinished

/-! ### Placed tags -/

def placedAttributes (column : Nat) (attributes : List Attribute) : Text :=
  attributes.flatMap fun entry =>
    Header.assignment entry.name (Text.enclosed column entry.value.written)

theorem placed_assignment {name : Text} (column : Nat) (value rest : Text)
    (named : isName name = true) :
    Text.placed column false (Header.assignment name value ++ rest) =
      Header.assignment name (Text.enclosed column value) ++ Text.placed column false rest := by
  have unbroken : '\n' ∉ ' ' :: name ++ "=\x22".toList := by
    simp [newline_not_mem_of_isName named]
  have parts (inside : Text) : Header.assignment name inside ++ rest =
      (' ' :: name ++ "=\x22".toList) ++ (inside ++ '\x22' :: rest) := by
    simp [Header.assignment]
  rw [parts, Text.placed_unbroken_append column _ unbroken,
    Text.placed_enclosed column _ _ (by decide)]
  simp [Header.assignment]

theorem placed_written {attributes : List Attribute} (column : Nat) (rest : Text)
    (named : ∀ entry ∈ attributes, isName entry.name = true) :
    Text.placed column false (Attribute.written attributes ++ rest) =
      placedAttributes column attributes ++ Text.placed column false rest := by
  induction attributes with
  | nil => rfl
  | cons entry others ih =>
      have placedOthers := ih (fun other member => named other (by simp [member]))
      simp only [Attribute.written, placedAttributes, List.flatMap_cons, List.append_assoc]
        at placedOthers ⊢
      rw [placed_assignment column _ _ (named entry (by simp)), placedOthers]

theorem isAttributeList_placed {attributes : List Attribute} (column : Nat)
    (guarded : Attribute.Guarded (fun name => isName name = true) attributes) :
    IsAttributeList (placedAttributes column attributes) := by
  refine ⟨attributes.map fun entry => (entry.name, Text.enclosed column entry.value.written),
    ?_, ?_, ?_⟩
  · rw [List.flatMap_map]
    rfl
  · rw [List.map_map]
    exact guarded.1
  · intro pair member
    obtain ⟨entry, among, rfl⟩ := List.mem_map.mp member
    obtain ⟨named, original, literal⟩ := guarded.2 entry among
    refine ⟨named, ?_⟩
    simp only [literal, AttributeValue.written]
    exact Escaped.enclosed column (by decide)
      (isValue_placed_escapeAttribute column false original)

theorem placed_tag {name : Text} {attributes : List Attribute} (column : Nat) (rest : Text)
    (named : isName name = true)
    (guarded : Attribute.Guarded (fun name => isName name = true) attributes) :
    Text.placed column true ('<' :: name ++ Attribute.written attributes ++ rest) =
      Text.spaces column ++
        ('<' :: name ++ placedAttributes column attributes ++
          Text.placed column false rest) := by
  rw [List.append_assoc, List.cons_append, Text.placed_cons column true _ (by decide),
    Text.placed_unbroken_append column _ (newline_not_mem_of_isName named),
    placed_written column rest (fun entry member => (guarded.2 entry member).1)]
  simp

/-! ### Written instructions -/

theorem isText_joint (output : Output) : IsText output.joint := by
  unfold Output.joint
  split
  · exact Escaped.nil
  · exact Escaped.of_plain (by simp)

theorem isText_spaces (column : Nat) : IsText (Text.spaces column) :=
  Escaped.spaces column (by decide)

namespace Unfinished

variable {stack : List Text} {output : Output} {name : Text} {attributes : List Attribute}

theorem margin (unfinished : Unfinished stack output.text) :
    Unfinished stack (output.text ++ output.joint ++ Text.spaces output.levels.current) :=
  (unfinished.append_text (isText_joint output)).append_text
    (isText_spaces output.levels.current)

theorem emit_empty (unfinished : Unfinished stack output.text) (named : isName name = true)
    (guarded : Attribute.Guarded (fun name => isName name = true) attributes) :
    Unfinished stack
      (output.emit (Template.elementLine name (Attribute.written attributes) none)).text := by
  have listed := isAttributeList_placed output.levels.current guarded
  have line : Template.elementLine name (Attribute.written attributes) none =
      '<' :: name ++ Attribute.written attributes ++ ['/'] ++ ['>'] := by
    simp [Template.elementLine]
  rw [line, Output.text_emit_concat _ output (by decide), List.append_assoc _ ['/'] ['>'],
    placed_tag _ _ named guarded, ← List.append_assoc]
  exact unfinished.margin.append (.leaf .empty named listed)

theorem emit_inline (unfinished : Unfinished stack output.text) (named : isName name = true)
    (guarded : Attribute.Guarded (fun name => isName name = true) attributes)
    (original : Text) :
    Unfinished stack (output.emit (Template.elementLine name (Attribute.written attributes)
      (some (escapeText original)))).text := by
  have listed := isAttributeList_placed output.levels.current guarded
  have isText : IsText (Text.enclosed output.levels.current (escapeText original)) :=
    Escaped.enclosed _ (by decide) (isText_placed_escapeText _ false original)
  have line : Template.elementLine name (Attribute.written attributes)
        (some (escapeText original)) =
      '<' :: name ++ Attribute.written attributes ++
        ('>' :: (escapeText original ++ ('<' :: '/' :: name))) ++ ['>'] := by
    simp [Template.elementLine]
  have closing : '\n' ∉ '/' :: name ++ ['>'] := by
    simp [newline_not_mem_of_isName named]
  have data : Text.placed output.levels.current false
        ('>' :: (escapeText original ++ ('<' :: '/' :: name)) ++ ['>']) =
      '>' :: Text.enclosed output.levels.current (escapeText original) ++
        '<' :: ('/' :: name ++ ['>']) := by
    rw [List.cons_append, Text.placed_cons _ _ _ (by decide), List.append_assoc,
      List.cons_append, Text.placed_enclosed _ _ _ (by decide), Text.placed_inside _ closing]
    simp
  rw [line, Output.text_emit_concat _ output (by decide), List.append_assoc _ _ ['>'],
    placed_tag _ _ named guarded, data, ← List.append_assoc]
  have whole := unfinished.margin.append
    (.element .empty named listed (wellFormed_of_isText isText))
  simpa using whole

theorem emit_opening (unfinished : Unfinished stack output.text) (named : isName name = true)
    (guarded : Attribute.Guarded (fun name => isName name = true) attributes) :
    Unfinished (name :: stack)
      (output.emit ('<' :: name ++ Attribute.written attributes ++ ['>'])).text := by
  have listed := isAttributeList_placed output.levels.current guarded
  rw [Output.text_emit_concat _ output (by decide), placed_tag _ _ named guarded,
    ← List.append_assoc]
  exact unfinished.margin.opening named listed

theorem emit_closing (unfinished : Unfinished (name :: stack) output.text) :
    Unfinished stack (output.emit ("</".toList ++ name ++ ['>'])).text := by
  have unbroken : '\n' ∉ '/' :: name ++ ['>'] := by
    simp [newline_not_mem_of_isName unfinished.named_innermost]
  have line : "</".toList ++ name ++ ['>'] = '<' :: ('/' :: name ++ ['>']) := rfl
  rw [Output.text_emit_concat _ output (by decide), line, Text.placed_cons _ _ _ (by decide),
    Text.placed_inside _ unbroken, if_pos rfl, ← List.append_assoc]
  exact unfinished.margin.closing

theorem emit_text (unfinished : Unfinished stack output.text) (original : Text) :
    Unfinished stack (output.emit (escapeText original)).text := by
  rw [Output.text_emit, dropFinalNewline_escapeText]
  exact (unfinished.append_text (isText_joint output)).append_text
    (isText_placed_escapeText output.levels.current true _)

theorem write_comment {lines : List Text} (unfinished : Unfinished stack output.text)
    (escaped : ∀ line ∈ lines, ∃ original, line = escapeComment original) :
    Unfinished stack (Template.writeComment lines output).text := by
  have unpaired : ∀ line ∈ lines, hyphenPairs line = 0 := by
    intro line member
    obtain ⟨original, rfl⟩ := escaped line member
    exact hyphenPairs_escapeComment original
  rw [text_writeComment]
  exact unfinished.margin.append
    (.comment .empty (isCommentBody_commentBody output.levels output.unit unpaired))

theorem wrote {instruction : Instruction} {written : Output} {next : List Text}
    (unfinished : Unfinished stack output.text)
    (guarded : instruction.Guarded (fun name => isName name = true))
    (moved : Nesting.afterInstruction instruction stack = some next)
    (wrote : Template.Wrote output instruction written) : Unfinished next written.text := by
  cases wrote with
  | empty =>
      cases moved
      exact unfinished.emit_empty guarded.1 guarded.2.1
  | inline original =>
      cases moved
      exact unfinished.emit_inline guarded.1 guarded.2.1 original
  | opened =>
      cases moved
      exact unfinished.emit_opening guarded.1 guarded.2
  | closed =>
      -- The walk over the tags succeeds, so the closing tag is that of the innermost element.
      cases stack with
      | nil => contradiction
      | cons innermost outer =>
          simp only [Nesting.afterInstruction, Option.ite_none_right_eq_some] at moved
          obtain ⟨rfl, same⟩ := moved
          cases same
          exact emit_closing unfinished
  | content original =>
      cases moved
      exact unfinished.emit_text original
  | comment =>
      cases moved
      exact unfinished.write_comment guarded
  | blank =>
      cases moved
      rw [Output.text_blank]
      exact unfinished.append_text (isText_joint output)

/-- A run of guarded instructions moves the open elements of the text as it moves
the open tags. -/
theorem executeAll {template : Template} {parameters : Parameters}
    {instructions : List Instruction} {last : Output} {reached : List Text}
    (profile : template.program.profile = Profile.xml)
    (guarded : ∀ instruction ∈ instructions,
      instruction.Guarded (fun name => isName name = true))
    (unfinished : Unfinished stack output.text)
    (walked : Nesting.openTags stack instructions = some reached)
    (executed : template.executeAll parameters instructions output = .ok last) :
    Unfinished reached last.text := by
  induction instructions generalizing stack output with
  | nil =>
      cases walked
      cases executed
      exact unfinished
  | cons instruction others ih =>
      obtain ⟨next, moved, rest⟩ := Option.bind_eq_some_iff.mp walked
      obtain ⟨written, first, later⟩ := Template.executeAll_cons executed
      have guardedFirst := guarded instruction (by simp)
      have wrote := Template.wrote_of_execute profile guardedFirst first
      exact ih (fun other member => guarded other (by simp [member]))
        (unfinished.wrote guardedFirst moved wrote) rest later

end Unfinished

end Markup

/-! ### Rendered documents -/

/-- A text that compiles, declares no header and whose only code is escaped code
renders to a well-formed document, whatever its evaluator gives. -/
theorem Template.wellFormed_render (text : Text) (lexemes : List Lexeme) (program : Program)
    (evaluator : Evaluator) (layout : Layout) (parameters : Parameters) (rendered : Text)
    (scanned : tokenize text = .ok lexemes)
    (escaping : ∀ lexeme ∈ lexemes,
      lexeme.token.escapesCode = true ∧ lexeme.token.isDirective = false)
    (compiled : Program.compile text = .ok program)
    (result : Template.render ⟨program, evaluator, layout⟩ parameters = .ok rendered) :
    Markup.WellFormed rendered := by
  have assembled := Program.ofLexemes_of_compile scanned compiled
  have plain : ∀ lexeme ∈ lexemes, lexeme.token.isDirective = false :=
    fun lexeme member => (escaping lexeme member).2
  have named := allNamed_tokenize scanned plain
  have guards : ∀ lexeme ∈ lexemes,
      Assembler.GuardsLexeme (fun name => isName name = true) lexeme :=
    fun lexeme member => ⟨(escaping lexeme member).1, named lexeme member⟩
  obtain ⟨profile, guarded⟩ := Program.guarded_ofLexemes guards assembled
  obtain ⟨output, executed, rfl⟩ := Template.executeAll_of_render result
  have start : Markup.Unfinished [] (Template.opening ⟨program, evaluator, layout⟩).text := by
    simp only [Template.opening, Program.header_ofLexemes plain assembled]
    exact .outside .empty
  have ended := Markup.Unfinished.executeAll profile guarded start
    (Program.openTags_ofItems assembled) executed
  cases ended with
  | outside well => exact well

/-- A tag in the result of code, a tag in a value and a long dash in a comment. -/
theorem Template.wellFormed_render_tricky :
    ∃ program : Program,
      Program.compile "%a(b=\x22<\x22)\n  = x\n  // --".toList = .ok program ∧
      Template.render ⟨program, Evaluator.lookup, ⟨2, 0⟩⟩ [(['x'], .string "</a>".toList)] =
        .ok "<a b=\x22&lt;\x22>\n  &lt;/a&gt;\n  <!-- - - -->\n</a>".toList ∧
      Markup.WellFormed
        "<a b=\x22&lt;\x22>\n  &lt;/a&gt;\n  <!-- - - -->\n</a>".toList := by
  have scanned : tokenize "%a(b=\x22<\x22)\n  = x\n  // --".toList =
      .ok [⟨.element ['a'], 1⟩, ⟨.literalAttribute ['b'] ['<'], 1⟩, ⟨.indent, 2⟩,
        ⟨.codeContent ['x'] true, 2⟩, ⟨.comment [['-', '-']], 3⟩, ⟨.dedent, 3⟩] :=
    tokenize_of_runWithin 20 (by decide +kernel)
  have dashed : Markup.escapeComment ['-', '-'] = "- -".toList := by decide +kernel
  have compiled : Program.compile "%a(b=\x22<\x22)\n  = x\n  // --".toList =
      .ok ⟨none, .xml, [.openElement ['a'] [⟨['b'], .literal "&lt;".toList⟩],
        .content (.code ['x'] true), .comment [Markup.escapeComment ['-', '-']],
        .closeElement ['a']]⟩ :=
    Program.compile_eq_ok_iff.mpr ⟨_, scanned, rfl⟩
  rw [dashed] at compiled
  refine ⟨_, compiled, rfl, ?_⟩
  exact Template.wellFormed_render _ _ _ Evaluator.lookup ⟨2, 0⟩
    [(['x'], .string "</a>".toList)] _ scanned (by decide) compiled rfl

end Stencil
