import Stencil.Proofs.Compiling
import Stencil.Proofs.Interchange
import Stencil.Proofs.LineSlots

/-! Literal text and escaped code with the same value.

Literal text is trimmed as it is read and escaped as the program is assembled; the value of code
is escaped as it is written.  If the value is the text, nothing tells the two apart: not after the
`:` of an element, and not on a line of its own. -/

namespace Stencil

/-! ### Trimmed texts -/

namespace Text

theorem trimEnd_append {text : Text} (lead : Text) (given : text ≠ [])
    (trimmed : trimEnd text = text) : trimEnd (lead ++ text) = lead ++ text := by
  have kept : text.rdropWhile isBlank = text := trimmed
  have visible := List.rdropWhile_eq_self_iff.mp kept given
  have whole : (lead ++ text).rdropWhile isBlank = lead ++ text := by
    rw [List.rdropWhile_eq_self_iff]
    intro
    rwa [List.getLast_append_of_ne_nil]
  exact whole

theorem trimStart_of_trim {text : Text} (trimmed : trim text = text) : trimStart text = text := by
  rw [← trimmed, trimStart_trim]

theorem trimEnd_of_trim {text : Text} (trimmed : trim text = text) : trimEnd text = text := by
  rwa [trim, trimStart_of_trim trimmed] at trimmed

theorem trim_space (text : Text) : trim (' ' :: text) = trim text := by
  have dropped : trimStart (' ' :: text) = trimStart text := List.dropWhile_cons_of_pos (by decide)
  rw [trim, dropped, trim]

end Text

/-- Text that means itself: it is trimmed, and does not start with the sign of code. -/
structure Literal extends Document.Line where
  trimmed : Text.trim text = text
  unsigned : Text.startsWith "=".toList text = false ∧ Text.startsWith "&=".toList text = false ∧
    Text.startsWith "!=".toList text = false

structure Code extends Document.Line where
  isCode : LineGrammar.IsCode text

namespace Scanner

/-! ### Payloads -/

theorem payloadOf_literal (literal : Literal) (line : Nat) :
    payloadOf line literal.text = .ok (.literal literal.text) := by
  obtain ⟨equals, escaping, raw⟩ := literal.unsigned
  simp only [Text.startsWith, Option.isSome_eq_false_iff, Option.isNone_iff_eq_none]
    at equals escaping raw
  simp only [payloadOf, splitSign, equals, escaping, raw]

theorem payloadOf_code (code : Code) {sign : Text} (line : Nat)
    (escapes : sign = "= ".toList ∨ sign = "&= ".toList) :
    payloadOf line (sign ++ code.text) = .ok (.code code.text true) := by
  obtain ⟨given, trimmed⟩ := code.isCode
  have split : splitSign (sign ++ code.text) = .code (' ' :: code.text) true := by
    rcases escapes with rfl | rfl <;> rfl
  have kept : Text.trim (' ' :: code.text) = code.text := by
    rw [Text.trim_space, trimmed]
  simp [payloadOf, split, kept, given]

theorem trim_code (code : Code) {sign : Text}
    (escapes : sign = "= ".toList ∨ sign = "&= ".toList) :
    Text.trim (sign ++ code.text) = sign ++ code.text := by
  obtain ⟨given, trimmed⟩ := code.isCode
  have visible : Text.trimStart (sign ++ code.text) = sign ++ code.text := by
    rcases escapes with rfl | rfl <;> rfl
  rw [Text.trim, visible, Text.trimEnd_append sign given (Text.trimEnd_of_trim trimmed)]

/-! ### Lines -/

theorem reads_whole {character : Char} {rest : Text} {token : Token}
    (visible : Text.isBlank character = false)
    (read : ∀ width next later, readConstruct (openingOf (character :: rest)) width next
      ⟨later, some (character :: rest), next⟩ =
        .ok (⟨later, none, next⟩, .lineStart, onLine next [token])) :
    Reads (character :: rest) [token] := by
  intro width next number later levels left structural pending begun entered
  exact (passes_construct visible entered (read width next later) (by simp)).runs

theorem reads_verbatim (literal : Literal) :
    Reads ('\\' :: literal.text) [.content literal.text] := by
  apply reads_whole (by decide)
  intro width next later
  have opening : openingOf ('\\' :: literal.text) = .verbatim := by
    simp [openingOf, shortcutAttribute]
  have trimmed := Text.trimEnd_of_trim literal.trimmed
  simp [opening, readConstruct, readContent, trimmed]

theorem reads_code (code : Code) {sign : Text}
    (escapes : sign = "= ".toList ∨ sign = "&= ".toList) :
    Reads (sign ++ code.text) [.codeContent code.text true] := by
  have read (width next : Nat) (later : List (Nat × Text)) :
      readConstruct .code width next ⟨later, some (sign ++ code.text), next⟩ =
        .ok (⟨later, none, next⟩, .lineStart, onLine next [.codeContent code.text true]) := by
    simp [readConstruct, readCode, trim_code code escapes, payloadOf_code code next escapes,
      Payload.content]
  rcases escapes with rfl | rfl
  · exact reads_whole (by decide) read
  · exact reads_whole (by decide) read

theorem reads_data (tag : Document.Name) {data : Text} {payload : Payload}
    (paid : ∀ line, payloadOf line (Text.trim data) = .ok payload) :
    Reads ('%' :: (tag.text ++ ':' :: data)) [.element tag.text, payload.data] := by
  intro width next number later levels left structural pending begun entered
  have tagged := (@passes_construct levels pending begun width next number '%'
    (tag.text ++ ':' :: data) later _ _ _ _ _ (by decide) entered
    (readConstruct_tag tag width rfl rfl (by simp) rfl) (by simp)).runs
  have colon : readPiece 0 ⟨later, some (':' :: data), next⟩ =
      .ok (⟨later, some data, next⟩, .data, []) := by
    simp [readPiece]
  have stepped := RunsTo.of_step (by simp) (step_pieces left false true colon)
  have read : readData ⟨later, some data, next⟩ =
      .ok (⟨later, none, next⟩, .lineStart, onLine next [payload.data]) := by
    simp [readData, Source.lineNumber, paid]
  have ended : (Scanner.mk ⟨later, some data, next⟩ left .data false true).step =
      .ok (⟨⟨later, none, next⟩, left, .lineStart, false, true⟩, onLine next [payload.data]) := by
    simp [step, act, advance, read]
  have whole := tagged.trans (stepped.trans (RunsTo.of_step (by simp) ended))
  rw [List.append_assoc] at whole
  exact whole

end Scanner

/-! ### Rendering -/

namespace Slot

open Scanner (Reads)

def rendered (slot : Slot) (evaluator : Evaluator) (layout : Layout) (parameters : Parameters)
    (line : Text) : Except Fault Text :=
  (Program.compile (slot.text line)).bind fun program =>
    Template.render ⟨program, evaluator, layout⟩ parameters

variable {slot : Slot} {evaluator : Evaluator} {parameters : Parameters}

/-- Lines that end in counterparts render alike if the code evaluates to the text. -/
theorem rendered_counterparts {first second text code : Text} {lead : List Token}
    {one two : Token} (layout : Layout) (counterparts : Counterparts text code one two)
    (signedFirst : IsSigned first) (signedSecond : IsSigned second)
    (readsFirst : Reads first (lead ++ [one])) (readsSecond : Reads second (lead ++ [two]))
    (evaluates : evaluator.evaluate code parameters = .ok (.string text)) :
    slot.rendered evaluator layout parameters first =
      slot.rendered evaluator layout parameters second := by
  unfold rendered
  rcases compile_text signedFirst signedSecond readsFirst readsSecond with
    same | ⟨front, rest, line, compiledFirst, compiledSecond⟩
  · rw [same]
  · rcases Program.ofItems_counterparts counterparts front rest line with
      ⟨fault, refusedFirst, refusedSecond⟩ |
      ⟨program, before, oneInstruction, twoInstruction, interchanged, profile, programFirst,
        programSecond⟩
    · rw [compiledFirst, compiledSecond, refusedFirst, refusedSecond]
    · rw [compiledFirst, compiledSecond, programFirst, programSecond]
      rw [← profile] at interchanged
      exact Template.render_interchanged layout interchanged evaluates

def dataLine (tag : Document.Name) (data : Text) : Text :=
  '%' :: (tag.text ++ (": ".toList ++ data))

theorem isSigned_dataLine (tag : Document.Name) {data : Text}
    (inline : data.all Document.isInline = true) : IsSigned (dataLine tag data) where
  inline := by
    have signs : Document.isInline '%' = true ∧ Document.isInline ':' = true ∧
        Document.isInline ' ' = true := by decide
    simp [dataLine, signs, tag.all_isInline, inline]
  signed := ⟨'%', _, rfl, by decide⟩

theorem all_isInline_code (code : Code) {sign : Text}
    (escapes : sign = "= ".toList ∨ sign = "&= ".toList) :
    (sign ++ code.text).all Document.isInline = true := by
  have signs : Document.isInline '&' = true ∧ Document.isInline '=' = true ∧
      Document.isInline ' ' = true := by decide
  rcases escapes with rfl | rfl <;> simp [signs, code.inline]

theorem isSigned_code (code : Code) {sign : Text}
    (escapes : sign = "= ".toList ∨ sign = "&= ".toList) :
    IsSigned (sign ++ code.text) where
  inline := all_isInline_code code escapes
  signed := by
    rcases escapes with rfl | rfl
    · exact ⟨'=', _, rfl, by decide⟩
    · exact ⟨'&', _, rfl, by decide⟩

theorem isSigned_verbatim (literal : Literal) : IsSigned ('\\' :: literal.text) where
  inline := by
    have sign : Document.isInline '\\' = true := by decide
    simp [sign, literal.inline]
  signed := ⟨'\\', _, rfl, by decide⟩

section Signs

variable {literal : Literal} {code : Code} {sign : Text}

theorem rendered_data (tag : Document.Name) (layout : Layout)
    (escapes : sign = "= ".toList ∨ sign = "&= ".toList)
    (evaluates : evaluator.evaluate code.text parameters = .ok (.string literal.text)) :
    slot.rendered evaluator layout parameters (dataLine tag literal.text) =
      slot.rendered evaluator layout parameters (dataLine tag (sign ++ code.text)) := by
  have paidLiteral (line : Nat) : Scanner.payloadOf line (Text.trim (' ' :: literal.text)) =
      .ok (.literal literal.text) := by
    rw [Text.trim_space, literal.trimmed, Scanner.payloadOf_literal]
  have paidCode (line : Nat) :
      Scanner.payloadOf line (Text.trim (' ' :: (sign ++ code.text))) =
        .ok (.code code.text true) := by
    rw [Text.trim_space, Scanner.trim_code code escapes, Scanner.payloadOf_code code line escapes]
  exact @rendered_counterparts slot evaluator parameters _ _ _ _ [.element tag.text] _ _ layout
    .data (isSigned_dataLine tag literal.inline)
    (isSigned_dataLine tag (all_isInline_code code escapes))
    (Scanner.reads_data tag paidLiteral) (Scanner.reads_data tag paidCode) evaluates

theorem rendered_content (layout : Layout) (escapes : sign = "= ".toList ∨ sign = "&= ".toList)
    (evaluates : evaluator.evaluate code.text parameters = .ok (.string literal.text)) :
    slot.rendered evaluator layout parameters ('\\' :: literal.text) =
      slot.rendered evaluator layout parameters (sign ++ code.text) :=
  @rendered_counterparts slot evaluator parameters _ _ _ _ [] _ _ layout .content
    (isSigned_verbatim literal) (isSigned_code code escapes) (Scanner.reads_verbatim literal)
    (Scanner.reads_code code escapes) evaluates

end Signs

/-- Literal text renders as escaped code does whose value is the text, as data of an element and
on a line of its own.  So it is in every slot, as below every chain of parents. -/
theorem literal_renders_as_code (slot : Slot) (tag : Document.Name) (literal : Literal)
    (code : Code) (layout : Layout) (evaluator : Evaluator) (parameters : Parameters)
    (evaluates : evaluator.evaluate code.text parameters = .ok (.string literal.text)) :
    slot.rendered evaluator layout parameters (dataLine tag literal.text) =
        slot.rendered evaluator layout parameters (dataLine tag ("= ".toList ++ code.text)) ∧
      slot.rendered evaluator layout parameters (dataLine tag literal.text) =
        slot.rendered evaluator layout parameters (dataLine tag ("&= ".toList ++ code.text)) ∧
      slot.rendered evaluator layout parameters ('\\' :: literal.text) =
        slot.rendered evaluator layout parameters ("= ".toList ++ code.text) ∧
      slot.rendered evaluator layout parameters ('\\' :: literal.text) =
        slot.rendered evaluator layout parameters ("&= ".toList ++ code.text) :=
  ⟨rendered_data tag layout (.inl rfl) evaluates, rendered_data tag layout (.inr rfl) evaluates,
    rendered_content layout (.inl rfl) evaluates, rendered_content layout (.inr rfl) evaluates⟩

theorem literal_renders_as_code_nested :
    ∃ slot : Slot, slot.above = "%ul\n   %li(k=\x22v\x22)\n".toList ∧ slot.width = 4 ∧
      slot.rendered (.ofEvaluate fun _ _ => .ok (.string "a < b".toList)) {} [] "%p: a < b".toList =
        .ok "<ul>\n  <li k=\x22v\x22>\n    <p>a &lt; b</p>\n  </li>\n</ul>".toList ∧
      slot.rendered (.ofEvaluate fun _ _ => .ok (.string "a < b".toList)) {} [] "%p: a < b".toList =
        slot.rendered (.ofEvaluate fun _ _ => .ok (.string "a < b".toList)) {} []
          "%p: &= x".toList ∧
      slot.rendered (.ofEvaluate fun _ _ => .ok (.string "a < b".toList)) {} [] "\\a < b".toList =
        slot.rendered (.ofEvaluate fun _ _ => .ok (.string "a < b".toList)) {} [] "= x".toList := by
  have alike := literal_renders_as_code
    (.beneath
      [⟨0, ⟨"ul".toList, by decide⟩, ⟨[], .nil⟩⟩,
        ⟨3, ⟨"li".toList, by decide⟩,
          ⟨[(⟨"k".toList, by decide⟩, ⟨"v".toList, by decide⟩)], by simp⟩⟩]
      (.cons_cons (by decide) (.singleton _)) 4 [] rfl)
    ⟨"p".toList, by decide⟩ ⟨⟨"a < b".toList, by decide⟩, by decide, by decide⟩
    ⟨⟨"x".toList, by decide⟩, by decide, by decide⟩ {}
    (.ofEvaluate fun _ _ => .ok (.string "a < b".toList)) [] rfl
  refine ⟨_, by decide, rfl, ?_, alike.2.1, alike.2.2.1⟩
  have cut : tokenize "%ul\n   %li(k=\x22v\x22)\n    %p: a < b".toList =
      .ok [⟨.element "ul".toList, 1⟩, ⟨.indent, 2⟩, ⟨.element "li".toList, 2⟩,
        ⟨.literalAttribute ['k'] ['v'], 2⟩, ⟨.indent, 3⟩, ⟨.element ['p'], 3⟩,
        ⟨.data "a < b".toList, 3⟩, ⟨.dedent, 3⟩, ⟨.dedent, 3⟩] :=
    tokenize_of_runWithin 40 (by decide +kernel)
  have compiled := Program.compile_eq_ok_iff.mpr ⟨_, cut, rfl⟩
  change (Program.compile "%ul\n   %li(k=\x22v\x22)\n    %p: a < b".toList).bind _ = _
  rw [compiled]
  rfl

end Slot

end Stencil
