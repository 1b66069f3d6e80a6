import Stencil.Proofs.UnreadLines

/-! What a scanner yields from a state on.

Two scanners that do not keep in step are compared by what each of them yields from a state
to the end: spaces in an attribute list and blank lines are passed over one by one or all at
once, and the number of the line read last does not matter at the start of a line. -/

namespace Stencil

namespace Scanner

/-- From the first state on, the scanner yields the lexemes and then what it yields from the
last state on. -/
def RunsTo (scanner : Scanner) (lexemes : List Lexeme) (last : Scanner) : Prop :=
  scanner.run = (lexemes ++ last.run.1, last.run.2)

namespace RunsTo

variable {scanner middle last : Scanner} {first second : List Lexeme}

theorem refl (scanner : Scanner) : RunsTo scanner [] scanner := rfl

theorem trans (runsFirst : RunsTo scanner first middle) (runsSecond : RunsTo middle second last) :
    RunsTo scanner (first ++ second) last := by
  unfold RunsTo at *
  rw [runsFirst, runsSecond, List.append_assoc]

theorem of_step (active : scanner.mode ≠ .done) (stepped : scanner.step = .ok (last, first)) :
    RunsTo scanner first last :=
  run_of_step active stepped

theorem of_run (same : scanner.run = last.run) : RunsTo scanner [] last := by
  unfold RunsTo
  rw [same]
  rfl

end RunsTo

/-- The scanner comes from one state to another, and yields the lexemes on its way. -/
structure Passes (scanner : Scanner) (lexemes : List Lexeme) (last : Scanner) : Prop where
  reaches : Reaches scanner (lexemes.map Lexeme.token) last
  runs : RunsTo scanner lexemes last

theorem Passes.refl (scanner : Scanner) : Passes scanner [] scanner :=
  ⟨.refl scanner, .refl scanner⟩

theorem Passes.step {scanner middle last : Scanner} {first second : List Lexeme}
    (active : scanner.mode ≠ .done) (stepped : scanner.step = .ok (middle, first))
    (later : Passes middle second last) : Passes scanner (first ++ second) last where
  reaches := by
    rw [List.map_append]
    exact .step active stepped later.reaches
  runs := (RunsTo.of_step active stepped).trans later.runs

theorem Passes.trans {scanner middle last : Scanner} {first second : List Lexeme}
    (passes : Passes scanner first middle) (later : Passes middle second last) :
    Passes scanner (first ++ second) last where
  reaches := by
    rw [List.map_append]
    exact passes.reaches.trans later.reaches
  runs := passes.runs.trans later.runs

theorem Passes.of_step {scanner last : Scanner} {lexemes : List Lexeme}
    (active : scanner.mode ≠ .done) (stepped : scanner.step = .ok (last, lexemes)) :
    Passes scanner lexemes last :=
  ⟨.of_step active stepped, .of_step active stepped⟩

theorem run_of_step_eq {first second : Scanner} (firstActive : first.mode ≠ .done)
    (secondActive : second.mode ≠ .done) (same : first.step = second.step) :
    first.run = second.run := by
  cases stepped : first.step with
  | error fault =>
      rw [run_of_step_error firstActive stepped, run_of_step_error secondActive (same ▸ stepped)]
  | ok result =>
      obtain ⟨next, lexemes⟩ := result
      rw [run_of_step firstActive stepped, run_of_step secondActive (same ▸ stepped)]

section Numbers

variable {lines : List (Nat × Text)} {levels : Levels} {pending begun : Bool}

theorem run_visible {next number : Nat} {text : Text} {others : List (Nat × Text)}
    (visible : Text.isAllBlank text = false) :
    (Scanner.mk ⟨(next, text) :: others, none, number⟩ levels .lineStart pending begun).run =
      (Scanner.mk ⟨(next, text) :: others, none, number⟩ levels .indentation pending begun).run := by
  have stepped : (Scanner.mk ⟨(next, text) :: others, none, number⟩ levels .lineStart pending
        begun).step =
      .ok (⟨⟨(next, text) :: others, none, number⟩, levels, .indentation, pending, begun⟩, []) := by
    simp [step, act, startLine, Source.peekLine, Source.readLine, visible]
  rw [run_of_step (by simp) stepped, List.nil_append]

/-- At the start of a line, the number of the line read last does not matter. -/
theorem run_lineStart_number (unended : lines ≠ []) (number other : Nat) :
    (Scanner.mk ⟨lines, none, number⟩ levels .lineStart pending begun).run =
      (Scanner.mk ⟨lines, none, other⟩ levels .lineStart pending begun).run := by
  cases lines with
  | nil => contradiction
  | cons entry others =>
      obtain ⟨next, text⟩ := entry
      cases blank : Text.isAllBlank text with
      | true =>
          apply run_of_step_eq (by simp) (by simp)
          simp [step, act, startLine, Source.peekLine, Source.readLine, blank]
      | false =>
          rw [run_visible blank, run_visible blank]
          apply run_of_step_eq (by simp) (by simp)
          simp only [step, act, readIndentation, Source.peekLine, Source.readLine,
            Source.lineNumber, Option.getD_some, readConstruct_skip]

/-- Lines of spaces are passed over, and remembered once something was yielded. -/
theorem runsTo_blanks {blanks : List (Nat × Text)}
    (spaced : ∀ entry ∈ blanks, ∃ count, entry.2 = Text.spaces count) (number : Nat) :
    ∃ last, RunsTo ⟨⟨blanks ++ lines, none, number⟩, levels, .lineStart, pending, begun⟩ []
      ⟨⟨lines, none, last⟩, levels, .lineStart, pending || (!blanks.isEmpty && begun), begun⟩ := by
  induction blanks generalizing number pending with
  | nil =>
      refine ⟨number, ?_⟩
      simp only [List.nil_append, List.isEmpty_nil, Bool.not_true, Bool.false_and, Bool.or_false]
      exact .refl _
  | cons entry others ih =>
      obtain ⟨next, text⟩ := entry
      obtain ⟨count, rfl⟩ := spaced (next, text) List.mem_cons_self
      have blank := Text.isAllBlank_spaces count
      have stepped : (Scanner.mk ⟨(next, Text.spaces count) :: (others ++ lines), none, number⟩ levels
            .lineStart pending begun).step =
          .ok (⟨⟨others ++ lines, none, next⟩, levels, .lineStart, pending || begun, begun⟩, []) := by
        simp [step, act, startLine, Source.peekLine, Source.readLine, blank]
      obtain ⟨last, runs⟩ := @ih (pending || begun)
        (fun entry member => spaced entry (List.mem_cons_of_mem _ member)) next
      refine ⟨last, (RunsTo.of_step (by simp) stepped).trans ?_⟩
      have remembered : (pending || begun || (!others.isEmpty && begun)) =
          (pending || (!((next, Text.spaces count) :: others).isEmpty && begun)) := by
        cases pending <;> cases begun <;> cases others <;> rfl
      rw [← remembered]
      exact runs

/-- A line that is not blank is read: first what it opens and closes, then a blank line that
is due, and then its construct. -/
theorem step_indentation {next number : Nat} {text : Text} {others : List (Nat × Text)}
    {left : Levels} {after : Source} {mode : Mode} {structural lexemes : List Lexeme}
    (entered : enterLevel text.leadingSpaces next levels = .ok (left, structural))
    (read : readConstruct (openingOf (text.drop text.leadingSpaces)) text.leadingSpaces next
      ⟨others, some (text.drop text.leadingSpaces), next⟩ = .ok (after, mode, lexemes)) :
    (Scanner.mk ⟨(next, text) :: others, none, number⟩ levels .indentation pending begun).step =
      .ok (⟨after, left, mode, false, begun ||
        !(structural ++ (if pending then onLine next [.blankLine] else []) ++ lexemes).isEmpty⟩,
        structural ++ (if pending then onLine next [.blankLine] else []) ++ lexemes) := by
  cases pending <;>
    simp only [step, act, readIndentation, Source.peekLine, Source.readLine, Source.lineNumber,
      Option.getD_some, entered, readConstruct_skip, read]

theorem passes_line {width next number : Nat} {character : Char} {rest : Text}
    {others : List (Nat × Text)} {left : Levels} {after : Source} {mode : Mode}
    {structural lexemes : List Lexeme} (visible : Text.isBlank character = false)
    (entered : enterLevel width next levels = .ok (left, structural))
    (read : readConstruct (openingOf (character :: rest)) width next
      ⟨others, some (character :: rest), next⟩ = .ok (after, mode, lexemes)) :
    Passes ⟨⟨(next, Text.spaces width ++ character :: rest) :: others, none, number⟩, levels,
        .lineStart, pending, begun⟩
      (structural ++ (if pending then onLine next [.blankLine] else []) ++ lexemes)
      ⟨after, left, mode, false, begun ||
        !(structural ++ (if pending then onLine next [.blankLine] else []) ++ lexemes).isEmpty⟩ := by
  have unspaced : (character :: rest).head? ≠ some ' ' := by
    rintro ⟨⟩
    contradiction
  have indent := Text.leadingSpaces_spaces_append width unspaced
  have body : (Text.spaces width ++ character :: rest).drop width = character :: rest :=
    List.drop_left' (by simp [Text.spaces])
  have looked : (Scanner.mk ⟨(next, Text.spaces width ++ character :: rest) :: others, none, number⟩
        levels .lineStart pending begun).step =
      .ok (⟨⟨(next, Text.spaces width ++ character :: rest) :: others, none, number⟩, levels,
        .indentation, pending, begun⟩, []) := by
    simp [step, act, startLine, Source.peekLine, Source.readLine, Text.isAllBlank, visible]
  have stepped := @step_indentation levels pending begun next number _ others _ _ _ _ _
    (by rw [indent]; exact entered) (by rw [indent, body]; exact read)
  have passes := Passes.step (by simp) looked (Passes.step (by simp) stepped (.refl _))
  rwa [List.nil_append, List.append_nil] at passes

theorem passes_construct {width next number : Nat} {character : Char} {rest : Text}
    {others : List (Nat × Text)} {left : Levels} {after : Source} {mode : Mode}
    {structural : List Lexeme} {tokens : List Token} (visible : Text.isBlank character = false)
    (entered : enterLevel width next levels = .ok (left, structural))
    (read : readConstruct (openingOf (character :: rest)) width next
      ⟨others, some (character :: rest), next⟩ = .ok (after, mode, onLine next tokens))
    (given : tokens ≠ []) :
    Passes ⟨⟨(next, Text.spaces width ++ character :: rest) :: others, none, number⟩, levels,
        .lineStart, pending, begun⟩
      (structural ++ (if pending then onLine next [.blankLine] else []) ++ onLine next tokens)
      ⟨after, left, mode, false, true⟩ := by
  have passes := @passes_line levels pending begun width next number character rest others _ _ _ _ _
    visible entered read
  have yielded : (structural ++ (if pending then onLine next [.blankLine] else []) ++
      onLine next tokens).isEmpty = false := by
    simp [onLine, given]
  rwa [yielded, Bool.not_false, Bool.or_true] at passes

end Numbers

theorem enterLevel_ofBase (width line : Nat) :
    ∃ levels, enterLevel width line (Levels.ofBase 0) =
      .ok (levels, onLine line (if 0 < width then [.indent] else [])) := by
  have current : (Levels.ofBase 0).current = 0 := rfl
  unfold enterLevel Levels.compare
  rw [current]
  rcases Nat.eq_zero_or_pos width with rfl | deeper
  · exact ⟨Levels.ofBase 0, rfl⟩
  · rw [Nat.compare_eq_gt.mpr deeper, if_pos deeper]
    exact ⟨_, rfl⟩

/-! ### Attribute lists -/

section Pieces

variable (levels : Levels) {parentheses : Nat} (pending begun : Bool)

theorem step_pieces {source after : Source} {mode : Mode} {lexemes : List Lexeme}
    (read : readPiece parentheses source = .ok (after, mode, lexemes)) :
    (Scanner.mk source levels (.pieces parentheses) pending begun).step =
      .ok (⟨after, levels, mode, pending, begun || !lexemes.isEmpty⟩, lexemes) := by
  simp only [step, act, advance, read]

/-- The spaces before the next piece are skipped, whether one by one or all at once. -/
theorem run_skipSpaces (parentheses : Nat) (source : Source) :
    (Scanner.mk source levels (.pieces parentheses) pending begun).run =
      (Scanner.mk source.skipSpaces levels (.pieces parentheses) pending begun).run := by
  have filled (source : Source) :
      (Scanner.mk source levels (.pieces parentheses) pending begun).run =
        (Scanner.mk source.fill levels (.pieces parentheses) pending begun).run := by
    apply run_of_step_eq (by simp) (by simp)
    simp only [step, act, advance, readPiece_fill]
  fun_induction Source.skipSpaces source with
  | case1 source next => exact filled source
  | case2 source next ih =>
      have space : readPiece parentheses source =
          .ok (source.readChar.2, .pieces parentheses, []) := by
        simp [readPiece, next]
      rw [← ih, run_of_step (by simp) (step_pieces _ _ _ space)]
      simp
  | case3 source character next visible => exact filled source

end Pieces

end Scanner

end Stencil
