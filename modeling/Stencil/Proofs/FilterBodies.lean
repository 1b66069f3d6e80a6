import Stencil.Proofs.DocumentLoading
import Stencil.Proofs.JoinedTexts
import Stencil.Proofs.Runs

/-! Filters and their bodies, written down and read back.

The body stands deeper than the heading, and its first line fixes the width that is cut off every
line.  Empty lines may be written as any number of spaces: inside the body they are counted and
given back before the next line, behind it they are remembered as a blank line.  The line that
ends the body is put back and keeps its number. -/

namespace Stencil

/-! ### Leading spaces -/

namespace Text

theorem length_spaces (width : Nat) : (spaces width).length = width :=
  List.length_replicate

theorem leadingSpaces_indented (width : Nat) (line : Text) :
    leadingSpaces (spaces width ++ line) = width + leadingSpaces line := by
  have spaced : ∀ character ∈ spaces width, decide (character = ' ') = true := by
    intro character member
    rw [List.eq_of_mem_replicate member]
    rfl
  rw [leadingSpaces, List.takeWhile_append_of_pos spaced, List.length_append, length_spaces]
  rfl

theorem leadingSpaces_lt_length {line : Text} (visible : line.any (· ≠ ' ') = true) :
    line.leadingSpaces < line.length := by
  obtain ⟨character, member, other⟩ := List.any_eq_true.mp visible
  apply Nat.lt_of_le_of_ne (leadingSpaces_le_length line)
  intro whole
  rw [← spaces_append_drop line, whole, List.drop_length, List.append_nil] at member
  rw [List.eq_of_mem_replicate member] at other
  contradiction

theorem newline_not_mem_spaces (width : Nat) : '\n' ∉ spaces width := by
  simp [spaces]

theorem newline_not_mem_map_append {α : Type} {write : α → Text} (written : ∀ part, '\n' ∉ write part)
    (parts : List α) {rest : List Text} (unbroken : ∀ line ∈ rest, '\n' ∉ line) :
    ∀ line ∈ parts.map write ++ rest, '\n' ∉ line := by
  refine List.forall_mem_append.mpr ⟨List.forall_mem_map.mpr ?_, unbroken⟩
  intro part member
  exact written part

end Text

/-! ### Filters as they are written -/

/-- A line in the body of a filter, empty or with a character that is no space. -/
structure FilterLine extends Document.Line where
  visible : text = [] ∨ text.any (· ≠ ' ') = true
  padding : Nat

namespace FilterLine

def written (width : Nat) (line : FilterLine) : Text :=
  if line.text = [] then Text.spaces line.padding else Text.spaces width ++ line.text

theorem newline_not_mem_written (width : Nat) (line : FilterLine) : '\n' ∉ line.written width := by
  unfold written
  split
  · exact Text.newline_not_mem_spaces _
  · rw [List.mem_append, not_or]
    exact ⟨Text.newline_not_mem_spaces _, line.newline_not_mem⟩

theorem ends_tail {line : FilterLine} {others : List FilterLine}
    (ends : ∀ last ∈ (line :: others).getLast?, last.text ≠ []) :
    ∀ last ∈ others.getLast?, last.text ≠ [] := by
  cases others with
  | nil => simp
  | cons second others => exact ends

end FilterLine

/-- A filter with its layout. -/
structure FilterBlock where
  name : Document.Line
  named : name.text ≠ []
  trimmed : Text.trim name.text = name.text
  width : Nat
  /-- The spaces in front of each line of the body that is not empty. -/
  bodyWidth : Nat
  deeper : width < bodyWidth
  first : FilterLine
  later : List FilterLine
  begins : ∃ character ∈ first.text.head?, character ≠ ' '
  ends : ∀ line ∈ (first :: later).getLast?, line.text ≠ []

namespace FilterBlock

variable (block : FilterBlock)

def body : List FilterLine :=
  block.first :: block.later

def lines : List Text :=
  block.body.map fun line => line.text

def heading : Text :=
  Text.spaces block.width ++ ':' :: block.name.text

def written : List Text :=
  block.heading :: block.body.map (FilterLine.written block.bodyWidth)

/-- Lines that end the body: none, or first a line that has a character other than a space and
stands less deep than the body. -/
def EndsBefore (rest : List Text) : Prop :=
  ∀ line ∈ rest.head?, line.any (· ≠ ' ') = true ∧ line.leadingSpaces < block.bodyWidth

end FilterBlock

/-! ### Reading the body -/

namespace Scanner

open Source (numberFrom)

section Lines

variable {least number last : Nat} {bodyWidth : Option Nat} {rest : List Text}

/-! One line: it is counted, it is taken, or it ends the body. -/

theorem readFilterLines_numbered {line : Text} (count : Nat) (positive : 0 < number)
    (unbroken : ∀ text ∈ line :: rest, '\n' ∉ text) :
    readFilterLines least bodyWidth count ⟨numberFrom number (line :: rest), none, last⟩ =
      if line.leadingSpaces = line.length then
        readFilterLines least bodyWidth (count + 1) ⟨numberFrom (number + 1) rest, none, number⟩
      else if line.leadingSpaces < bodyWidth.getD least then
        ⟨[], count, ⟨numberFrom number (line :: rest), none, number⟩⟩
      else
        let width := bodyWidth.getD line.leadingSpaces
        let later := readFilterLines least (some width) 0
          ⟨numberFrom (number + 1) rest, none, number⟩
        { later with lines := List.replicate count [] ++ line.drop width :: later.lines } :=
  readFilterLines_cons least bodyWidth count (Source.loaded_numberFrom positive unbroken)

theorem readFilterLines_spaces (width count : Nat) (positive : 0 < number)
    (unbroken : ∀ line ∈ rest, '\n' ∉ line) :
    readFilterLines least bodyWidth count ⟨numberFrom number (Text.spaces width :: rest), none, last⟩ =
      readFilterLines least bodyWidth (count + 1) ⟨numberFrom (number + 1) rest, none, number⟩ := by
  have spaced : (Text.spaces width).leadingSpaces = (Text.spaces width).length := by
    rw [Text.leadingSpaces_spaces, Text.length_spaces]
  rw [readFilterLines_numbered count positive, if_pos spaced]
  exact List.forall_mem_cons.mpr ⟨Text.newline_not_mem_spaces width, unbroken⟩

/-- A line with text is taken without the width of the body, which it fixes if it is the first. -/
theorem readFilterLines_text {line : FilterLine} {width count : Nat} (positive : 0 < number)
    (unbroken : ∀ line ∈ rest, '\n' ∉ line) (visible : line.text.any (· ≠ ' ') = true)
    (fixes : bodyWidth = some width ∨
      bodyWidth = none ∧ least ≤ width ∧ line.text.leadingSpaces = 0) :
    readFilterLines least bodyWidth count
        ⟨numberFrom number ((Text.spaces width ++ line.text) :: rest), none, last⟩ =
      let later := readFilterLines least (some width) 0 ⟨numberFrom (number + 1) rest, none, number⟩
      { later with lines := List.replicate count [] ++ line.text :: later.lines } := by
  have free : ∀ text ∈ (Text.spaces width ++ line.text) :: rest, '\n' ∉ text := by
    refine List.forall_mem_cons.mpr ⟨?_, unbroken⟩
    rw [List.mem_append, not_or]
    exact ⟨Text.newline_not_mem_spaces width, line.newline_not_mem⟩
  have indent := Text.leadingSpaces_indented width line.text
  have length : (Text.spaces width ++ line.text).length = width + line.text.length := by
    rw [List.length_append, Text.length_spaces]
  have inside := Text.leadingSpaces_lt_length visible
  have cut : (Text.spaces width ++ line.text).drop width = line.text :=
    List.drop_left' (Text.length_spaces width)
  rw [readFilterLines_numbered count positive free, if_neg (by omega)]
  rcases fixes with rfl | ⟨rfl, deep, unspaced⟩
  · rw [Option.getD_some, if_neg (by omega)]
    simp only [Option.getD_some, cut]
  · rw [unspaced, Nat.add_zero] at indent
    rw [Option.getD_none, if_neg (by omega)]
    simp only [Option.getD_none, indent, cut]

theorem readFilterLines_end {block : FilterBlock} (count : Nat) (positive : 0 < number)
    (unbroken : ∀ line ∈ rest, '\n' ∉ line) (ends : block.EndsBefore rest) :
    ∃ reached, readFilterLines least (some block.bodyWidth) count
        ⟨numberFrom number rest, none, last⟩ =
      ⟨[], count, ⟨numberFrom number rest, none, reached⟩⟩ := by
  cases rest with
  | nil => exact ⟨last, readFilterLines_nil least _ count⟩
  | cons line others =>
      obtain ⟨visible, shallow⟩ := ends line rfl
      refine ⟨number, ?_⟩
      rw [readFilterLines_numbered count positive unbroken,
        if_neg (Nat.ne_of_lt (Text.leadingSpaces_lt_length visible)),
        Option.getD_some, if_pos shallow]

/-! Many lines. -/

theorem readFilterLines_blanks (blanks : List Nat) (count : Nat) (positive : 0 < number)
    (unbroken : ∀ line ∈ rest, '\n' ∉ line) :
    ∃ reached, readFilterLines least bodyWidth count
        ⟨numberFrom number (blanks.map Text.spaces ++ rest), none, last⟩ =
      readFilterLines least bodyWidth (count + blanks.length)
        ⟨numberFrom (number + blanks.length) rest, none, reached⟩ := by
  induction blanks generalizing number last count with
  | nil => exact ⟨last, rfl⟩
  | cons width others ih =>
      have free := Text.newline_not_mem_map_append Text.newline_not_mem_spaces others unbroken
      obtain ⟨reached, later⟩ := @ih (number + 1) number (count + 1) (Nat.succ_pos number)
      refine ⟨reached, ?_⟩
      rw [List.map_cons, List.cons_append, readFilterLines_spaces width count positive free, later,
        List.length_cons, Nat.add_right_comm count, Nat.add_right_comm number]
      rfl

/-- Behind the first line the body is read back, and so is what was counted before it. -/
theorem readFilterLines_lines {width count : Nat} {body : List FilterLine} (positive : 0 < number)
    (unbroken : ∀ line ∈ rest, '\n' ∉ line) (ends : ∀ line ∈ body.getLast?, line.text ≠ [])
    (counted : body = [] → count = 0) :
    ∃ reached, readFilterLines least (some width) count
        ⟨numberFrom number (body.map (FilterLine.written width) ++ rest), none, last⟩ =
      let later := readFilterLines least (some width) 0
        ⟨numberFrom (number + body.length) rest, none, reached⟩
      { later with
        lines := List.replicate count [] ++ (body.map (fun line => line.text) ++ later.lines) } := by
  -- what is counted is given back with the next line that has text, and the last line has some
  induction body generalizing number last count with
  | nil =>
      obtain rfl := counted rfl
      exact ⟨last, rfl⟩
  | cons line others ih =>
      have free := Text.newline_not_mem_map_append (FilterLine.newline_not_mem_written width) others
        unbroken
      have endsLater := FilterLine.ends_tail ends
      rw [List.map_cons, List.cons_append, List.map_cons, List.length_cons, ← Nat.add_assoc,
        Nat.add_right_comm]
      by_cases empty : line.text = []
      · have more : others ≠ [] := by
          rintro rfl
          exact ends line rfl empty
        obtain ⟨reached, later⟩ := @ih (number + 1) number (count + 1) (Nat.succ_pos number)
          endsLater (fun none => absurd none more)
        refine ⟨reached, ?_⟩
        rw [FilterLine.written, if_pos empty, readFilterLines_spaces _ count positive free, later,
          empty, List.replicate_succ']
        simp
      · obtain ⟨reached, later⟩ := @ih (number + 1) number 0 (Nat.succ_pos number) endsLater
          (fun _ => rfl)
        refine ⟨reached, ?_⟩
        rw [FilterLine.written, if_neg empty, readFilterLines_text positive free
          (line.visible.resolve_left empty) (.inl rfl), later]
        rfl

theorem readFilterLines_block (block : FilterBlock) (blanks : List Nat) (positive : 0 < number)
    (unbroken : ∀ line ∈ rest, '\n' ∉ line) (ends : block.EndsBefore rest) :
    ∃ reached, readFilterLines (block.width + 1) none 0
        ⟨numberFrom number (block.body.map (FilterLine.written block.bodyWidth) ++
          (blanks.map Text.spaces ++ rest)), none, last⟩ =
      ⟨block.lines, blanks.length,
        ⟨numberFrom (number + block.body.length + blanks.length) rest, none, reached⟩⟩ := by
  obtain ⟨character, leads, other⟩ := block.begins
  obtain ⟨others, same⟩ := List.head?_eq_some_iff.mp leads
  have given : block.first.text ≠ [] := by
    rw [same]
    exact List.cons_ne_nil _ _
  have unspaced : block.first.text.leadingSpaces = 0 := by
    rw [same]
    simp [Text.leadingSpaces, other]
  have spaced := Text.newline_not_mem_map_append Text.newline_not_mem_spaces blanks unbroken
  have free := Text.newline_not_mem_map_append (FilterLine.newline_not_mem_written block.bodyWidth)
    block.later spaced
  obtain ⟨behind, read⟩ := @readFilterLines_lines (block.width + 1) (number + 1) number
    (blanks.map Text.spaces ++ rest) block.bodyWidth 0 block.later (Nat.succ_pos number) spaced
    (FilterLine.ends_tail block.ends) (fun _ => rfl)
  obtain ⟨passed, skipped⟩ := @readFilterLines_blanks (block.width + 1)
    (number + 1 + block.later.length) behind (some block.bodyWidth) rest blanks 0
    (by omega) unbroken
  obtain ⟨reached, ended⟩ := @readFilterLines_end (block.width + 1)
    (number + 1 + block.later.length + blanks.length) passed rest block (0 + blanks.length)
    (by omega) unbroken ends
  refine ⟨reached, ?_⟩
  rw [FilterBlock.body, List.map_cons, List.cons_append, FilterLine.written, if_neg given,
    readFilterLines_text positive free (block.first.visible.resolve_left given)
      (.inr ⟨rfl, block.deeper, unspaced⟩), read, skipped, ended, List.length_cons,
    Nat.add_assoc number, Nat.add_comm 1, Nat.zero_add]
  simp only [FilterBlock.lines, FilterBlock.body, List.replicate_zero, List.nil_append,
    List.append_nil, List.map_cons]

end Lines

/-! ### Heading and body -/

theorem readConstruct_heading (block : FilterBlock) (line number : Nat) (others : List (Nat × Text)) :
    readConstruct (openingOf (':' :: block.name.text)) block.width line
        ⟨others, some (':' :: block.name.text), number⟩ =
      .ok (⟨others, none, number⟩, .filterBody block.name.text line block.width, []) := by
  have opening : openingOf (':' :: block.name.text) = .filter := by
    simp [openingOf, shortcutAttribute]
  have given : block.name.text.isEmpty = false := by simpa using block.named
  rw [opening]
  simp [readConstruct, readFilterHeading, block.trimmed, given]

/-- The scanner behind a body and so many blank lines: the lines that follow are unread. -/
structure BehindBody (blanks : List Nat) (unread : List (Nat × Text)) (scanner : Scanner) : Prop where
  mode : scanner.mode = .lineStart
  between : scanner.source.current = none
  lines : scanner.source.lines = unread
  pending : scanner.blankPending = true ↔ blanks ≠ []

theorem step_filterBody (block : FilterBlock) (blanks : List Nat) {rest : List Text}
    {line number last : Nat} (levels : Levels) (begun : Bool) (positive : 0 < number)
    (unbroken : ∀ line ∈ rest, '\n' ∉ line) (ends : block.EndsBefore rest) :
    ∃ after, (Scanner.mk ⟨numberFrom number (block.body.map (FilterLine.written block.bodyWidth) ++
          (blanks.map Text.spaces ++ rest)), none, last⟩ levels
          (.filterBody block.name.text line block.width) false begun).step =
        .ok (after, onLine line [.filter block.name.text block.lines]) ∧
      BehindBody blanks (numberFrom (number + block.body.length + blanks.length) rest) after := by
  obtain ⟨reached, read⟩ := @readFilterLines_block number last rest block blanks positive unbroken ends
  refine ⟨⟨⟨numberFrom (number + block.body.length + blanks.length) rest, none, reached⟩, levels,
    .lineStart, decide (0 < blanks.length), begun || true⟩, ?_, rfl, rfl, rfl, ?_⟩
  · simp [step, act, readFilterBody, read, onLine]
  · rw [decide_eq_true_eq, List.length_pos_iff]

theorem passes_filter (block : FilterBlock) (blanks : List Nat) {rest : List Text}
    {number last : Nat} {levels inner : Levels} {structural : List Lexeme} (pending begun : Bool)
    (unbroken : ∀ line ∈ rest, '\n' ∉ line) (ends : block.EndsBefore rest)
    (entered : enterLevel block.width number levels = .ok (inner, structural)) :
    ∃ heading after,
      Passes ⟨⟨numberFrom number (block.written ++ (blanks.map Text.spaces ++ rest)), none, last⟩,
          levels, .lineStart, pending, begun⟩
        (structural ++ if pending then onLine number [.blankLine] else []) heading ∧
      heading.mode = .filterBody block.name.text number block.width ∧
      heading.step = .ok (after, onLine number [.filter block.name.text block.lines]) ∧
      BehindBody blanks (numberFrom (number + block.written.length + blanks.length) rest) after := by
  have passes := @passes_line levels pending begun block.width number last ':' block.name.text
    (numberFrom (number + 1) (block.body.map (FilterLine.written block.bodyWidth) ++
      (blanks.map Text.spaces ++ rest))) _ _ _ _ _ (by decide) entered
    (readConstruct_heading block number number _)
  obtain ⟨after, stepped, behind⟩ := @step_filterBody block blanks rest number (number + 1) number
    inner (begun || !(structural ++ if pending then onLine number [.blankLine] else []).isEmpty)
    (Nat.succ_pos number) unbroken ends
  rw [List.append_nil] at passes
  refine ⟨_, after, passes, rfl, stepped, ?_⟩
  have height : number + block.written.length = number + 1 + block.body.length := by
    rw [FilterBlock.written, List.length_cons, List.length_map]
    omega
  rw [height]
  exact behind

theorem ofText_filter (block : FilterBlock) (blanks : List Nat) {rest : List Text} {text : Text}
    (lines : text.unifyBreaks.lines = block.written ++ (blanks.map Text.spaces ++ rest))
    (allowed : ∀ line ∈ rest, ∀ character ∈ line, Source.isDisallowed character = false) :
    Source.ofText text =
      .ok ⟨numberFrom 1 (block.written ++ (blanks.map Text.spaces ++ rest)), none, 1⟩ := by
  have spaced (width : Nat) : ∀ character ∈ Text.spaces width,
      Source.isDisallowed character = false := by
    intro character member
    rw [List.eq_of_mem_replicate member]
    rfl
  have heading : ∀ character ∈ block.heading, Source.isDisallowed character = false := by
    rw [FilterBlock.heading, List.forall_mem_append, List.forall_mem_cons]
    exact ⟨spaced block.width, by decide, block.name.allowed⟩
  have body : ∀ line ∈ block.body.map (FilterLine.written block.bodyWidth), ∀ character ∈ line,
      Source.isDisallowed character = false := by
    rw [List.forall_mem_map]
    intro line member
    unfold FilterLine.written
    split
    · exact spaced line.padding
    · exact List.forall_mem_append.mpr ⟨spaced block.bodyWidth, line.allowed⟩
  have unmarked : Encoding.pragma (text.unifyBreaks.lines.headD []) = none := by
    rw [lines]
    exact Encoding.pragma_indented block.width block.name.text (by decide) (by decide)
  rw [Source.ofText]
  simp only [unmarked]
  rw [Source.ofLines_eq_ok_iff, lines]
  refine ⟨?_, rfl⟩
  rw [List.forall_mem_append, List.forall_mem_append, List.forall_mem_map, FilterBlock.written,
    List.forall_mem_cons]
  exact ⟨⟨heading, body⟩, fun width _ => spaced width, allowed⟩

/-- Wherever a filter stands, its body is yielded as it is meant, and what follows it is left. -/
theorem filter_read_back (block : FilterBlock) (blanks : List Nat) {rest : List Text}
    (ends : block.EndsBefore rest) :
    (∀ (number last : Nat) (levels inner : Levels) (structural : List Lexeme) (pending begun : Bool),
      (∀ line ∈ rest, '\n' ∉ line) →
      enterLevel block.width number levels = .ok (inner, structural) →
      ∃ heading after,
        Passes ⟨⟨numberFrom number (block.written ++ (blanks.map Text.spaces ++ rest)), none, last⟩,
            levels, .lineStart, pending, begun⟩
          (structural ++ if pending then onLine number [.blankLine] else []) heading ∧
        heading.mode = .filterBody block.name.text number block.width ∧
        heading.step = .ok (after, [⟨.filter block.name.text block.lines, number⟩]) ∧
        BehindBody blanks (numberFrom (number + block.written.length + blanks.length) rest) after) ∧
    ∀ text : Text, text.unifyBreaks.lines = block.written ++ (blanks.map Text.spaces ++ rest) →
      (∀ line ∈ rest, ∀ character ∈ line, Source.isDisallowed character = false) →
      ∃ source after, Source.ofText text = .ok source ∧
        Passes (ofSource source)
          (onLine 1 ((if 0 < block.width then [.indent] else []) ++
            [.filter block.name.text block.lines])) after ∧
        BehindBody blanks (numberFrom (1 + block.written.length + blanks.length) rest) after := by
  constructor
  · intro number last levels inner structural pending begun unbroken entered
    exact passes_filter block blanks pending begun unbroken ends entered
  · intro text lines allowed
    have unbroken : ∀ line ∈ rest, '\n' ∉ line := by
      intro line member
      apply @Text.newline_not_mem_lines text.unifyBreaks
      rw [lines]
      exact List.mem_append_right _ (List.mem_append_right _ member)
    obtain ⟨levels, entered⟩ := enterLevel_ofBase block.width 1
    obtain ⟨heading, after, passes, reading, stepped, behind⟩ :=
      @passes_filter block blanks rest 1 1 _ _ _ false false unbroken ends entered
    have active : heading.mode ≠ .done := by
      rw [reading]
      simp
    refine ⟨_, after, ofText_filter block blanks lines allowed, ?_, behind⟩
    have whole := passes.trans (.of_step active stepped)
    simpa [onLine, ofSource] using whole

/-- An inner line deeper than the others, with spaces at its end, behind an empty one; then two
lines of spaces, and a line that stands between heading and body. -/
theorem filter_read_back_blanks :
    ∃ source after,
      Source.ofText "  :f\n     a\n   \n       b  \n\n \n    c\n%d".toList = .ok source ∧
        Passes (ofSource source)
          [⟨.indent, 1⟩, ⟨.filter "f".toList ["a".toList, [], "  b  ".toList], 1⟩] after ∧
        after.source.lines = [(7, "    c".toList), (8, "%d".toList)] ∧
        after.blankPending = true := by
  let block : FilterBlock :=
    { name := ⟨"f".toList, by decide⟩, named := by decide, trimmed := by decide,
      width := 2, bodyWidth := 5, deeper := by decide,
      first := ⟨⟨"a".toList, by decide⟩, by decide, 0⟩,
      later := [⟨⟨[], by decide⟩, by decide, 3⟩, ⟨⟨"  b  ".toList, by decide⟩, by decide, 0⟩],
      begins := ⟨'a', rfl, by decide⟩, ends := by simp }
  have ends : block.EndsBefore ["    c".toList, "%d".toList] := by
    simp only [FilterBlock.EndsBefore]
    decide
  have lines : (Text.unifyBreaks "  :f\n     a\n   \n       b  \n\n \n    c\n%d".toList).lines =
      block.written ++ ([0, 1].map Text.spaces ++ ["    c".toList, "%d".toList]) := by decide
  obtain ⟨source, after, loads, passes, behind⟩ :=
    (filter_read_back block [0, 1] ends).2 _ lines (by simp [Source.isDisallowed])
  exact ⟨source, after, loads, passes, behind.lines, behind.pending.mpr (by simp)⟩

end Scanner

end Stencil
