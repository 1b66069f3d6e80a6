import Mathlib.Order.Basic
import Stencil.Proofs.Places

/-! The line numbers of lexemes and faults.

A scanner takes a line number at many moments: at the start of a line, at a piece of an
attribute list, after a quoted value, at the end of the source; and the lexeme of a filter
has the number of the heading, though the body is read first.  All the lexemes of one step
are on one line, and that line never goes down from step to step. -/

namespace Stencil

namespace Scanner

open Source (Loaded)

variable {lines : List (Nat × Text)} {source after : Source}

/-! ### Lines of a step -/

/-- The line of what is yielded in a mode, if reading stands at line `here`: the lexeme of a
filter has the line of its heading. -/
def lineIn (here : Nat) : Mode → Nat
  | .filterBody _ line _ => line
  | _ => here

def line (scanner : Scanner) : Nat :=
  lineIn scanner.source.lineNumber scanner.mode

theorem line_of_mem_onLine {number : Nat} {tokens : List Token} {lexeme : Lexeme}
    (member : lexeme ∈ onLine number tokens) : lexeme.line = number := by
  obtain ⟨token, -, rfl⟩ := List.mem_map.mp member
  rfl

theorem line_of_readConstruct {opening : Opening} {width number : Nat} {mode : Mode}
    {lexemes : List Lexeme}
    (read : readConstruct opening width number source = .ok (after, mode, lexemes)) :
    (∀ here, lineIn here mode = here ∨ lineIn here mode = number) ∧
      ∀ lexeme ∈ lexemes, lexeme.line = number := by
  have started {tag : Text} {named : Source}
      (read : startElement tag number named = .ok (after, mode, lexemes)) :
      (∀ here, lineIn here mode = here ∨ lineIn here mode = number) ∧
        ∀ lexeme ∈ lexemes, lexeme.line = number := by
    unfold startElement at read
    split at read
    · contradiction
    · cases read
      exact ⟨fun here => .inl rfl, fun lexeme => line_of_mem_onLine⟩
  cases opening with
  | element =>
      simp only [readConstruct, readElement] at read
      split at read
      · contradiction
      · exact started read
  | shortcut => exact started read
  | comment =>
      cases read
      exact ⟨fun here => .inl rfl, fun lexeme => line_of_mem_onLine⟩
  | directive =>
      simp only [readConstruct, readDirective] at read
      split at read
      · contradiction
      · cases read
        exact ⟨fun here => .inl rfl, fun lexeme => line_of_mem_onLine⟩
  | code =>
      simp only [readConstruct, readCode] at read
      split at read
      · contradiction
      · cases read
        exact ⟨fun here => .inl rfl, fun lexeme => line_of_mem_onLine⟩
  | filter =>
      simp only [readConstruct, readFilterHeading] at read
      split at read
      · contradiction
      · cases read
        exact ⟨fun here => .inr rfl, by simp⟩
  | rawCode =>
      simp only [readConstruct, readRawCode] at read
      split at read
      · contradiction
      · cases read
        exact ⟨fun here => .inl rfl, fun lexeme => line_of_mem_onLine⟩
  | verbatim =>
      cases read
      exact ⟨fun here => .inl rfl, fun lexeme => line_of_mem_onLine⟩
  | text =>
      cases read
      exact ⟨fun here => .inl rfl, fun lexeme => line_of_mem_onLine⟩

theorem line_of_enterLevel {width number : Nat} {levels entered : Levels}
    {structural : List Lexeme} (enters : enterLevel width number levels = .ok (entered, structural)) :
    ∀ lexeme ∈ structural, lexeme.line = number := by
  unfold enterLevel at enters
  split at enters
  · cases enters
    exact fun lexeme => line_of_mem_onLine
  · cases enters
    simp
  · split at enters
    · cases enters
      exact fun lexeme => line_of_mem_onLine
    · contradiction

theorem line_of_pieceRead {parentheses : Nat} {mode : Mode} {lexemes : List Lexeme}
    (read : PieceRead source parentheses after mode lexemes) :
    (∀ here, lineIn here mode = here) ∧ ∀ lexeme ∈ lexemes, lexeme.line = source.lineNumber := by
  cases read with
  | ended next | lineEnd next | newline next opened | space next | opening next | closing next
  | continued next ends | data next => exact ⟨fun here => rfl, by simp⟩
  | selfClose next => exact ⟨fun here => rfl, fun lexeme => line_of_mem_onLine⟩
  | attributed next start read => exact ⟨fun here => rfl, fun lexeme => line_of_mem_onLine⟩

/-- The lexemes of a step are on one line, and what the next step yields is on the line to
which reading came, or, after the heading of a filter, on the line of the heading. -/
theorem line_of_stepped {scanner next : Scanner} {lexemes : List Lexeme}
    (stepped : Stepped scanner next lexemes) :
    (next.line = next.source.lineNumber ∨ next.line = scanner.source.lineNumber) ∧
      ∀ lexeme ∈ lexemes, lexeme.line = scanner.line := by
  have placed (mode : Mode) (same : scanner.mode = mode) :
      scanner.line = lineIn scanner.source.lineNumber mode := by
    rw [line, same]
  cases stepped with
  | ended reading next =>
      rw [placed _ reading]
      exact ⟨.inl rfl, fun lexeme => line_of_mem_onLine⟩
  | blank reading next blank =>
      refine ⟨.inl ?_, by simp⟩
      simp only [line, reading, lineIn]
  | line reading next visible => exact ⟨.inl rfl, by simp⟩
  | @construct width text levels after mode structural lexemes reading next indent entered read =>
      obtain ⟨later, yielded⟩ := line_of_readConstruct read
      rw [placed _ reading]
      refine ⟨later _, ?_⟩
      simp only [List.mem_append]
      rintro lexeme ((opened | blank) | member)
      · exact line_of_enterLevel entered lexeme opened
      · split at blank
        · exact line_of_mem_onLine blank
        · contradiction
      · exact yielded lexeme member
  | piece reading read =>
      obtain ⟨later, yielded⟩ := line_of_pieceRead read
      rw [placed _ reading]
      exact ⟨.inl (later _), yielded⟩
  | data reading read =>
      rw [placed _ reading]
      exact ⟨.inl rfl, fun lexeme => line_of_mem_onLine⟩
  | filterBody reading =>
      rw [placed _ reading]
      exact ⟨.inl rfl, fun lexeme => line_of_mem_onLine⟩
  | done reading => exact ⟨.inl (placed _ reading), by simp⟩

/-! ### Steps -/

/-- A scanner among lines in ascending order, whose next lexemes are on a line that it has
come to. -/
structure Dated (lines : List (Nat × Text)) (scanner : Scanner) : Prop where
  standing : Standing lines scanner
  ascending : scanner.source.numbers.Pairwise (· ≤ ·)
  reached : scanner.line ≤ scanner.source.lineNumber

/-- A step yields for the line of the scanner, which goes up and not past the last line. -/
theorem Dated.step {scanner next : Scanner} {lexemes : List Lexeme} (loaded : Loaded lines)
    (dated : Dated lines scanner)
    (stepped : scanner.step = .ok (next, lexemes)) :
    Dated lines next ∧ scanner.line ≤ next.line ∧
      next.source.lastNumber = scanner.source.lastNumber ∧
      ∀ lexeme ∈ lexemes, lexeme.line = scanner.line := by
  have standing := dated.standing.step loaded stepped
  obtain ⟨acted, acts, rfl⟩ := step_cases stepped
  have advances := advances_stepped loaded dated.standing acts
  obtain ⟨placed, yielded⟩ := line_of_stepped acts
  have reached := dated.reached
  have upward := (advances.lineNumber_le dated.ascending).1
  have between : scanner.source.lineNumber ≤ acted.line ∧ acted.line ≤ acted.source.lineNumber := by
    rcases placed with placed | placed
    · rw [placed]
      exact ⟨upward, Nat.le_refl _⟩
    · rw [placed]
      exact ⟨Nat.le_refl _, upward⟩
  have ascending := dated.ascending.sublist advances.numbers.sublist
  exact ⟨⟨standing, ascending, between.2⟩, reached.trans between.1, advances.last, yielded⟩

/-! ### Runs -/

/-- Lexemes on lines in ascending order from `first` to `last`, and then perhaps a fault on a
line of that range that is not before any of them. -/
structure InOrder (first last : Nat) (result : List Lexeme × Option Fault) : Prop where
  ascending : (result.1.map Lexeme.line).Pairwise (· ≤ ·)
  bounded : ∀ lexeme ∈ result.1, first ≤ lexeme.line ∧ lexeme.line ≤ last
  reported : ∀ fault, result.2 = some fault → ∃ line cause, fault = .parse line cause ∧
    first ≤ line ∧ line ≤ last ∧ ∀ lexeme ∈ result.1, lexeme.line ≤ line

theorem inOrder_nil (first last : Nat) : InOrder first last ([], none) :=
  ⟨.nil, by simp, by simp⟩

theorem InOrder.append {first next last : Nat} {lexemes others : List Lexeme}
    {broken : Option Fault} (later : InOrder next last (others, broken)) (upward : first ≤ next)
    (bound : first ≤ last) (yielded : ∀ lexeme ∈ lexemes, lexeme.line = first) :
    InOrder first last (lexemes ++ others, broken) := by
  obtain ⟨ascending, bounded, reported⟩ := later
  have first_le {lexeme : Lexeme} (member : lexeme ∈ others) : first ≤ lexeme.line :=
    upward.trans (bounded lexeme member).1
  constructor
  · rw [List.map_append, List.pairwise_append]
    refine ⟨?_, ascending, ?_⟩
    · apply List.pairwise_of_forall_mem_list
      simp only [List.mem_map]
      rintro _ ⟨former, formerMember, rfl⟩ _ ⟨latter, latterMember, rfl⟩
      rw [yielded former formerMember, yielded latter latterMember]
    · simp only [List.mem_map]
      rintro _ ⟨former, formerMember, rfl⟩ _ ⟨latter, latterMember, rfl⟩
      rw [yielded former formerMember]
      exact first_le latterMember
  · intro lexeme member
    rcases List.mem_append.mp member with here | there
    · rw [yielded lexeme here]
      exact ⟨Nat.le_refl _, bound⟩
    · exact ⟨first_le there, (bounded lexeme there).2⟩
  · intro fault failed
    obtain ⟨line, cause, same, lower, upper, after⟩ := reported fault failed
    refine ⟨line, cause, same, upward.trans lower, upper, ?_⟩
    intro lexeme member
    rcases List.mem_append.mp member with here | there
    · rw [yielded lexeme here]
      exact upward.trans lower
    · exact after lexeme there

theorem inOrder_run {scanner : Scanner} (loaded : Loaded lines) (dated : Dated lines scanner) :
    InOrder scanner.line scanner.source.lastNumber scanner.run := by
  have bound : scanner.line ≤ scanner.source.lastNumber :=
    dated.reached.trans (Source.lineNumber_le_lastNumber dated.ascending)
  fun_induction run scanner with
  | case1 scanner finished => exact inOrder_nil _ _
  | case2 scanner active fault failed =>
      refine ⟨.nil, by simp, ?_⟩
      intro found same
      cases same
      obtain ⟨place, cause, advances, rfl⟩ := reports_step loaded dated.standing failed
      obtain ⟨upward, bounded⟩ := advances.lineNumber_le dated.ascending
      exact ⟨_, cause, rfl, dated.reached.trans upward, bounded, by simp⟩
  | case3 scanner active next lexemes stepped others ih =>
      obtain ⟨later, upward, same, yielded⟩ := dated.step loaded stepped
      have nextBound : next.line ≤ next.source.lastNumber :=
        later.reached.trans (Source.lineNumber_le_lastNumber later.ascending)
      have rest := ih later nextBound
      rw [same] at rest
      exact rest.append upward bound yielded

end Scanner

namespace Source

open Scanner (InOrder)

theorem map_fst_numberFrom (first : Nat) (lines : List Text) :
    (numberFrom first lines).map Prod.fst = List.range' first lines.length := by
  induction lines generalizing first with
  | nil => rfl
  | cons line others ih => simp [numberFrom, ih, List.range'_succ]

theorem lexemes_nil (number : Nat) : (Source.mk [] none number).lexemes = ([], none) := by
  have starting : (Scanner.ofSource ⟨[], none, number⟩).mode = .lineStart := rfl
  have active : (Scanner.ofSource ⟨[], none, number⟩).mode ≠ .done := by
    rw [starting]
    decide
  rw [lexemes, Scanner.run_of_step active rfl, Scanner.run_of_done rfl]
  rfl

theorem inOrder_ofLines {first : Nat} {text : Text} {source : Source} (positive : 0 < first)
    (loads : ofLines first text = .ok source) :
    InOrder first (first + text.lines.length - 1) source.lexemes := by
  obtain ⟨-, rfl⟩ := ofLines_eq_ok_iff.mp loads
  have loaded : Loaded (numberFrom first text.lines) :=
    loaded_numberFrom positive (fun line => Text.newline_not_mem_lines)
  cases lines : text.lines with
  | nil =>
      rw [numberFrom, lexemes_nil]
      exact Scanner.inOrder_nil _ _
  | cons line others =>
      rw [lines] at loaded
      have ascending : (Source.mk (numberFrom first (line :: others)) none first).numbers.Pairwise
          (· ≤ ·) := by
        rw [numbers_between, map_fst_numberFrom]
        exact List.pairwise_le_range'
      have last : (Source.mk (numberFrom first (line :: others)) none first).lastNumber =
          first + (line :: others).length - 1 := by
        rw [lastNumber_between, map_fst_numberFrom, List.getLastD_eq_getLast?,
          List.getLast?_range', if_neg (by simp), Option.getD_some]
      have standing := @Scanner.standing_ofSource
        ⟨numberFrom first (line :: others), none, first⟩ rfl
      have dated : Scanner.Dated (numberFrom first (line :: others)) (Scanner.ofSource _) :=
        ⟨standing, ascending, Nat.le_refl first⟩
      rw [← last]
      exact Scanner.inOrder_run loaded dated

def firstLine (text : Text) : Nat :=
  if (Encoding.pragma (text.unifyBreaks.lines.headD [])).isSome then 2 else 1

/-- Lexemes come in the order of their lines, from the first line to the last, and so does the
fault that ends them. -/
theorem lexemes_inOrder {text : Text} {source : Source} (loads : ofText text = .ok source) :
    InOrder (firstLine text) text.unifyBreaks.lines.length source.lexemes := by
  simp only [ofText] at loads
  split at loads
  · rename_i plain
    have ordered := inOrder_ofLines (by decide) loads
    rw [firstLine, plain]
    rwa [Nat.add_sub_cancel_left] at ordered
  · rename_i label given
    split at loads
    · contradiction
    · have ordered := inOrder_ofLines (by decide) loads
      rw [Text.lines_afterFirstLine] at ordered
      rw [firstLine, given]
      cases lines : text.unifyBreaks.lines with
      | nil =>
          rw [lines] at given
          contradiction
      | cons first others =>
          have count : 2 + others.length - 1 = (first :: others).length := by
            rw [List.length_cons]
            omega
          rwa [lines, List.tail_cons, count] at ordered

/-- A value that goes over a line end, a filter that is yielded under its heading, and a fault
on the last line. -/
theorem lexemes_inOrder_filter :
    ∃ source, ofText "%a(b='c\n d' e)\n:f\n g\n%h)".toList = .ok source ∧
      source.lexemes.1.map Lexeme.line = [1, 1, 2, 3, 5] ∧
      source.lexemes.2 = some (.parse 5 .unopenedParenthesis) ∧ InOrder 1 5 source.lexemes := by
  let source : Source :=
    ⟨[(1, ['%', 'a', '(', 'b', '=', '\'', 'c']), (2, [' ', 'd', '\'', ' ', 'e', ')']),
      (3, [':', 'f']), (4, [' ', 'g']), (5, ['%', 'h', ')'])], none, 1⟩
  have loads : ofText "%a(b='c\n d' e)\n:f\n g\n%h)".toList = .ok source := by decide +kernel
  have first : firstLine "%a(b='c\n d' e)\n:f\n g\n%h)".toList = 1 := by decide +kernel
  have last : (Text.unifyBreaks "%a(b='c\n d' e)\n:f\n g\n%h)".toList).lines.length = 5 := by decide +kernel
  have ran : source.lexemes =
      ([⟨.element ['a'], 1⟩, ⟨.literalAttribute ['b'] ['c', ' ', 'd'], 1⟩,
        ⟨.literalAttribute ['e'] ['e'], 2⟩, ⟨.filter ['f'] [['g']], 3⟩, ⟨.element ['h'], 5⟩],
        some (.parse 5 .unopenedParenthesis)) :=
    @Scanner.run_of_runWithin 20 _ _ (by decide +kernel)
  have ordered := lexemes_inOrder loads
  rw [first, last] at ordered
  exact ⟨source, loads, by rw [ran]; rfl, by rw [ran], ordered⟩

end Source

end Stencil
