import Stencil.Proofs.Indentation
import Stencil.Proofs.JoinedTexts
import Stencil.Proofs.RecastRuns

/-! Two texts one after the other, and their lexemes.

If the last line of the first text is not blank and the second text starts with an element
in the first column, the second is cut as it would be on its own.  Before it, the levels that
the first text leaves open are closed on the line on which the second starts, and a run of
blank lines between them is one blank line. -/

namespace Stencil

open Source (Loaded Recast)

/-! ### What was read last -/

namespace Scanner

variable {lines unread : List (Nat × Text)}

/-- The line in front of the unread lines is blank, if there is one. -/
def AfterBlank (lines unread : List (Nat × Text)) : Prop :=
  ∀ entry, entry :: unread <:+ lines → Text.isAllBlank entry.2 = true

theorem afterBlank_of_suffix {entry : Nat × Text} (ending : entry :: unread <:+ lines)
    (blank : Text.isAllBlank entry.2 = true) : AfterBlank lines unread := by
  intro other otherEnding
  have same : entry :: unread = other :: unread := by
    rcases List.suffix_or_suffix_of_suffix ending otherEnding with inner | inner
    · exact inner.eq_of_length rfl
    · exact (inner.eq_of_length rfl).symm
  cases same
  exact blank

theorem isAllBlank_of_leadingSpaces {text : Text} (spaced : text.leadingSpaces = text.length) :
    Text.isAllBlank text = true := by
  have whole := Text.spaces_append_drop text
  rw [spaced, List.drop_length, List.append_nil] at whole
  rw [← whole]
  exact Text.isAllBlank_spaces _

/-- Blank lines after the body of a filter are the lines that were read last. -/
theorem afterBlank_readFilterLines {least : Nat} {bodyWidth : Option Nat} {count number : Nat}
    (loaded : Loaded unread) (ending : unread <:+ lines)
    (before : 0 < count → AfterBlank lines unread)
    (some : 0 < (readFilterLines least bodyWidth count ⟨unread, none, number⟩).blanksAfter) :
    AfterBlank lines (readFilterLines least bodyWidth count ⟨unread, none, number⟩).source.lines := by
  induction unread generalizing bodyWidth count number with
  | nil =>
      rw [readFilterLines_nil] at some ⊢
      exact before some
  | cons entry others ih =>
      obtain ⟨next, text⟩ := entry
      have later := loaded.suffix (List.suffix_cons _ _)
      have endingLater := (List.suffix_cons _ _).trans ending
      rw [readFilterLines_cons _ _ _ loaded] at some ⊢
      split at some
      · rename_i spaced
        rw [if_pos spaced]
        refine ih later endingLater ?_ some
        intro _
        exact afterBlank_of_suffix ending (isAllBlank_of_leadingSpaces spaced)
      · rename_i unspaced
        rw [if_neg unspaced]
        split at some
        · rename_i narrow
          rw [if_pos narrow]
          exact before some
        · rename_i wide
          rw [if_neg wide]
          refine ih later endingLater ?_ some
          intro impossible
          contradiction

/-- Something was yielded and no blank line is due, unless the line read last is blank. -/
def Rested (lines : List (Nat × Text)) (scanner : Scanner) : Prop :=
  match scanner.mode with
  | .lineStart =>
      (scanner.begun = true ∧ scanner.blankPending = false) ∨ AfterBlank lines scanner.source.lines
  | .pieces _ | .data => scanner.begun = true ∧ scanner.blankPending = false
  | .filterBody _ _ _ => scanner.blankPending = false
  | .indentation | .done => True

theorem rested_ofSource (source : Source) : Rested source.lines (ofSource source) := by
  refine .inr ?_
  intro entry ending
  exact absurd ending.length_le (Nat.not_succ_le_self _)

theorem rested_of_begun {scanner : Scanner} (begun : scanner.begun = true)
    (settled : scanner.blankPending = false) : Rested lines scanner := by
  unfold Rested
  split
  · exact .inl ⟨begun, settled⟩
  · exact ⟨begun, settled⟩
  · exact ⟨begun, settled⟩
  · exact settled
  · trivial
  · trivial

theorem Rested.step {scanner next : Scanner} {lexemes : List Lexeme} (loaded : Loaded lines)
    (standing : Standing lines scanner) (rested : Rested lines scanner)
    (stepped : scanner.step = .ok (next, lexemes)) : Rested lines next := by
  obtain ⟨acted, acts, rfl⟩ := step_cases stepped
  obtain ⟨among, fits⟩ := standing
  have ending := among.ending
  cases acts with
  | ended reading next => trivial
  | blank reading found blank =>
      rw [reading] at fits
      obtain ⟨⟨unread, current, number⟩, levels, mode, pending, begun⟩ := scanner
      cases fits
      cases reading
      cases unread with
      | nil => contradiction
      | cons entry others =>
          cases found
          exact .inr (afterBlank_of_suffix ending blank)
  | line reading found visible => trivial
  | @construct width text levels after mode structural constructed reading found indent entered read =>
      -- only the heading of a filter yields nothing, and its body is still to come
      have begins := begins_of_readConstruct read
      cases constructed with
      | nil =>
          obtain ⟨name, line, width, rfl⟩ := begins.of_nil
          exact rfl
      | cons lexeme others =>
          apply rested_of_begun
          · simp
          · rfl
  | piece reading read =>
      unfold Rested at rested
      rw [reading] at rested
      exact rested_of_begun (by simp [rested.1]) rested.2
  | data reading read =>
      unfold Rested at rested
      rw [reading] at rested
      exact rested_of_begun (by simp [rested.1]) rested.2
  | @filterBody name line width reading =>
      unfold Rested at rested
      rw [reading] at rested fits
      obtain ⟨⟨unread, current, number⟩, levels, mode, pending, begun⟩ := scanner
      cases fits
      simp only at rested
      subst rested
      by_cases blanks :
          0 < (readFilterLines (width + 1) none 0 ⟨unread, none, number⟩).blanksAfter
      · refine .inr (afterBlank_readFilterLines (loaded.suffix ending) ending ?_ blanks)
        intro impossible
        contradiction
      · apply rested_of_begun
        · simp [readFilterBody, onLine]
        · simpa [readFilterBody] using blanks
  | done reading =>
      unfold Rested
      simp only [reading]

theorem Rested.reaches {scanner last : Scanner} {tokens : List Token} (loaded : Loaded lines)
    (standing : Standing lines scanner) (rested : Rested lines scanner)
    (reaches : Reaches scanner tokens last) : Rested lines last := by
  induction reaches with
  | refl scanner => exact rested
  | step active stepped later ih =>
      exact ih (standing.step loaded stepped) (rested.step loaded standing stepped)

/-- At the end of lines of which the last is not blank, something was yielded and no blank
line is due. -/
theorem Rested.at_end {scanner : Scanner} {entry : Nat × Text} (rested : Rested lines scanner)
    (reading : scanner.mode = .lineStart) (ended : scanner.source.lines = [])
    (last : lines.getLast? = some entry) (visible : Text.isAllBlank entry.2 = false) :
    scanner.begun = true ∧ scanner.blankPending = false := by
  unfold Rested at rested
  rw [reading, ended] at rested
  rcases rested with settled | afterBlank
  · exact settled
  · obtain ⟨before, rfl⟩ := List.getLast?_eq_some_iff.mp last
    have blank := afterBlank entry (List.suffix_append _ _)
    rw [visible] at blank
    contradiction

/-! ### A line in the first column -/

section FirstColumn

variable {levels : Levels}

theorem enterLevel_zero (base : levels.base = 0) (increasing : levels.Increasing) (line : Nat) :
    enterLevel 0 line levels =
      .ok (Levels.ofBase 0, onLine line (List.replicate levels.depth .dedent)) := by
  obtain ⟨base, inner⟩ := levels
  cases base
  cases inner with
  | nil => rfl
  | cons innermost others =>
      have positive : 0 < innermost := (Levels.increasing_iff.mp increasing).2 _ List.mem_cons_self
      have narrower : Levels.compare ⟨0, innermost :: others⟩ 0 = .lt := Nat.compare_eq_lt.mpr positive
      obtain ⟨left, closes, empty⟩ := depth_dedentTo_zero rfl increasing
      have kept := Levels.base_dedentTo 0 ⟨0, innermost :: others⟩
      rw [closes] at kept
      obtain ⟨base, inner⟩ := left
      cases kept
      obtain rfl := List.eq_nil_of_length_eq_zero empty
      simp only [enterLevel, narrower, closes]
      rfl

theorem readConstruct_sign {text : Text} {width line : Nat} {source after : Source} {mode : Mode}
    {lexemes : List Lexeme} (sign : text.head? = some '%')
    (read : readConstruct (openingOf text) width line source = .ok (after, mode, lexemes)) :
    ∃ tag others, lexemes = ⟨.element tag, line⟩ :: others := by
  obtain ⟨rest, rfl⟩ := List.head?_eq_some_iff.mp sign
  have opens : openingOf ('%' :: rest) = .element := by simp [openingOf]
  simp only [opens, readConstruct, readElement, startElement] at read
  split at read
  · contradiction
  · split at read
    · contradiction
    · cases read
      exact ⟨_, _, rfl⟩

section Sign

variable {next number : Nat} {text : Text} {others : List (Nat × Text)} {lexemes : List Lexeme}
  (sign : text.head? = some '%')
  (ran : (ofSource ⟨(next, text) :: others, none, number⟩).run = (lexemes, none))

include sign

theorem unindented_of_sign : text.leadingSpaces = 0 ∧ Text.isAllBlank text = false := by
  obtain ⟨rest, rfl⟩ := List.head?_eq_some_iff.mp sign
  simp [Text.leadingSpaces, Text.isAllBlank, Text.isBlank]

include ran

theorem exists_read_of_run :
    ∃ tag rest later after mode,
      readConstruct (openingOf (text.drop text.leadingSpaces)) text.leadingSpaces next
          ⟨others, some (text.drop text.leadingSpaces), next⟩ =
        .ok (after, mode, ⟨.element tag, next⟩ :: rest) ∧
      (Scanner.mk after (Levels.ofBase 0) mode false true).run = (later, none) ∧
      lexemes = ⟨.element tag, next⟩ :: rest ++ later := by
  obtain ⟨unindented, visible⟩ := unindented_of_sign sign
  have enters : enterLevel text.leadingSpaces next (Levels.ofBase 0) = .ok (Levels.ofBase 0, []) := by
    rw [unindented]
    rfl
  rw [ofSource, run_visible visible] at ran
  cases read : readConstruct (openingOf (text.drop text.leadingSpaces)) text.leadingSpaces next
      ⟨others, some (text.drop text.leadingSpaces), next⟩ with
  | error fault =>
      have failed : (Scanner.mk ⟨(next, text) :: others, none, number⟩ (Levels.ofBase 0) .indentation
          false false).step = .error fault := by
        simp only [step, act, readIndentation, Source.peekLine, Source.readLine, Source.lineNumber,
          Option.getD_some, enters, readConstruct_skip, read]
      rw [run_of_step_error (by simp) failed] at ran
      cases ran
  | ok result =>
      obtain ⟨after, mode, constructed⟩ := result
      have head : (text.drop text.leadingSpaces).head? = some '%' := by
        rw [unindented, List.drop_zero]
        exact sign
      obtain ⟨tag, rest, rfl⟩ := readConstruct_sign head read
      have stepped := @step_indentation _ false false next number _ _ _ _ _ _ _ enters read
      rw [run_of_step (by simp) stepped] at ran
      obtain ⟨yielded, faultless⟩ := Prod.mk.inj ran
      exact ⟨tag, rest, _, after, mode, rfl, Prod.ext rfl faultless, yielded.symm⟩

/-- From an element in the first column on, the scanner yields what a new one does, after the
levels that are open were closed and a blank line that is due was yielded. -/
theorem run_firstColumn (pending : Bool) (base : levels.base = 0)
    (increasing : levels.Increasing) :
    (Scanner.mk ⟨(next, text) :: others, none, number⟩ levels .lineStart pending true).run =
      (onLine next (List.replicate levels.depth .dedent) ++
        (if pending then onLine next [.blankLine] else []) ++ lexemes, none) := by
  obtain ⟨unindented, visible⟩ := unindented_of_sign sign
  obtain ⟨tag, rest, later, after, mode, read, continues, rfl⟩ := exists_read_of_run sign ran
  have enters : enterLevel text.leadingSpaces next levels =
      .ok (Levels.ofBase 0, onLine next (List.replicate levels.depth .dedent)) := by
    rw [unindented]
    exact enterLevel_zero base increasing next
  have stepped := @step_indentation levels pending true next number _ _ _ _ _ _ _ enters read
  rw [run_visible visible, run_of_step (by simp) stepped, Bool.true_or, continues, List.append_assoc]

end Sign

theorem run_ended {number : Nat} {pending begun : Bool} (base : levels.base = 0)
    (increasing : levels.Increasing) :
    (Scanner.mk ⟨[], none, number⟩ levels .lineStart pending begun).run =
      (onLine number (List.replicate levels.depth .dedent), none) := by
  obtain ⟨left, closes, -⟩ := depth_dedentTo_zero base increasing
  have stepped : (Scanner.mk ⟨[], none, number⟩ levels .lineStart pending begun).step =
      .ok (⟨⟨[], none, number⟩, left, .done, pending,
        begun || !(onLine number (List.replicate levels.depth .dedent)).isEmpty⟩,
        onLine number (List.replicate levels.depth .dedent)) := by
    simp only [step, act, startLine, Source.peekLine, Source.readLine, Source.lineNumber, closes,
      Option.getD_some]
  rw [run_of_step (by simp) stepped, run_of_done rfl, List.append_nil]

end FirstColumn

end Scanner

/-! ### Joined lines -/

namespace Source

open Scanner (onLine)

section Before

variable {blanks later : List (Nat × Text)}
  {spaced : ∀ entry ∈ blanks, ∃ count, entry.2 = Text.spaces count}
  {ended : later = [] → blanks = []}

theorem lines_before (lines : List (Nat × Text)) :
    (Recast.before blanks later spaced ended).lines lines = lines ++ (blanks ++ later) := by
  have kept : (Recast.before blanks later spaced ended).entry = id := by
    funext entry
    exact Prod.ext rfl Text.reindent_id
  rw [Recast.lines, kept, List.map_id]
  rfl

theorem scanner_before (lines : List (Nat × Text)) (number : Nat) (levels : Levels)
    (pending begun : Bool) :
    (Recast.before blanks later spaced ended).scanner
        ⟨⟨lines, none, number⟩, levels, .lineStart, pending, begun⟩ =
      ⟨⟨lines ++ (blanks ++ later), none, number⟩, levels, .lineStart, pending, begun⟩ := by
  have kept : (Recast.before blanks later spaced ended).levels levels = levels := by
    simp [Recast.levels, Recast.before]
  rw [Recast.scanner, Recast.source_mk, lines_before, kept]
  rfl

end Before

theorem lexemes_renumber {source : Source} {lexemes : List Lexeme} {shift : Nat}
    (between : source.current = none) (loaded : Loaded source.lines)
    (whole : Loaded ((Recast.renumber shift).lines source.lines)) (given : source.lines ≠ [])
    (ran : source.lexemes = (lexemes, none)) (number : Nat) :
    (Source.mk ((Recast.renumber shift).lines source.lines) none number).lexemes =
      (lexemes.map (Recast.renumber shift).lexeme, none) := by
  unfold Source.lexemes at ran ⊢
  have again := @Recast.run_of_ended (Recast.renumber shift) _ _ rfl loaded whole
    (Scanner.standing_ofSource between) (by rw [ran]) (.inl rfl)
  rw [ran] at again
  rw [← again]
  obtain ⟨lines, current, last⟩ := source
  cases between
  refine Scanner.run_lineStart_number ?_ number (last + shift)
  cases lines with
  | nil => contradiction
  | cons entry others => exact List.cons_ne_nil _ _

/-- Before the lines that follow, the levels that are open are those that the end of the
lines would close, something was yielded, and no blank line is due. -/
theorem runsTo_following {source : Source} {blanks later : List (Nat × Text)} {last : Nat × Text}
    {lexemes : List Lexeme} (between : source.current = none) (loaded : Loaded source.lines)
    (whole : Loaded (source.lines ++ (blanks ++ later)))
    (spaced : ∀ entry ∈ blanks, ∃ count, entry.2 = Text.spaces count)
    (outset : ∃ entry, later.head? = some entry ∧ entry.2.head? = some '%')
    (ends : source.lines.getLast? = some last) (visible : Text.isAllBlank last.2 = false)
    (uncontinued : last.2.getLast? ≠ some '\\') (ran : source.lexemes = (lexemes, none)) :
    ∃ (body : List Lexeme) (levels : Levels) (number : Nat), levels.base = 0 ∧ levels.Increasing ∧
      lexemes = body ++ onLine number (List.replicate levels.depth .dedent) ∧
      Scanner.RunsTo (Scanner.ofSource ⟨source.lines ++ (blanks ++ later), none, source.number⟩) body
        ⟨⟨blanks ++ later, none, number⟩, levels, .lineStart, false, true⟩ := by
  unfold Source.lexemes at ran
  obtain ⟨starting, head, sign⟩ := outset
  have ended : later = [] → blanks = [] := by
    rintro rfl
    contradiction
  have outset : (Recast.before blanks later spaced ended).Outset := by
    intro entry starts
    simp only [Recast.before, head] at starts
    cases starts
    exact sign
  have standing := Scanner.standing_ofSource between
  have closes : (Recast.before blanks later spaced ended).Closes source.lines := by
    refine .inr ?_
    intro number line same
    rw [ends] at same
    cases same
    simp at uncontinued
  rw [← @lines_before blanks later spaced ended] at whole
  obtain ⟨body, final, passes, reading, unread, recasts⟩ := Recast.runsTo_end loaded standing
    (by simp [Scanner.ofSource]) (by rw [ran])
  have runs := recasts (.before blanks later spaced ended) whole closes (.inl rfl)
    (.inl outset)
  have tracked := passes.reaches.kept Scanner.Tracked.step (Scanner.tracked_ofSource source)
  have stands := standing.reaches loaded passes.reaches
  have rested := (Scanner.rested_ofSource source).reaches loaded standing passes.reaches
  obtain ⟨begun, settled⟩ := rested.at_end reading unread ends visible
  -- the final state is now known but for its levels, so its own run closes these and no more
  have fits := stands.fits
  have closing := passes.runs
  obtain ⟨⟨left, current, number⟩, levels, mode, pending, yielded⟩ := final
  cases reading
  cases fits
  cases unread
  cases begun
  cases settled
  rw [Scanner.RunsTo, ran, Scanner.run_ended tracked.base tracked.increasing] at closing
  refine ⟨body, levels, number, tracked.base, tracked.increasing, congrArg Prod.fst closing, ?_⟩
  have kept : body.map (Recast.before blanks later spaced ended).lexeme = body := List.map_id' body
  obtain ⟨lines, current, first⟩ := source
  cases between
  rw [Scanner.ofSource, scanner_before, scanner_before, kept] at runs
  exact runs

/-- The lexemes of lines, of a gap of blank lines, and of lines that start with an element. -/
theorem lexemes_joined {first second : Source} {gap : List (Nat × Text)} {shift : Nat}
    {last : Nat × Text} {one two : List Lexeme}
    (firstBetween : first.current = none) (firstLoaded : Loaded first.lines)
    (secondBetween : second.current = none) (secondLoaded : Loaded second.lines)
    (whole : Loaded (first.lines ++ (gap ++ (Recast.renumber shift).lines second.lines)))
    (spaced : ∀ entry ∈ gap, ∃ count, entry.2 = Text.spaces count)
    (sign : ∃ entry, second.lines.head? = some entry ∧ entry.2.head? = some '%')
    (ends : first.lines.getLast? = some last) (visible : Text.isAllBlank last.2 = false)
    (uncontinued : last.2.getLast? ≠ some '\\')
    (ranFirst : first.lexemes = (one, none)) (ranSecond : second.lexemes = (two, none)) :
    ∃ body closed ended next, one = body ++ onLine ended (List.replicate closed .dedent) ∧
      (Source.mk (first.lines ++ (gap ++ (Recast.renumber shift).lines second.lines)) none
          first.number).lexemes =
        (body ++ (onLine next (List.replicate closed .dedent) ++
          (if !gap.isEmpty then onLine next [.blankLine] else []) ++
          two.map (Recast.renumber shift).lexeme), none) := by
  obtain ⟨entry, starts, head⟩ := sign
  obtain ⟨others, second_lines⟩ := List.head?_eq_some_iff.mp starts
  have kept : Text.reindent (Recast.renumber shift).width entry.2 = entry.2 := Text.reindent_id
  have following : (Recast.renumber shift).lines second.lines =
      (entry.1 + shift, entry.2) :: (Recast.renumber shift).lines others := by
    rw [second_lines, Recast.lines_cons, kept]
    rfl
  have later := whole.suffix ((List.suffix_append _ _).trans (List.suffix_append _ _))
  have secondRuns := lexemes_renumber secondBetween secondLoaded later (by simp [second_lines])
    ranSecond
  rw [following] at whole secondRuns ⊢
  obtain ⟨body, levels, number, base, increasing, rfl, runs⟩ := runsTo_following firstBetween
    firstLoaded whole spaced ⟨_, rfl, head⟩ ends visible uncontinued ranFirst
  obtain ⟨resumed, passed⟩ := @Scanner.runsTo_blanks _ levels false true gap spaced number
  have both := runs.trans passed
  rw [Bool.false_or, Bool.and_true, Scanner.RunsTo, List.append_nil,
    Scanner.run_firstColumn head (secondRuns resumed) _ base increasing] at both
  exact ⟨body, levels.depth, number, entry.1 + shift, rfl, both⟩

end Source

theorem tokenize_sign {text : Text} {lexemes : List Lexeme} (sign : text.head? = some '%')
    (cut : tokenize text = .ok lexemes) :
    ∃ tag others, lexemes = ⟨.element tag, 1⟩ :: others := by
  obtain ⟨source, loads, ran⟩ := tokenize_eq_ok_iff.mp cut
  obtain ⟨unmarked, rest, others, lines⟩ := Source.ofText_sign sign
  rw [unmarked] at loads
  obtain ⟨-, rfl⟩ := Source.ofLines_eq_ok_iff.mp loads
  rw [lines] at ran
  obtain ⟨tag, more, later, -, -, -, -, rfl⟩ := Scanner.exists_read_of_run rfl ran
  exact ⟨tag, more ++ later, rfl⟩

/-- The lexemes of two texts with blank lines between them. -/
theorem tokenize_joined {first second : Text} {one two : List Lexeme} (blanks : List Nat)
    (free : '\r' ∉ first) (visible : first.lastLine.isAllBlank = false)
    (unmarked : Encoding.pragma first.lastLine = none)
    (uncontinued : first.lastLine.getLast? ≠ some '\\') (sign : second.head? = some '%')
    (cutFirst : tokenize first = .ok one) (cutSecond : tokenize second = .ok two) :
    ∃ body closed ended next shift,
      one = body ++ Scanner.onLine ended (List.replicate closed .dedent) ∧
      tokenize (Text.joined blanks first second) =
        .ok (body ++ (Scanner.onLine next (List.replicate closed .dedent) ++
          (if !blanks.isEmpty then Scanner.onLine next [.blankLine] else []) ++
          two.map (Recast.renumber shift).lexeme)) := by
  obtain ⟨source, loadsFirst, ranFirst⟩ := tokenize_eq_ok_iff.mp cutFirst
  obtain ⟨following, loadsSecond, ranSecond⟩ := tokenize_eq_ok_iff.mp cutSecond
  have given : first.lastLine ≠ [] := by
    intro empty
    rw [empty] at visible
    contradiction
  obtain ⟨ends, gap, shift, gaps, loads⟩ := Source.ofText_joined blanks free given unmarked sign
    loadsFirst loadsSecond
  obtain ⟨last, ends, same⟩ := Option.map_eq_some_iff.mp ends
  rw [← same] at visible uncontinued
  obtain ⟨firstBetween, firstLoaded⟩ := Source.IsLoaded.loaded (.inl ⟨_, loadsFirst⟩)
  obtain ⟨secondBetween, secondLoaded⟩ := Source.IsLoaded.loaded (.inl ⟨_, loadsSecond⟩)
  obtain ⟨-, whole⟩ := Source.IsLoaded.loaded (.inl ⟨_, loads⟩)
  have spaced : ∀ entry ∈ gap, ∃ count, entry.2 = Text.spaces count := by
    intro entry member
    have spaces : entry.2 ∈ blanks.map Text.spaces := by
      rw [← gaps]
      exact List.mem_map_of_mem member
    obtain ⟨width, -, same⟩ := List.mem_map.mp spaces
    exact ⟨width, same.symm⟩
  have starts : ∃ entry, following.lines.head? = some entry ∧ entry.2.head? = some '%' := by
    obtain ⟨unmarkedSecond, rest, others, lines⟩ := Source.ofText_sign sign
    rw [unmarkedSecond] at loadsSecond
    obtain ⟨-, rfl⟩ := Source.ofLines_eq_ok_iff.mp loadsSecond
    rw [lines]
    exact ⟨_, rfl, rfl⟩
  obtain ⟨body, closed, ended, next, split, ran⟩ := Source.lexemes_joined firstBetween firstLoaded
    secondBetween secondLoaded whole spaced starts ends visible uncontinued ranFirst ranSecond
  refine ⟨body, closed, ended, next, shift, split, ?_⟩
  have empty : gap.isEmpty = blanks.isEmpty := by
    rw [← @List.isEmpty_map _ _ gap Prod.snd, gaps, List.isEmpty_map]
  rw [empty] at ran
  exact tokenize_eq_ok_iff.mpr ⟨_, loads, ran⟩

end Stencil
