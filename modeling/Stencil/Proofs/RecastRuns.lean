import Stencil.Proofs.LineScanning
import Stencil.Proofs.Recasting

/-! The run of a scanner over recast lines.

Step by step, the scanner over the recast lines yields what the scanner over the lines as
they were does, though it may take more or fewer steps for it.  So the two yield the same up
to the end of the lines, and there the first goes on with the lines that follow. -/

namespace Stencil

open Source (Among Inside Loaded Onward Recast)

/-! ### Steps and runs -/

/-- A scanner is done only after it has come to the start of a line with no line left. -/
theorem Scanner.Standing.ended_of_done {lines : List (Nat × Text)} {scanner next : Scanner}
    {lexemes : List Lexeme} (standing : scanner.Standing lines) (active : scanner.mode ≠ .done)
    (stepped : scanner.step = .ok (next, lexemes)) (finished : next.mode = .done) :
    scanner.mode = .lineStart ∧ scanner.source.lines = [] := by
  obtain ⟨acted, acts, rfl⟩ := step_cases stepped
  have fits := standing.fits
  cases acts with
  | ended reading next =>
      rw [reading] at fits
      obtain ⟨⟨unread, current, number⟩, levels, mode, pending, begun⟩ := scanner
      cases fits
      cases unread with
      | nil => exact ⟨reading, rfl⟩
      | cons entry others => contradiction
  | blank reading next blank => exact absurd finished active
  | line reading next visible => contradiction
  | construct reading found indent entered read =>
      obtain rfl := finished
      cases begins_of_readConstruct read
  | piece reading read =>
      obtain rfl := finished
      cases read
  | data reading read => contradiction
  | filterBody reading => contradiction
  | done reading => exact absurd reading active

namespace Source.Recast

open Scanner (RunsTo)

variable {recast : Recast} {lines : List (Nat × Text)} {source : Source} {levels : Levels}
  {pending begun : Bool} {next : Scanner} {lexemes : List Lexeme}

theorem isAllBlank_reindent (width : Nat → Nat) (text : Text) :
    Text.isAllBlank (Text.reindent width text) = Text.isAllBlank text := by
  have parts (width : Nat) (body : Text) :
      Text.isAllBlank (Text.spaces width ++ body) = Text.isAllBlank body := by
    have spaced := Text.isAllBlank_spaces width
    unfold Text.isAllBlank at spaced ⊢
    rw [List.all_append, spaced, Bool.true_and]
  conv_rhs => rw [← Text.spaces_append_drop text]
  rw [Text.reindent, parts, parts]

theorem runsTo_lineStart (between : source.current = none)
    (unended : source.lines = [] → recast.later = [])
    (stepped : (Scanner.mk source levels .lineStart pending begun).step = .ok (next, lexemes)) :
    RunsTo (recast.scanner ⟨source, levels, .lineStart, pending, begun⟩)
      (lexemes.map recast.lexeme) (recast.scanner next) := by
  obtain ⟨unread, current, number⟩ := source
  cases between
  apply RunsTo.of_step (by simp [Recast.scanner, Recast.mode])
  cases unread with
  | nil =>
      have nothing := lines_nil (unended rfl)
      have closed := recast.dedentTo_levels 0 levels
      rw [recast.zero] at closed
      simp only [Scanner.step, Scanner.act, Scanner.startLine, Source.peekLine, Source.readLine,
        Source.lineNumber] at stepped
      cases stepped
      simp only [Scanner.step, Scanner.act, Scanner.startLine, Source.peekLine, Source.readLine,
        Source.lineNumber, Recast.scanner, Recast.source_mk, Recast.mode, nothing, closed, map_onLine]
      simp [Scanner.onLine]
  | cons entry others =>
      obtain ⟨following, text⟩ := entry
      by_cases blank : Text.isAllBlank text = true
      · simp only [Scanner.step, Scanner.act, Scanner.startLine, Source.peekLine, Source.readLine,
          if_pos blank] at stepped
        cases stepped
        simp [Scanner.step, Scanner.act, Scanner.startLine, Source.peekLine, Source.readLine,
          Recast.scanner, Recast.mode, isAllBlank_reindent, blank]
      · simp only [Scanner.step, Scanner.act, Scanner.startLine, Source.peekLine, Source.readLine,
          if_neg blank] at stepped
        cases stepped
        simp [Scanner.step, Scanner.act, Scanner.startLine, Source.peekLine, Source.readLine,
          Recast.scanner, Recast.mode, isAllBlank_reindent, blank]

theorem runsTo_data (inside : source.current ≠ none)
    (stepped : (Scanner.mk source levels .data pending begun).step = .ok (next, lexemes)) :
    RunsTo (recast.scanner ⟨source, levels, .data, pending, begun⟩)
      (lexemes.map recast.lexeme) (recast.scanner next) := by
  obtain ⟨unread, current, number⟩ := source
  cases current with
  | none => contradiction
  | some rest =>
      cases given : Scanner.payloadOf number (Text.trim rest) with
      | error fault =>
          simp [Scanner.step, Scanner.act, Scanner.advance, Scanner.readData, Source.lineNumber,
            given] at stepped
      | ok payload =>
          have again := Scanner.payloadOf_of_payloadOf (number + recast.shift) given
          simp only [Scanner.step, Scanner.act, Scanner.advance, Scanner.readData, Source.lineNumber,
            Source.readLine_within, Option.getD_some, given] at stepped
          cases stepped
          apply RunsTo.of_step (by simp [Recast.scanner, Recast.mode])
          simp only [Scanner.step, Scanner.act, Scanner.advance, Scanner.readData, Source.lineNumber,
            Source.readLine_within, Option.getD_some, Recast.scanner, Recast.source_mk, Recast.mode,
            again, map_onLine]
          rfl

theorem runsTo_filterBody {name : Text} {line width : Nat} (outset : recast.Outset)
    (same : recast.width = id) (loaded : Loaded source.lines) (whole : Loaded (recast.lines source.lines))
    (between : source.current = none)
    (stepped : (Scanner.mk source levels (.filterBody name line width) pending begun).step =
      .ok (next, lexemes)) :
    RunsTo (recast.scanner ⟨source, levels, .filterBody name line width, pending, begun⟩)
      (lexemes.map recast.lexeme) (recast.scanner next) := by
  obtain ⟨unread, current, number⟩ := source
  cases between
  have deeper : 0 < (none : Option Nat).getD (width + 1) := Nat.succ_pos width
  obtain ⟨body, follows⟩ :=
    recast.readFilterLines_lines 0 number outset same deeper loaded whole
  generalize read : Scanner.readFilterLines (width + 1) none 0
    (recast.source ⟨unread, none, number⟩) = resumed at body follows
  simp only [Scanner.step, Scanner.act, Scanner.readFilterBody] at stepped
  cases stepped
  have stays : recast.width width = width := congrFun same width
  have reads : (recast.scanner
        ⟨⟨unread, none, number⟩, levels, .filterBody name line width, pending, begun⟩).step =
      .ok (⟨resumed.source, recast.levels levels, .lineStart, pending || 0 < resumed.blanksAfter, true⟩,
        Scanner.onLine (line + recast.shift) [.filter name resumed.lines]) := by
    simp only [Recast.scanner, Recast.mode, stays, Scanner.step, Scanner.act, Scanner.readFilterBody,
      read]
    simp [Scanner.onLine]
  have first := RunsTo.of_step (by simp [Recast.scanner, Recast.mode]) reads
  have second := RunsTo.of_run (follows (recast.levels levels) pending)
  have both := first.trans second
  rw [List.append_nil, body] at both
  rw [map_onLine]
  simp only [Scanner.onLine, List.map_cons, List.isEmpty_cons, Bool.not_false, Bool.or_true]
  exact both

theorem runsTo_indentation (loaded : Loaded source.lines) (whole : Loaded (recast.lines source.lines))
    (between : source.current = none) (unended : source.lines ≠ [])
    (apart : recast.Outset ∨ ∀ lexeme ∈ lexemes, lexeme.token.takesLines = false)
    (stepped : (Scanner.mk source levels .indentation pending begun).step = .ok (next, lexemes)) :
    RunsTo (recast.scanner ⟨source, levels, .indentation, pending, begun⟩)
      (lexemes.map recast.lexeme) (recast.scanner next) := by
  obtain ⟨unread, current, number⟩ := source
  cases between
  cases unread with
  | nil => contradiction
  | cons entry others =>
      obtain ⟨following, text⟩ := entry
      obtain ⟨acted, acts, rfl⟩ := Scanner.step_cases stepped
      cases acts with
      | @construct width _ left after mode structural constructed reading found indent entered read =>
          cases found
          cases indent
          simp only [Source.peekLine, Source.readLine, Source.lineNumber, Option.getD_some]
            at entered read ⊢
          rw [Scanner.readConstruct_skip] at read
          have inside : Inside ⟨others, some (text.drop text.leadingSpaces), following⟩ := by
            constructor
            · intro member
              exact loaded.unbroken _ List.mem_cons_self (List.mem_of_mem_drop member)
            · intro entry member
              exact loaded.unbroken entry (List.mem_cons_of_mem _ member)
          have apartConstruct : recast.Outset ∨
              ∀ lexeme ∈ constructed, lexeme.token.takesLines = false :=
            apart.imp_right fun untaken lexeme member =>
              untaken lexeme (List.mem_append_right _ member)
          obtain ⟨resumed, again, follows⟩ := recast.readConstruct_source
            (loaded.suffix (List.suffix_cons _ _)) (whole.suffix (List.suffix_cons _ _)) inside
            apartConstruct read
          have enters := recast.enterLevel_levels entered
          have mapped : (structural ++ (if pending then Scanner.onLine following [.blankLine] else []) ++
                constructed).map recast.lexeme =
              structural.map recast.lexeme ++
                (if pending then Scanner.onLine (following + recast.shift) [.blankLine] else []) ++
                constructed.map recast.lexeme := by
            cases pending <;> simp [map_onLine]
          have indented : (Text.reindent recast.width text).leadingSpaces =
              recast.width text.leadingSpaces := Text.leadingSpaces_reindent
          have body : (Text.reindent recast.width text).drop (recast.width text.leadingSpaces) =
              text.drop text.leadingSpaces := Text.drop_reindent
          rw [← indented] at enters again body
          rw [Recast.source_mk, ← body] at again
          have reads := @Scanner.step_indentation _ pending begun _ (number + recast.shift)
            _ _ _ _ _ _ _ enters again
          rw [← mapped, List.isEmpty_map] at reads
          have both := (RunsTo.of_step (by simp) reads).trans
            (.of_run (follows _ _ _))
          rw [List.append_nil] at both
          exact both
      | _ => contradiction

theorem runsTo_step {scanner : Scanner} (loaded : Loaded lines) (whole : Loaded (recast.lines lines))
    (closes : recast.Closes lines) (standing : scanner.Standing lines)
    (active : scanner.mode ≠ .done)
    (unended : scanner.mode = .lineStart → scanner.source.lines = [] → recast.later = [])
    (plain : recast.width = id ∨ ∀ name body, Token.filter name body ∉ lexemes.map Lexeme.token)
    (apart : recast.Outset ∨ ∀ lexeme ∈ lexemes, lexeme.token.takesLines = false)
    (stepped : scanner.step = .ok (next, lexemes)) :
    RunsTo (recast.scanner scanner) (lexemes.map recast.lexeme) (recast.scanner next) := by
  obtain ⟨among, fits⟩ := standing
  have unread := loaded.suffix among.ending
  have wholeUnread := whole.suffix (recast.lines_suffix among.ending)
  obtain ⟨source, levels, mode, pending, begun⟩ := scanner
  cases mode with
  | lineStart => exact runsTo_lineStart fits (unended rfl) stepped
  | indentation => exact runsTo_indentation unread wholeUnread fits.1 fits.2 apart stepped
  | pieces parentheses =>
      cases read : Scanner.readPiece parentheses source with
      | error fault => simp [Scanner.step, Scanner.act, Scanner.advance, read] at stepped
      | ok result =>
          obtain ⟨after, mode, others⟩ := result
          rw [Scanner.step_pieces levels pending begun read] at stepped
          cases stepped
          exact runsTo_pieces loaded closes among fits read
  | data => exact runsTo_data fits stepped
  | filterBody name line width =>
      rcases plain with same | plain
      · rcases apart with outset | untaken
        · exact runsTo_filterBody outset same unread wholeUnread fits stepped
        · simp only [Scanner.step, Scanner.act, Scanner.readFilterBody] at stepped
          cases stepped
          have taken := untaken _ List.mem_cons_self
          contradiction
      · simp only [Scanner.step, Scanner.act, Scanner.readFilterBody] at stepped
        cases stepped
        rw [Scanner.tokens_onLine] at plain
        exact absurd List.mem_cons_self (plain _ _)
  | done => contradiction

theorem plain_append {first second : List Lexeme}
    (plain : recast.width = id ∨
      ∀ name body, Token.filter name body ∉ (first ++ second).map Lexeme.token) :
    (recast.width = id ∨ ∀ name body, Token.filter name body ∉ first.map Lexeme.token) ∧
      (recast.width = id ∨ ∀ name body, Token.filter name body ∉ second.map Lexeme.token) := by
  simp only [List.map_append, List.mem_append, not_or] at plain
  exact ⟨plain.imp_right fun both name body => (both name body).1,
    plain.imp_right fun both name body => (both name body).2⟩

/-- If nothing follows the recast lines, the scanner yields the same to the end. -/
theorem run_of_ended {scanner : Scanner} (ended : recast.later = []) (loaded : Loaded lines)
    (whole : Loaded (recast.lines lines)) (standing : scanner.Standing lines)
    (ran : scanner.run.2 = none)
    (plain : recast.width = id ∨
      ∀ name body, Token.filter name body ∉ scanner.run.1.map Lexeme.token) :
    (recast.scanner scanner).run = (scanner.run.1.map recast.lexeme, none) := by
  fun_induction Scanner.run scanner with
  | case1 scanner finished =>
      apply Scanner.run_of_done
      simp [Recast.scanner, Recast.mode, finished]
  | case2 scanner active fault failed => contradiction
  | case3 scanner active next lexemes stepped others ih =>
      obtain ⟨plainStep, plainOthers⟩ := plain_append plain
      have outset : recast.Outset := by simp [Outset, ended]
      have first := runsTo_step loaded whole (.inl ended) standing active (fun _ _ => ended)
        plainStep (.inl outset) stepped
      have later := ih (standing.step loaded stepped) ran plainOthers
      rw [first, later, List.map_append]

theorem apart_append {first second : List Lexeme}
    (apart : recast.Outset ∨ ∀ lexeme ∈ first ++ second, lexeme.token.takesLines = false) :
    (recast.Outset ∨ ∀ lexeme ∈ first, lexeme.token.takesLines = false) ∧
      (recast.Outset ∨ ∀ lexeme ∈ second, lexeme.token.takesLines = false) :=
  ⟨apart.imp_right fun untaken lexeme member => untaken lexeme (List.mem_append_left _ member),
    apart.imp_right fun untaken lexeme member => untaken lexeme (List.mem_append_right _ member)⟩

/-- A scanner comes to the end of its lines, and over recast lines it yields the same up to
there, if no construct takes in the lines that follow. -/
theorem runsTo_end {scanner : Scanner} (loaded : Loaded lines) (standing : scanner.Standing lines)
    (active : scanner.mode ≠ .done) (ran : scanner.run.2 = none) :
    ∃ yielded last, scanner.Passes yielded last ∧ last.mode = .lineStart ∧ last.source.lines = [] ∧
      ∀ recast : Recast, Loaded (recast.lines lines) → recast.Closes lines →
        (recast.width = id ∨
          ∀ name body, Token.filter name body ∉ scanner.run.1.map Lexeme.token) →
        (recast.Outset ∨ ∀ lexeme ∈ scanner.run.1, lexeme.token.takesLines = false) →
        RunsTo (recast.scanner scanner) (yielded.map recast.lexeme) (recast.scanner last) := by
  fun_induction Scanner.run scanner with
  | case1 scanner finished => contradiction
  | case2 scanner active fault failed => contradiction
  | case3 scanner _ next lexemes stepped others ih =>
      by_cases ended : scanner.mode = .lineStart ∧ scanner.source.lines = []
      · exact ⟨[], scanner, .refl scanner, ended.1, ended.2, fun _ _ _ _ _ => .refl _⟩
      · have continues : next.mode ≠ .done :=
          fun finished => ended (standing.ended_of_done active stepped finished)
        obtain ⟨yielded, last, passes, reading, unread, runs⟩ :=
          ih (standing.step loaded stepped) continues ran
        refine ⟨lexemes ++ yielded, last, .step active stepped passes, reading, unread, ?_⟩
        intro recast whole closes plain apart
        obtain ⟨plainStep, plainOthers⟩ := plain_append plain
        obtain ⟨apartStep, apartOthers⟩ := apart_append apart
        have first := runsTo_step loaded whole closes standing active
          (fun reading unread => absurd ⟨reading, unread⟩ ended) plainStep apartStep stepped
        rw [List.map_append]
        exact first.trans (runs recast whole closes plainOthers apartOthers)

end Source.Recast

end Stencil
