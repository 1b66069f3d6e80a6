import Stencil.Proofs.Runs

/-! Reading recast lines.

A scanner compares widths only with each other, and it drops the spaces at the start of
every line on which an attribute list goes on.  So lines that are indented and numbered anew
are read as the lines were: their levels, attribute lists, comments, filters and constructs.
The two readings need not keep in step, since there may be more or fewer spaces to skip. -/

namespace Stencil

open Source (Among Inside Loaded Onward Recast)

/-! ### Ways to recast lines -/

namespace Source.Recast

def ofWidth (width : Nat → Nat) (increasing : StrictMono width) (zero : width 0 = 0) :
    Recast where
  shift := 0
  width := width
  increasing := increasing
  zero := zero
  blanks := []
  later := []
  spaced := by simp
  ended := fun _ => rfl

def renumber (shift : Nat) : Recast where
  shift := shift
  width := id
  increasing := strictMono_id
  zero := rfl
  blanks := []
  later := []
  spaced := by simp
  ended := fun _ => rfl

def before (blanks later : List (Nat × Text))
    (spaced : ∀ entry ∈ blanks, ∃ count, entry.2 = Text.spaces count)
    (ended : later = [] → blanks = []) : Recast where
  shift := 0
  width := id
  increasing := strictMono_id
  zero := rfl
  blanks := blanks
  later := later
  spaced := spaced
  ended := ended

end Source.Recast

/-! ### Widths, levels and lexemes -/

namespace Source.Recast

variable (recast : Recast)

def levels (levels : Levels) : Levels where
  base := recast.width levels.base
  inner := levels.inner.map recast.width

def mode : Mode → Mode
  | .filterBody name line width => .filterBody name (line + recast.shift) (recast.width width)
  | mode => mode

def lexeme (lexeme : Lexeme) : Lexeme where
  token := lexeme.token
  line := lexeme.line + recast.shift

def scanner (scanner : Scanner) : Scanner where
  source := recast.source scanner.source
  levels := recast.levels scanner.levels
  mode := recast.mode scanner.mode
  blankPending := scanner.blankPending
  begun := scanner.begun

theorem map_onLine (line : Nat) (tokens : List Token) :
    (Scanner.onLine line tokens).map recast.lexeme = Scanner.onLine (line + recast.shift) tokens := by
  simp [Scanner.onLine, lexeme]

theorem current_levels (levels : Levels) :
    (recast.levels levels).current = recast.width levels.current := by
  unfold Levels.current Recast.levels
  cases levels.inner with
  | nil => rfl
  | cons innermost others => rfl

theorem closeAbove_map (width : Nat) (inner : List Nat) :
    Levels.closeAbove (recast.width width) (inner.map recast.width) =
      ((Levels.closeAbove width inner).1, (Levels.closeAbove width inner).2.map recast.width) := by
  induction inner with
  | nil => rfl
  | cons innermost others ih =>
      simp only [List.map_cons, Levels.closeAbove, recast.increasing.lt_iff_lt, ih]
      split
      · rfl
      · rfl

theorem dedentTo_levels (width : Nat) (levels : Levels) :
    (recast.levels levels).dedentTo (recast.width width) =
      ((levels.dedentTo width).1, recast.levels (levels.dedentTo width).2) := by
  have closed : ({ recast.levels levels with
      inner := (Levels.closeAbove (recast.width width) (recast.levels levels).inner).2 } : Levels) =
      recast.levels { levels with inner := (Levels.closeAbove width levels.inner).2 } := by
    simp only [Recast.levels, closeAbove_map]
  have counted : (Levels.closeAbove (recast.width width) (recast.levels levels).inner).1 =
      (Levels.closeAbove width levels.inner).1 := by
    simp only [Recast.levels, closeAbove_map]
  simp only [Levels.dedentTo, closed, counted, current_levels, recast.increasing.injective.eq_iff]

theorem enterLevel_levels {width line : Nat} {levels left : Levels} {lexemes : List Lexeme}
    (entered : Scanner.enterLevel width line levels = .ok (left, lexemes)) :
    Scanner.enterLevel (recast.width width) (line + recast.shift) (recast.levels levels) =
      .ok (recast.levels left, lexemes.map recast.lexeme) := by
  have compares : (recast.levels levels).compare (recast.width width) = levels.compare width := by
    simp only [Levels.compare, current_levels]
    rcases Nat.lt_trichotomy width levels.current with narrower | same | wider
    · rw [Nat.compare_eq_lt.mpr narrower, Nat.compare_eq_lt.mpr (recast.increasing narrower)]
    · rw [Nat.compare_eq_eq.mpr same, Nat.compare_eq_eq.mpr (congrArg recast.width same)]
    · rw [Nat.compare_eq_gt.mpr wider, Nat.compare_eq_gt.mpr (recast.increasing wider)]
  unfold Scanner.enterLevel at entered ⊢
  rw [compares, dedentTo_levels]
  split at entered
  · cases entered
    rw [map_onLine]
    rfl
  · cases entered
    rfl
  · split at entered
    · rename_i closed remaining dedents
      cases entered
      simp only [dedents, map_onLine]
    · contradiction

end Source.Recast

/-! ### Attribute lists -/

namespace Source.Recast

open Scanner (onLine readPiece)

variable (recast : Recast) {source after : Source} {mode : Mode} {lexemes : List Lexeme}

theorem skipSpaces_source (unended : source.skipSpaces.current ≠ none) :
    (recast.source source).skipSpaces = recast.source source.skipSpaces := by
  obtain ⟨lines, current, number⟩ := source
  match current, lines with
  | some rest, lines => simp
  | none, (next, line) :: others => simp
  | none, [] => simp at unended

theorem readPiece_source {parentheses : Nat} (inside : Inside source)
    (read : readPiece parentheses source = .ok (after, mode, lexemes)) :
    readPiece parentheses (recast.source source) =
      .ok (recast.source after, mode, lexemes.map recast.lexeme) := by
  have number : (recast.source source).lineNumber = source.lineNumber + recast.shift := by
    obtain ⟨unbroken, others⟩ := inside
    rfl
  cases Scanner.pieceRead_of_readPiece read with
  | ended next =>
      obtain ⟨unbroken, others⟩ := inside
      simp at next
  | lineEnd next =>
      obtain ⟨lines, number, rfl⟩ := inside.eq_lineEnd next
      simp [readPiece]
  | newline next opened =>
      obtain ⟨lines, number, rfl⟩ := inside.eq_lineEnd next
      simp [readPiece, opened]
  | space next =>
      obtain ⟨lines, rest, number, rfl⟩ := inside.eq_cons next (by decide)
      simp [readPiece]
  | opening next =>
      obtain ⟨lines, rest, number, rfl⟩ := inside.eq_cons next (by decide)
      simp [readPiece]
  | closing next =>
      obtain ⟨lines, rest, number, rfl⟩ := inside.eq_cons next (by decide)
      simp [readPiece]
  | continued next ends =>
      obtain ⟨lines, rest, number, rfl⟩ := inside.eq_cons next (by decide)
      obtain ⟨_, _, same⟩ := (Onward.tail.inside inside).eq_lineEnd ends
      cases same
      simp [readPiece]
  | data next =>
      obtain ⟨lines, rest, number, rfl⟩ := inside.eq_cons next (by decide)
      simp [readPiece]
  | selfClose next =>
      obtain ⟨lines, rest, last, rfl⟩ := inside.eq_cons next (by decide)
      simp only [Scanner.readSelfClose, map_onLine, ← number]
      simp [readPiece, Scanner.readSelfClose]
  | attributed next start attributeRead =>
      have again := (Scanner.readsOn_readAttribute inside attributeRead).replays recast
        (recast.source source).lineNumber
      rw [map_onLine, ← number]
      refine Scanner.readPiece_of_isNameStart ?_ start again
      obtain ⟨unbroken, others⟩ := inside
      exact next

/-- The last of the given lines does not end in a backslash, or nothing follows them. -/
def Closes (lines : List (Nat × Text)) : Prop :=
  recast.later = [] ∨ ∀ number line, lines.getLast? ≠ some (number, line ++ ['\\'])

variable {recast}

theorem mode_of_readPiece {parentheses : Nat}
    (read : readPiece parentheses source = .ok (after, mode, lexemes)) : recast.mode mode = mode := by
  cases Scanner.pieceRead_of_readPiece read <;> rfl

theorem later_eq_nil_of_ended {lines : List (Nat × Text)} {number : Nat}
    (closes : recast.Closes lines) (fits : (Mode.pieces 0).Fits lines ⟨[], none, number⟩) :
    recast.later = [] := by
  rcases closes with ended | closes
  · exact ended
  · rcases fits rfl with opened | ⟨last, line, ending⟩
    · contradiction
    · obtain ⟨before, rfl⟩ := ending
      exact absurd (by simp) (closes last line)

theorem lines_nil (ended : recast.later = []) : recast.lines [] = [] := by
  simp [Recast.lines, ended, recast.ended ended]

section Pieces

variable {lines : List (Nat × Text)} {levels : Levels} {parentheses : Nat} {pending begun : Bool}

/-- The scanners over both lines meet again before the next visible character. -/
theorem run_skipSpaces (unended : source.skipSpaces.current ≠ none) :
    (recast.scanner ⟨source, levels, .pieces parentheses, pending, begun⟩).run =
      (recast.scanner ⟨source.skipSpaces, levels, .pieces parentheses, pending, begun⟩).run := by
  have skipped := Scanner.run_skipSpaces (recast.levels levels) pending begun parentheses
    (recast.source source)
  rw [recast.skipSpaces_source unended] at skipped
  exact skipped

theorem runsTo_pieces (loaded : Loaded lines) (closes : recast.Closes lines)
    (among : source.Among lines) (fits : (Mode.pieces parentheses).Fits lines source)
    (read : readPiece parentheses source = .ok (after, mode, lexemes)) :
    Scanner.RunsTo (recast.scanner ⟨source, levels, .pieces parentheses, pending, begun⟩)
      (lexemes.map recast.lexeme)
      (recast.scanner ⟨after, levels, mode, pending, begun || !lexemes.isEmpty⟩) := by
  have kept : recast.mode mode = mode := mode_of_readPiece read
  cases next : source.peekChar.1 with
  | none =>
      have ended := Source.eq_ended_of_readChar next
      simp only [readPiece, next] at read
      split at read
      · contradiction
      · obtain rfl : parentheses = 0 := by omega
        cases read
        rw [ended] at fits ⊢
        have nothing := later_eq_nil_of_ended closes fits
        apply Scanner.RunsTo.of_step (by simp [Recast.scanner, Recast.mode])
        have peeked : (Source.mk [] none source.number).peekChar.2 = ⟨[], none, source.number⟩ := rfl
        simp only [peeked, Recast.scanner, Recast.source_mk, Recast.mode, lines_nil nothing]
        rfl
  | some character =>
      have inside := among.inside_fill loaded next
      have unended : source.skipSpaces.current ≠ none := by
        rw [← Source.skipSpaces_fill]
        generalize source.fill = filled at inside
        obtain ⟨unbroken, others⟩ := inside
        simp
      by_cases space : character = ' '
      · subst space
        have spaceRead : readPiece parentheses source =
            .ok (source.readChar.2, .pieces parentheses, []) := by
          simp [readPiece, next]
        rw [spaceRead] at read
        cases read
        have skips : source.skipSpaces = source.readChar.2.skipSpaces := by
          rw [Source.skipSpaces_eq, if_pos next]
        apply Scanner.RunsTo.of_run
        rw [run_skipSpaces unended, skips, ← run_skipSpaces (by rwa [← skips])]
        simp
      · have filled : source.skipSpaces = source.fill := by
          rw [Source.skipSpaces_eq, if_neg (by simp [next, space])]
          rfl
        rw [← Scanner.readPiece_fill] at read
        have again := recast.readPiece_source inside read
        have meets := @run_skipSpaces recast source levels parentheses pending begun unended
        rw [filled] at meets
        refine (Scanner.RunsTo.of_run meets).trans (.of_step (by simp [Recast.scanner, Recast.mode]) ?_)
        have stepped := Scanner.step_pieces (recast.levels levels) pending begun again
        rw [List.isEmpty_map] at stepped
        simp only [Recast.scanner, kept]
        exact stepped

end Pieces

end Source.Recast

/-! ### Comments and filters -/

/-- Whether a token stands for a construct that takes in lines below it as they are. -/
def Token.takesLines : Token → Bool
  | .comment _ | .filter _ _ => true
  | _ => false

namespace Source.Recast

open Scanner (commentLine continuesComment readCommentLines readFilterLines)

variable (recast : Recast)

theorem lines_suffix {lines unread : List (Nat × Text)} (ending : unread <:+ lines) :
    recast.lines unread <:+ recast.lines lines := by
  obtain ⟨read, rfl⟩ := ending
  refine ⟨read.map recast.entry, ?_⟩
  simp [Recast.lines]

theorem continuesComment_reindent (width : Nat) (text : Text) :
    continuesComment (recast.width width) (Text.reindent recast.width text) =
      continuesComment width text := by
  simp only [continuesComment, Text.leadingSpaces_reindent, Text.drop_reindent,
    recast.increasing.lt_iff_lt, recast.increasing.injective.eq_iff]

theorem commentLine_reindent (width : Nat) (text : Text) :
    commentLine (recast.width width) (Text.reindent recast.width text) = commentLine width text := by
  simp only [commentLine, Text.leadingSpaces_reindent, Text.drop_reindent,
    recast.increasing.injective.eq_iff]

theorem not_continuesComment {entry : Nat × Text} {others : List (Nat × Text)} (width : Nat)
    (outset : recast.Outset) (following : recast.blanks ++ recast.later = entry :: others) :
    continuesComment width entry.2 = false := by
  cases spacing : recast.blanks with
  | nil =>
      rw [spacing] at following
      have sign := outset entry (by rw [← List.nil_append recast.later, following]; rfl)
      obtain ⟨number, text⟩ := entry
      cases text with
      | nil => contradiction
      | cons first rest =>
          obtain rfl : first = '%' := by simpa using sign
          simp [continuesComment, Text.leadingSpaces, Text.startsWith, Text.afterLead]
  | cons blank blanks =>
      rw [spacing] at following
      cases following
      obtain ⟨count, same⟩ := recast.spaced entry (by rw [spacing]; exact List.mem_cons_self)
      have nothing : (Text.spaces count).drop count = [] := by simp [Text.spaces]
      simp [continuesComment, same, Text.leadingSpaces_spaces, nothing]

/-- The same lines go on with a comment; the line after them may be one that follows. -/
theorem readCommentLines_lines {lines : List (Nat × Text)} (width number : Nat)
    (outset : recast.Outset) (loaded : Loaded lines) (whole : Loaded (recast.lines lines)) :
    ∃ resumed,
      readCommentLines (recast.width width) (recast.source ⟨lines, none, number⟩) =
        ((readCommentLines width ⟨lines, none, number⟩).1, resumed) ∧
      ∀ levels pending begun,
        (Scanner.mk resumed levels .lineStart pending begun).run =
          (Scanner.mk (recast.source (readCommentLines width ⟨lines, none, number⟩).2) levels
            .lineStart pending begun).run := by
  induction lines generalizing number with
  | nil =>
      have start : recast.lines [] = recast.blanks ++ recast.later := rfl
      simp only [Scanner.readCommentLines_nil, Recast.source_mk]
      rw [start] at whole ⊢
      cases following : recast.blanks ++ recast.later with
      | nil => exact ⟨_, Scanner.readCommentLines_nil _, fun levels pending begun => rfl⟩
      | cons entry others =>
          have stops := recast.not_continuesComment (recast.width width) outset following
          rw [following] at whole
          refine ⟨⟨entry :: others, none, entry.1⟩, ?_, ?_⟩
          · rw [Scanner.readCommentLines_cons _ whole, stops]
            rfl
          · intro levels pending begun
            exact Scanner.run_lineStart_number (List.cons_ne_nil _ _) _ _
  | cons entry others ih =>
      obtain ⟨next, text⟩ := entry
      rw [Recast.lines_cons] at whole
      rw [Scanner.readCommentLines_cons _ loaded, Recast.source_mk, Recast.lines_cons,
        Scanner.readCommentLines_cons _ whole, continuesComment_reindent, commentLine_reindent]
      split
      · obtain ⟨resumed, read, follows⟩ := ih next (loaded.suffix (List.suffix_cons _ _))
          (whole.suffix (List.suffix_cons _ _))
        rw [Recast.source_mk] at read
        exact ⟨resumed, by rw [read], follows⟩
      · exact ⟨_, rfl, fun levels pending begun => rfl⟩

theorem readFilterLines_blanks {blanks lines : List (Nat × Text)} (least : Nat)
    (bodyWidth : Option Nat) (count number : Nat) (loaded : Loaded (blanks ++ lines))
    (spaced : ∀ entry ∈ blanks, ∃ count, entry.2 = Text.spaces count) :
    ∃ last, readFilterLines least bodyWidth count ⟨blanks ++ lines, none, number⟩ =
      readFilterLines least bodyWidth (count + blanks.length) ⟨lines, none, last⟩ := by
  induction blanks generalizing count number with
  | nil => exact ⟨number, rfl⟩
  | cons entry others ih =>
      obtain ⟨next, text⟩ := entry
      obtain ⟨width, rfl⟩ := spaced (next, text) List.mem_cons_self
      have blank : (Text.spaces width).leadingSpaces = (Text.spaces width).length := by
        rw [Text.leadingSpaces_spaces, Text.spaces, List.length_replicate]
      obtain ⟨last, same⟩ := ih (count + 1) next (loaded.suffix (List.suffix_cons _ _))
        (fun entry member => spaced entry (List.mem_cons_of_mem _ member))
      refine ⟨last, ?_⟩
      rw [List.cons_append] at loaded ⊢
      rw [Scanner.readFilterLines_cons _ _ _ loaded, if_pos blank, same, List.length_cons]
      congr 1
      omega

/-- Two filter bodies with the same lines.  Blank lines that follow the second are counted with
the first and not passed over later. -/
structure SameBody (resumed given : Scanner.FilterBody) : Prop where
  lines : resumed.lines = given.lines
  follows : ∀ (levels : Levels) (pending : Bool),
    (Scanner.mk resumed.source levels .lineStart (pending || 0 < resumed.blanksAfter) true).run =
      (Scanner.mk (recast.source given.source) levels .lineStart
        (pending || 0 < given.blanksAfter) true).run

/-- A body that ends with the text is followed by blank lines and an element in the first
column. -/
theorem readFilterLines_following {least : Nat} {bodyWidth : Option Nat} (count number : Nat)
    (outset : recast.Outset) (deeper : 0 < bodyWidth.getD least)
    (whole : Loaded (recast.lines [])) :
    recast.SameBody (readFilterLines least bodyWidth count (recast.source ⟨[], none, number⟩))
      (readFilterLines least bodyWidth count ⟨[], none, number⟩) := by
  have start : recast.lines [] = recast.blanks ++ recast.later := rfl
  simp only [Scanner.readFilterLines_nil, Recast.source_mk]
  rw [start] at whole ⊢
  cases coming : recast.later with
  | nil =>
      rw [recast.ended coming, List.append_nil, Scanner.readFilterLines_nil]
      refine ⟨rfl, fun levels pending => ?_⟩
      simp only [Recast.source_mk, recast.lines_nil coming]
  | cons entry others =>
      obtain ⟨next, text⟩ := entry
      have sign := outset (next, text) (by rw [coming]; rfl)
      obtain ⟨last, counted⟩ :=
        readFilterLines_blanks least bodyWidth count (number + recast.shift) whole recast.spaced
      rw [coming] at whole counted
      have stops : text.leadingSpaces = 0 ∧ text.length ≠ 0 := by
        cases text with
        | nil => contradiction
        | cons first rest =>
            obtain rfl : first = '%' := by simpa using sign
            simp [Text.leadingSpaces]
      rw [Scanner.readFilterLines_cons _ _ _ (whole.suffix (List.suffix_append _ _)), stops.1,
        if_neg (Ne.symm stops.2), if_pos deeper] at counted
      rw [counted]
      refine ⟨rfl, fun levels pending => ?_⟩
      obtain ⟨passed, passes⟩ := @Scanner.runsTo_blanks ((next, text) :: others) levels
        (pending || 0 < count) true recast.blanks recast.spaced (number + recast.shift)
      have remembered : (pending || decide (0 < count + recast.blanks.length)) =
          (pending || decide (0 < count) || (!recast.blanks.isEmpty && true)) := by
        cases recast.blanks with
        | nil => simp
        | cons blank blanks =>
            have counts : 0 < count + (blank :: blanks).length := Nat.succ_pos _
            rw [decide_eq_true counts, Bool.or_true, List.isEmpty_cons, Bool.not_false,
              Bool.and_true, Bool.or_true]
      rw [Scanner.RunsTo, List.nil_append] at passes
      simp only [remembered, Recast.source_mk, start, coming, passes]
      exact Scanner.run_lineStart_number (List.cons_ne_nil _ _) _ _

theorem readFilterLines_lines {lines : List (Nat × Text)} {least : Nat} {bodyWidth : Option Nat}
    (count number : Nat) (outset : recast.Outset) (same : recast.width = id)
    (deeper : 0 < bodyWidth.getD least) (loaded : Loaded lines) (whole : Loaded (recast.lines lines)) :
    recast.SameBody (readFilterLines least bodyWidth count (recast.source ⟨lines, none, number⟩))
      (readFilterLines least bodyWidth count ⟨lines, none, number⟩) := by
  induction lines generalizing count number bodyWidth with
  | nil => exact recast.readFilterLines_following count number outset deeper whole
  | cons entry others ih =>
      obtain ⟨next, text⟩ := entry
      have kept : Text.reindent recast.width text = text := by rw [same, Text.reindent_id]
      rw [Recast.lines_cons, kept] at whole
      have loadedOthers := loaded.suffix (List.suffix_cons _ _)
      have wholeOthers := whole.suffix (List.suffix_cons _ _)
      rw [Scanner.readFilterLines_cons _ _ _ loaded, Recast.source_mk, Recast.lines_cons, kept,
        Scanner.readFilterLines_cons _ _ _ whole]
      by_cases blank : text.leadingSpaces = text.length
      · rw [if_pos blank, if_pos blank]
        exact ih (count + 1) next deeper loadedOthers wholeOthers
      · rw [if_neg blank, if_neg blank]
        by_cases short : text.leadingSpaces < bodyWidth.getD least
        · rw [if_pos short, if_pos short]
          refine ⟨rfl, fun levels pending => ?_⟩
          simp only [Recast.source_mk, Recast.lines_cons, kept]
        · rw [if_neg short, if_neg short]
          have wider : 0 < (some (bodyWidth.getD text.leadingSpaces)).getD least := by
            cases bodyWidth with
            | none => exact Nat.lt_of_lt_of_le deeper (Nat.le_of_not_lt short)
            | some width => exact deeper
          obtain ⟨body, follows⟩ := ih 0 next wider loadedOthers wholeOthers
          exact ⟨congrArg (fun later => List.replicate count [] ++ _ :: later) body, follows⟩

end Source.Recast

/-! ### Constructs -/

theorem Markup.Directive.parse_of_parse {line : Nat} {text : Text} {directive : Markup.Directive}
    (other : Nat) (parsed : parse line text = .ok directive) : parse other text = .ok directive := by
  unfold parse at parsed ⊢
  split at parsed
  · exact parsed
  · contradiction

theorem Scanner.payloadOf_of_payloadOf {line : Nat} {text : Text} {payload : Payload} (other : Nat)
    (read : payloadOf line text = .ok payload) : payloadOf other text = .ok payload := by
  unfold payloadOf at read ⊢
  split at read
  · exact read
  · split at read
    · contradiction
    · rename_i given
      rw [if_neg given]
      exact read

namespace Source.Recast

open Scanner (openingOf readConstruct startElement)

variable (recast : Recast) {source after : Source} {mode : Mode} {lexemes : List Lexeme}

theorem startElement_source {tag : Text} {line : Nat} (inside : Inside source)
    (read : startElement tag line source = .ok (after, mode, lexemes)) :
    startElement tag (line + recast.shift) (recast.source source) =
      .ok (recast.source after, recast.mode mode, lexemes.map recast.lexeme) := by
  unfold startElement at read
  split at read
  · contradiction
  · rename_i attributes last shortcutsRead
    cases read
    have again := (Source.readsOn_readShortcuts inside shortcutsRead).replays recast line
    simp only [startElement, again, map_onLine]
    rfl

theorem readElement_source {line number : Nat} {unread : List (Nat × Text)} {rest : Text}
    (inside : Inside ⟨unread, some ('%' :: rest), number⟩)
    (read : Scanner.readElement line ⟨unread, some ('%' :: rest), number⟩ =
      .ok (after, mode, lexemes)) :
    Scanner.readElement (line + recast.shift) (recast.source ⟨unread, some ('%' :: rest), number⟩) =
      .ok (recast.source after, recast.mode mode, lexemes.map recast.lexeme) := by
  simp only [Scanner.readElement, Source.readChar_within] at read
  split at read
  · contradiction
  · rename_i tag named nameRead
    have tail := Onward.tail.inside inside
    obtain ⟨onward, replays⟩ := Source.readsOn_readName tail nameRead
    have again := recast.startElement_source (onward.inside tail) read
    have name := replays recast line
    simp only [Recast.source_mk] at name ⊢
    simp only [Scanner.readElement, Source.readChar_within, name, again]

/-- After a comment the scanner may have looked at a line that follows, which must not go on with
the comment. -/
theorem readComment_source {width line number : Nat} {unread : List (Nat × Text)} {body : Text}
    (outset : recast.Outset) (loaded : Loaded unread) (whole : Loaded (recast.lines unread))
    (read : Scanner.readComment width line ⟨unread, some body, number⟩ = (after, mode, lexemes)) :
    ∃ resumed,
      Scanner.readComment (recast.width width) (line + recast.shift)
          (recast.source ⟨unread, some body, number⟩) =
        (resumed, recast.mode mode, lexemes.map recast.lexeme) ∧
      ∀ levels pending begun,
        (Scanner.mk resumed levels (recast.mode mode) pending begun).run =
          (Scanner.mk (recast.source after) levels (recast.mode mode) pending begun).run := by
  cases read
  obtain ⟨resumed, comment, follows⟩ :=
    recast.readCommentLines_lines width number outset loaded whole
  refine ⟨resumed, ?_, follows⟩
  simp only [Recast.source_mk] at comment
  simp only [Scanner.readComment, Recast.source_mk, Source.readLine_within, comment, map_onLine]
  rfl

section OneLine

variable {width line number : Nat} {unread : List (Nat × Text)} {body : Text}

theorem readDirective_source
    (read : Scanner.readDirective line ⟨unread, some body, number⟩ = .ok (after, mode, lexemes)) :
    Scanner.readDirective (line + recast.shift) (recast.source ⟨unread, some body, number⟩) =
      .ok (recast.source after, recast.mode mode, lexemes.map recast.lexeme) := by
  unfold Scanner.readDirective at read
  split at read
  · contradiction
  · rename_i directive parsed
    cases read
    have again := Markup.Directive.parse_of_parse (line + recast.shift) parsed
    simp only [Source.readLine_within] at again
    simp only [Scanner.readDirective, Recast.source_mk, Source.readLine_within, again, map_onLine]
    rfl

theorem readCode_source
    (read : Scanner.readCode line ⟨unread, some body, number⟩ = .ok (after, mode, lexemes)) :
    Scanner.readCode (line + recast.shift) (recast.source ⟨unread, some body, number⟩) =
      .ok (recast.source after, recast.mode mode, lexemes.map recast.lexeme) := by
  unfold Scanner.readCode at read
  split at read
  · contradiction
  · rename_i payload given
    cases read
    have again := Scanner.payloadOf_of_payloadOf (line + recast.shift) given
    simp only [Source.readLine_within] at again
    simp only [Scanner.readCode, Recast.source_mk, Source.readLine_within, again, map_onLine]
    rfl

theorem readFilterHeading_source
    (read : Scanner.readFilterHeading width line ⟨unread, some body, number⟩ =
      .ok (after, mode, lexemes)) :
    Scanner.readFilterHeading (recast.width width) (line + recast.shift)
        (recast.source ⟨unread, some body, number⟩) =
      .ok (recast.source after, recast.mode mode, lexemes.map recast.lexeme) := by
  simp only [Scanner.readFilterHeading] at read
  split at read
  · contradiction
  · rename_i named
    cases read
    exact if_neg named

theorem readRawCode_source
    (read : Scanner.readRawCode line ⟨unread, some body, number⟩ = .ok (after, mode, lexemes)) :
    Scanner.readRawCode (line + recast.shift) (recast.source ⟨unread, some body, number⟩) =
      .ok (recast.source after, recast.mode mode, lexemes.map recast.lexeme) := by
  simp only [Scanner.readRawCode] at read
  split at read
  · contradiction
  · rename_i given
    cases read
    rw [map_onLine]
    exact if_neg given

theorem readContent_source {signs : Nat}
    (read : Scanner.readContent signs line ⟨unread, some body, number⟩ = (after, mode, lexemes)) :
    Scanner.readContent signs (line + recast.shift) (recast.source ⟨unread, some body, number⟩) =
      (recast.source after, recast.mode mode, lexemes.map recast.lexeme) := by
  cases read
  simp only [Scanner.readContent, map_onLine]
  rfl

end OneLine

theorem readConstruct_source {width line number : Nat} {unread : List (Nat × Text)} {body : Text}
    (loaded : Loaded unread) (whole : Loaded (recast.lines unread))
    (inside : Inside ⟨unread, some body, number⟩)
    (apart : recast.Outset ∨ ∀ lexeme ∈ lexemes, lexeme.token.takesLines = false)
    (read : readConstruct (openingOf body) width line ⟨unread, some body, number⟩ =
      .ok (after, mode, lexemes)) :
    ∃ resumed,
      readConstruct (openingOf body) (recast.width width) (line + recast.shift)
          (recast.source ⟨unread, some body, number⟩) =
        .ok (resumed, recast.mode mode, lexemes.map recast.lexeme) ∧
      ∀ levels pending begun,
        (Scanner.mk resumed levels (recast.mode mode) pending begun).run =
          (Scanner.mk (recast.source after) levels (recast.mode mode) pending begun).run := by
  by_cases comment : openingOf body = .comment
  · rw [comment] at read ⊢
    have outset : recast.Outset := by
      rcases apart with outset | untaken
      · exact outset
      · cases read
        have taken := untaken _ List.mem_cons_self
        contradiction
    obtain ⟨resumed, again, follows⟩ :=
      recast.readComment_source outset loaded whole (Except.ok.inj read)
    exact ⟨resumed, congrArg Except.ok again, follows⟩
  · refine ⟨recast.source after, ?_, fun levels pending begun => rfl⟩
    cases opens : openingOf body <;> rw [opens] at read
    case element =>
      obtain ⟨rest, rfl⟩ := Scanner.head?_of_openingOf_element opens
      exact recast.readElement_source inside read
    case shortcut => exact recast.startElement_source inside read
    case comment => exact absurd opens comment
    case directive => exact recast.readDirective_source read
    case code => exact recast.readCode_source read
    case filter => exact recast.readFilterHeading_source read
    case rawCode => exact recast.readRawCode_source read
    case verbatim => exact congrArg Except.ok (recast.readContent_source (Except.ok.inj read))
    case text => exact congrArg Except.ok (recast.readContent_source (Except.ok.inj read))

end Source.Recast

end Stencil
