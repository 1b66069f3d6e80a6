import Mathlib.Tactic.SplitIfs
import Stencil.Proofs.LineReading
import Stencil.Proofs.Loading

/-! Where the unread lines of a scanner come from.

A scanner looks one line ahead after a comment and after the body of a filter, and puts
that line back; attribute lists and quoted values go over line ends character by
character.  None of this loses a line or changes one: at the start of every line the
unread lines are the last lines of the source, with their numbers. -/

namespace Stencil

/-! ### Putting a line back -/

namespace Source

/-- The line that was just read gets its number back. -/
theorem unreadLine_next {number : Nat} {line : Text} {others : List (Nat × Text)}
    (loaded : Loaded ((number, line) :: others)) :
    (Source.mk others none number).unreadLine line = ⟨(number, line) :: others, none, number⟩ := by
  cases others with
  | nil => rfl
  | cons following others =>
      have positive := loaded.positive (number, line) List.mem_cons_self
      have numbered : following.1 = number + 1 := (List.isChain_cons_cons.mp loaded.numbered).1
      have restored : max 1 (following.1 - 1) = number := by
        simp only at positive
        omega
      simp [unreadLine, park, restored]

end Source

namespace Scanner

open Source (Loaded)

variable {number next : Nat} {text : Text} {others : List (Nat × Text)}

theorem readCommentLines_nil (width : Nat) :
    readCommentLines width ⟨[], none, number⟩ = ([], ⟨[], none, number⟩) := by
  rw [readCommentLines]
  rfl

theorem readCommentLines_cons (width : Nat) (loaded : Loaded ((next, text) :: others)) :
    readCommentLines width ⟨(next, text) :: others, none, number⟩ =
      if continuesComment width text then
        (commentLine width text :: (readCommentLines width ⟨others, none, next⟩).1,
          (readCommentLines width ⟨others, none, next⟩).2)
      else ([], ⟨(next, text) :: others, none, next⟩) := by
  rw [readCommentLines]
  simp only [Source.readLine, Source.unreadLine_next loaded]

theorem readFilterLines_nil (least : Nat) (bodyWidth : Option Nat) (blanks : Nat) :
    readFilterLines least bodyWidth blanks ⟨[], none, number⟩ = ⟨[], blanks, ⟨[], none, number⟩⟩ := by
  rw [readFilterLines]
  rfl

theorem readFilterLines_cons (least : Nat) (bodyWidth : Option Nat) (blanks : Nat)
    (loaded : Loaded ((next, text) :: others)) :
    readFilterLines least bodyWidth blanks ⟨(next, text) :: others, none, number⟩ =
      if text.leadingSpaces = text.length then
        readFilterLines least bodyWidth (blanks + 1) ⟨others, none, next⟩
      else if text.leadingSpaces < bodyWidth.getD least then
        ⟨[], blanks, ⟨(next, text) :: others, none, next⟩⟩
      else
        let width := bodyWidth.getD text.leadingSpaces
        let later := readFilterLines least (some width) 0 ⟨others, none, next⟩
        { later with lines := List.replicate blanks [] ++ text.drop width :: later.lines } := by
  rw [readFilterLines]
  simp only [Source.readLine, Source.unreadLine_next loaded]

/-- A comment is read up to the first line that does not go on with it. -/
theorem readCommentLines_left {lines : List (Nat × Text)} (width : Nat) (loaded : Loaded lines) :
    ∃ last, (readCommentLines width ⟨lines, none, number⟩).2 =
      ⟨lines.dropWhile fun entry => continuesComment width entry.2, none, last⟩ := by
  induction lines generalizing number with
  | nil => exact ⟨number, by rw [readCommentLines_nil, List.dropWhile_nil]⟩
  | cons entry others ih =>
      obtain ⟨next, text⟩ := entry
      rw [readCommentLines_cons width loaded]
      by_cases continues : continuesComment width text = true
      · obtain ⟨last, same⟩ := @ih next (loaded.suffix (List.suffix_cons _ _))
        rw [if_pos continues, List.dropWhile_cons, if_pos continues]
        exact ⟨last, same⟩
      · rw [if_neg continues, List.dropWhile_cons, if_neg continues]
        exact ⟨next, rfl⟩

theorem readCommentLines_source {lines : List (Nat × Text)} (width : Nat) (loaded : Loaded lines) :
    ∃ left last, (readCommentLines width ⟨lines, none, number⟩).2 = ⟨left, none, last⟩ ∧
      left <:+ lines := by
  obtain ⟨last, same⟩ := @readCommentLines_left number lines width loaded
  exact ⟨_, last, same, List.dropWhile_suffix _⟩

def continuesFilter (width : Nat) (line : Text) : Bool :=
  line.leadingSpaces = line.length || width ≤ line.leadingSpaces

/-- The first line that is more than spaces fixes the indentation of a body, if it is indented by
`least`. -/
def filterWidth (least : Nat) (lines : List (Nat × Text)) : Nat :=
  match lines.find? fun entry => entry.2.leadingSpaces ≠ entry.2.length with
  | some entry => max least entry.2.leadingSpaces
  | none => least

theorem filterWidth_of_spaces (least : Nat) (blank : text.leadingSpaces = text.length) :
    filterWidth least ((next, text) :: others) = filterWidth least others := by
  rw [filterWidth, List.find?_cons_of_neg (by simp [blank])]
  rfl

theorem filterWidth_of_visible (least : Nat) (visible : text.leadingSpaces ≠ text.length) :
    filterWidth least ((next, text) :: others) = max least text.leadingSpaces := by
  rw [filterWidth, List.find?_cons_of_pos (by simp [visible])]

/-- The body of a filter is read up to the first line that is more than spaces and is indented
less than the first such line, or less than `least`. -/
theorem readFilterLines_left {lines : List (Nat × Text)} (least : Nat) (bodyWidth : Option Nat)
    (blanks : Nat) (loaded : Loaded lines) :
    ∃ last, (readFilterLines least bodyWidth blanks ⟨lines, none, number⟩).source =
      ⟨lines.dropWhile fun entry =>
          continuesFilter (bodyWidth.getD (filterWidth least lines)) entry.2, none, last⟩ := by
  induction lines generalizing number bodyWidth blanks with
  | nil => exact ⟨number, by rw [readFilterLines_nil, List.dropWhile_nil]⟩
  | cons entry others ih =>
      obtain ⟨next, text⟩ := entry
      have ending : others <:+ (next, text) :: others := List.suffix_cons _ _
      rw [readFilterLines_cons least bodyWidth blanks loaded]
      by_cases blank : text.leadingSpaces = text.length
      · obtain ⟨last, same⟩ := @ih next bodyWidth (blanks + 1) (loaded.suffix ending)
        rw [if_pos blank, filterWidth_of_spaces least blank,
          List.dropWhile_cons_of_pos (by simp [continuesFilter, blank])]
        exact ⟨last, same⟩
      · rw [if_neg blank, filterWidth_of_visible least blank]
        by_cases short : text.leadingSpaces < bodyWidth.getD least
        · have ends : ¬ continuesFilter (bodyWidth.getD (max least text.leadingSpaces)) text := by
            have deeper : bodyWidth.getD least ≤ bodyWidth.getD (max least text.leadingSpaces) := by
              cases bodyWidth with
              | none => exact Nat.le_max_left _ _
              | some width => exact Nat.le_refl _
            simp only [continuesFilter, blank, decide_false, Bool.false_or, decide_eq_true_eq]
            omega
          rw [if_pos short, List.dropWhile_cons, if_neg ends]
          exact ⟨next, rfl⟩
        · have fixed : bodyWidth.getD (max least text.leadingSpaces) =
              bodyWidth.getD text.leadingSpaces := by
            cases bodyWidth with
            | none => exact Nat.max_eq_right (Nat.le_of_not_lt short)
            | some width => rfl
          have continues : continuesFilter (bodyWidth.getD text.leadingSpaces) text := by
            have deep : bodyWidth.getD text.leadingSpaces ≤ text.leadingSpaces := by
              cases bodyWidth with
              | none => exact Nat.le_refl _
              | some width => exact Nat.le_of_not_lt short
            simp [continuesFilter, deep]
          obtain ⟨last, same⟩ :=
            @ih next (some (bodyWidth.getD text.leadingSpaces)) 0 (loaded.suffix ending)
          rw [if_neg short, fixed, List.dropWhile_cons, if_pos continues]
          exact ⟨last, same⟩

theorem readFilterLines_source {lines : List (Nat × Text)} (least : Nat) (bodyWidth : Option Nat)
    (blanks : Nat) (loaded : Loaded lines) :
    ∃ left last, (readFilterLines least bodyWidth blanks ⟨lines, none, number⟩).source =
        ⟨left, none, last⟩ ∧ left <:+ lines := by
  obtain ⟨last, same⟩ := @readFilterLines_left number lines least bodyWidth blanks loaded
  exact ⟨_, last, same, List.dropWhile_suffix _⟩

end Scanner

/-! ### Among the lines of a source -/

namespace Source

/-- The unread lines are the last of the given lines, and what is left of the current line
is the end of the line before them. -/
inductive Among (lines : List (Nat × Text)) : Source → Prop
  | between {unread : List (Nat × Text)} {number : Nat} (ending : unread <:+ lines) :
      Among lines ⟨unread, none, number⟩
  | inside {unread : List (Nat × Text)} {number : Nat} {read rest : Text}
      (ending : (number, read ++ rest) :: unread <:+ lines) : Among lines ⟨unread, some rest, number⟩

namespace Among

variable {lines : List (Nat × Text)} {source after : Source}

theorem ending (among : Among lines source) : source.lines <:+ lines := by
  cases among with
  | between ending => exact ending
  | inside ending => exact (List.suffix_cons _ _).trans ending

theorem onward (among : Among lines source) (onward : Onward source after) :
    Among lines after := by
  induction onward with
  | within suffix =>
      cases among with
      | inside ending =>
          obtain ⟨passed, rfl⟩ := suffix
          rw [← List.append_assoc] at ending
          exact .inside ending
  | @across others rest line number next after onward ih =>
      cases among with
      | inside ending =>
          apply ih
          have following := (List.suffix_cons _ _).trans ending
          rw [← Text.spaces_append_drop line] at following
          exact .inside following

theorem fill (among : Among lines source) : Among lines source.fill := by
  cases among with
  | @between unread number ending =>
      cases unread with
      | nil => exact .between ending
      | cons entry others => exact @inside lines others entry.1 [] entry.2 ending
  | inside ending => exact .inside ending

theorem readLine (among : Among lines source) :
    Among lines source.readLine.2 ∧ source.readLine.2.current = none := by
  cases among with
  | @between unread number ending =>
      cases unread with
      | nil => exact ⟨.between ending, rfl⟩
      | cons entry others => exact ⟨.between ((List.suffix_cons _ _).trans ending), rfl⟩
  | inside ending => exact ⟨.between ((List.suffix_cons _ _).trans ending), rfl⟩

theorem isInside {unread : List (Nat × Text)} {rest : Text} {number : Nat}
    (among : Among lines ⟨unread, some rest, number⟩) (loaded : Loaded lines) :
    Inside ⟨unread, some rest, number⟩ := by
  cases among with
  | inside ending =>
      have left := loaded.suffix ending
      constructor
      · intro member
        exact left.unbroken _ List.mem_cons_self (List.mem_append_right _ member)
      · intro entry member
        exact left.unbroken entry (List.mem_cons_of_mem _ member)

theorem inside_fill {character : Char} (among : Among lines source) (loaded : Loaded lines)
    (next : source.readChar.1 = some character) : Inside source.fill := by
  have filled := among.fill
  obtain ⟨unread, current, number⟩ := source
  match current, unread with
  | none, [] => contradiction
  | none, entry :: others => exact filled.isInside loaded
  | some rest, others => exact filled.isInside loaded

end Among

end Source

/-! ### At every step -/

/-- What each mode says about the current line.  An attribute list that is at the end of a
line outside parentheses was continued by a backslash. -/
def Mode.Fits (lines : List (Nat × Text)) (source : Source) : Mode → Prop
  | .lineStart | .filterBody _ _ _ | .done => source.current = none
  | .indentation => source.current = none ∧ source.lines ≠ []
  | .pieces parentheses =>
      source.current = none → parentheses ≠ 0 ∨
        ∃ number line, (number, line ++ ['\\']) :: source.lines <:+ lines
  | .data => source.current ≠ none

theorem Mode.fits_pieces {lines : List (Nat × Text)} {source : Source} {parentheses : Nat}
    (inside : source.Inside) : (Mode.pieces parentheses).Fits lines source := by
  obtain ⟨unbroken, others⟩ := inside
  intro between
  contradiction

namespace Scanner

open Source (Among Inside Loaded Onward)

variable {lines : List (Nat × Text)}

structure Standing (lines : List (Nat × Text)) (scanner : Scanner) : Prop where
  among : scanner.source.Among lines
  fits : scanner.mode.Fits lines scanner.source

theorem standing_ofSource {source : Source} (started : source.current = none) :
    Standing source.lines (ofSource source) := by
  obtain ⟨unread, current, number⟩ := source
  cases started
  exact ⟨.between List.suffix_rfl, rfl⟩

theorem head?_of_openingOf_element {text : Text} (opens : openingOf text = .element) :
    ∃ rest, text = '%' :: rest := by
  cases text with
  | nil => contradiction
  | cons first rest =>
      by_cases sign : first = '%'
      · exact ⟨rest, by rw [sign]⟩
      · rw [openingOf, if_neg sign] at opens
        split_ifs at opens

section Constructs

variable {source after : Source} {mode : Mode} {lexemes : List Lexeme}

theorem among_startElement {tag : Text} {line : Nat} (among : source.Among lines)
    (inside : Inside source) (read : startElement tag line source = .ok (after, mode, lexemes)) :
    after.Among lines ∧ mode.Fits lines after := by
  unfold startElement at read
  split at read
  · contradiction
  · rename_i attributes last shortcutsRead
    cases read
    have onward := (Source.readsOn_readShortcuts inside shortcutsRead).onward
    exact ⟨among.onward onward, Mode.fits_pieces (onward.inside inside)⟩

theorem among_readConstruct {width line : Nat} {unread : List (Nat × Text)} {body : Text}
    {number : Nat} (loaded : Loaded lines) (among : Among lines ⟨unread, some body, number⟩)
    (read : readConstruct (openingOf body) width line ⟨unread, some body, number⟩ =
      .ok (after, mode, lexemes)) :
    after.Among lines ∧ mode.Fits lines after := by
  have inside := among.isInside loaded
  cases opens : openingOf body <;> rw [opens] at read
  case element =>
    obtain ⟨rest, rfl⟩ := head?_of_openingOf_element opens
    simp only [readConstruct, readElement, Source.readChar_within] at read
    split at read
    · contradiction
    · rename_i tag named nameRead
      have tail := Onward.tail.inside inside
      have onward := (Source.readsOn_readName tail nameRead).onward
      exact among_startElement ((among.onward .tail).onward onward) (onward.inside tail) read
  case shortcut => exact among_startElement among inside read
  case comment =>
    cases read
    obtain ⟨left, last, same, ending⟩ :=
      @readCommentLines_source number unread width (loaded.suffix among.ending)
    simp only [Source.readLine_within, same]
    exact ⟨.between (ending.trans among.ending), rfl⟩
  case directive =>
    simp only [readConstruct, readDirective] at read
    split at read
    · contradiction
    · cases read
      exact among.readLine
  case code =>
    simp only [readConstruct, readCode] at read
    split at read
    · contradiction
    · cases read
      exact among.readLine
  case filter =>
    simp only [readConstruct, readFilterHeading] at read
    split at read
    · contradiction
    · cases read
      exact among.readLine
  case rawCode =>
    simp only [readConstruct, readRawCode] at read
    split at read
    · contradiction
    · cases read
      exact among.readLine
  case verbatim =>
    cases read
    exact among.readLine
  case text =>
    cases read
    exact among.readLine

theorem among_readChar {character : Char} (loaded : Loaded lines) (among : source.Among lines)
    (next : source.peekChar.1 = some character) (visible : character ≠ '\n') :
    source.readChar.2.Among lines ∧ Inside source.readChar.2 := by
  have inside := among.inside_fill loaded next
  have filled := among.fill
  rw [← Source.readChar_fill]
  obtain ⟨unread, rest, number, same⟩ :=
    inside.eq_cons (by rw [Source.readChar_fill]; exact next) visible
  rw [same] at filled inside ⊢
  exact ⟨filled.onward .tail, Onward.tail.inside inside⟩

theorem among_readNewline (loaded : Loaded lines) (among : source.Among lines)
    (next : source.peekChar.1 = some '\n') :
    source.readChar.2.Among lines ∧ source.readChar.2.current = none := by
  have inside := among.inside_fill loaded next
  have filled := among.fill
  rw [← Source.readChar_fill]
  obtain ⟨unread, number, same⟩ := inside.eq_lineEnd (by rw [Source.readChar_fill]; exact next)
  rw [same] at filled ⊢
  exact ⟨.between filled.ending, rfl⟩

theorem among_readContinuation (loaded : Loaded lines) (among : source.Among lines)
    (next : source.peekChar.1 = some '\\') (ends : source.readChar.2.readChar.1 = some '\n') :
    source.readChar.2.readChar.2.Among lines ∧
      ∃ number line, (number, line ++ ['\\']) :: source.readChar.2.readChar.2.lines <:+ lines := by
  have inside := among.inside_fill loaded next
  have filled := among.fill
  rw [← Source.readChar_fill source] at ends ⊢
  obtain ⟨unread, rest, number, same⟩ :=
    inside.eq_cons (by rw [Source.readChar_fill]; exact next) (by decide)
  rw [same] at filled inside ends ⊢
  obtain ⟨_, _, ended⟩ := (Onward.tail.inside inside).eq_lineEnd ends
  cases ended
  cases filled with
  | @inside _ _ read _ ending =>
      exact ⟨.between ((List.suffix_cons _ _).trans ending), number, read, ending⟩

theorem among_pieceRead {parentheses : Nat} (loaded : Loaded lines) (among : source.Among lines)
    (read : PieceRead source parentheses after mode lexemes) :
    after.Among lines ∧ mode.Fits lines after := by
  cases read with
  | ended next =>
      rw [Source.eq_ended_of_readChar next] at among ⊢
      exact ⟨among, rfl⟩
  | lineEnd next => exact among_readNewline loaded among next
  | newline next opened =>
      exact ⟨(among_readNewline loaded among next).1, fun _ => .inl opened⟩
  | space next =>
      obtain ⟨passed, inside⟩ := among_readChar loaded among next (by decide)
      exact ⟨passed, Mode.fits_pieces inside⟩
  | opening next =>
      obtain ⟨passed, inside⟩ := among_readChar loaded among next (by decide)
      exact ⟨passed, Mode.fits_pieces inside⟩
  | closing next =>
      obtain ⟨passed, inside⟩ := among_readChar loaded among next (by decide)
      exact ⟨passed, Mode.fits_pieces inside⟩
  | continued next ends =>
      obtain ⟨passed, line⟩ := among_readContinuation loaded among next ends
      exact ⟨passed, fun _ => .inr line⟩
  | data next =>
      obtain ⟨passed, inside⟩ := among_readChar loaded among next (by decide)
      refine ⟨passed, ?_⟩
      generalize source.readChar.2 = after at inside
      obtain ⟨unbroken, others⟩ := inside
      exact Option.some_ne_none _
  | selfClose next => exact (among_readChar loaded among next (by decide)).1.readLine
  | attributed next start read =>
      rw [← readAttribute_fill] at read
      have inside := among.inside_fill loaded next
      have onward := (readsOn_readAttribute inside read).onward
      exact ⟨among.fill.onward onward, Mode.fits_pieces (onward.inside inside)⟩

end Constructs

theorem readConstruct_skip {number next : Nat} {text : Text} {others : List (Nat × Text)}
    (opening : Opening) (width line : Nat) :
    readConstruct opening width line
        ((Source.mk ((next, text) :: others) none number).skip text.leadingSpaces) =
      readConstruct opening width line
        ⟨others, some (text.drop text.leadingSpaces), next⟩ := by
  have filled : (Source.mk ((next, text) :: others) none number).fill =
      ⟨others, some (Text.spaces text.leadingSpaces ++ text.drop text.leadingSpaces), next⟩ := by
    rw [Text.spaces_append_drop]
    rfl
  rw [← readConstruct_fill, Source.fill_skip_spaces text.leadingSpaces filled]

theorem Standing.step {scanner next : Scanner} {lexemes : List Lexeme} (loaded : Loaded lines)
    (standing : Standing lines scanner) (stepped : scanner.step = .ok (next, lexemes)) :
    Standing lines next := by
  obtain ⟨acted, acts, rfl⟩ := step_cases stepped
  obtain ⟨among, fits⟩ := standing
  suffices stands : Standing lines acted from ⟨stands.among, stands.fits⟩
  cases acts with
  | ended reading next =>
      rw [reading] at fits
      exact ⟨among, fits⟩
  | blank reading next blank =>
      obtain ⟨passed, between⟩ := among.readLine
      refine ⟨passed, ?_⟩
      simp only [reading]
      exact between
  | line reading next visible =>
      rw [reading] at fits
      refine ⟨among, fits, ?_⟩
      intro ended
      obtain ⟨⟨unread, current, number⟩, levels, mode, pending, begun⟩ := scanner
      cases fits
      cases ended
      contradiction
  | construct reading found indent entered read =>
      rw [reading] at fits
      obtain ⟨⟨unread, current, number⟩, levels, mode, pending, begun⟩ := scanner
      obtain ⟨between, unended⟩ := fits
      cases between
      cases unread with
      | nil => contradiction
      | cons entry others =>
          obtain ⟨following, text⟩ := entry
          cases found
          cases indent
          simp only [Source.peekLine, Source.readLine, Option.getD_some] at read
          rw [readConstruct_skip] at read
          have passed : Among lines ⟨others, some (text.drop text.leadingSpaces), following⟩ := by
            apply among.fill.onward
            exact .within (List.drop_suffix _ _)
          obtain ⟨stays, placed⟩ := among_readConstruct loaded passed read
          exact ⟨stays, placed⟩
  | piece reading read =>
      obtain ⟨passed, placed⟩ := among_pieceRead loaded among read
      exact ⟨passed, placed⟩
  | data reading read =>
      obtain ⟨passed, between⟩ := among.readLine
      exact ⟨passed, between⟩
  | @filterBody name line width reading =>
      rw [reading] at fits
      obtain ⟨⟨unread, current, number⟩, levels, mode, pending, begun⟩ := scanner
      cases fits
      obtain ⟨left, last, same, ending⟩ :=
        @readFilterLines_source number unread (width + 1) none 0 (loaded.suffix among.ending)
      constructor
      · simp only [readFilterBody, same]
        exact .between (ending.trans among.ending)
      · simp only [readFilterBody, same]
        rfl
  | done reading => exact ⟨among, fits⟩

theorem Standing.reaches {scanner last : Scanner} {tokens : List Token} (loaded : Loaded lines)
    (standing : Standing lines scanner) (reaches : Reaches scanner tokens last) :
    Standing lines last := by
  induction reaches with
  | refl scanner => exact standing
  | step active stepped later ih => exact ih (standing.step loaded stepped)

/-- At the start of every line, and at the end, no line is partly read, and the unread lines
are the last lines of the source with their numbers. -/
theorem unread_lines_suffix {source : Source} {tokens : List Token} {scanner : Scanner}
    (loads : source.IsLoaded) (reaches : Reaches (ofSource source) tokens scanner)
    (waiting : scanner.mode = .lineStart ∨ scanner.mode = .done) :
    scanner.source.current = none ∧ scanner.source.lines <:+ source.lines := by
  obtain ⟨started, loaded⟩ := loads.loaded
  have standing := (standing_ofSource started).reaches loaded reaches
  refine ⟨?_, standing.among.ending⟩
  have fits := standing.fits
  rcases waiting with reading | reading
  · rw [reading] at fits
    exact fits
  · rw [reading] at fits
    exact fits

/-- After the body of a filter, the line that ended it stands unread under its own number. -/
theorem unread_lines_suffix_filter :
    ∃ (source : Source) (scanner : Scanner),
      Source.ofText ":f\n  g\n\n%h".toList = .ok source ∧
      Reaches (ofSource source) [.filter ['f'] [['g']]] scanner ∧
      scanner.mode = .lineStart ∧ scanner.source.lines = [(4, ['%', 'h'])] ∧
      scanner.source.current = none ∧ scanner.source.lines <:+ source.lines := by
  let unread : List (Nat × Text) := [(2, [' ', ' ', 'g']), (3, []), (4, ['%', 'h'])]
  let source : Source := ⟨(1, [':', 'f']) :: unread, none, 1⟩
  let heading : Scanner := { ofSource source with mode := .indentation }
  let body : Scanner :=
    { ofSource source with source := ⟨unread, none, 1⟩, mode := .filterBody ['f'] 1 0 }
  let last : Scanner := ⟨⟨[(4, ['%', 'h'])], none, 4⟩, Levels.ofBase 0, .lineStart, true, true⟩
  have loads : Source.ofText ":f\n  g\n\n%h".toList = .ok source := by decide +kernel
  have starts : (ofSource source).step = .ok (heading, []) := by decide +kernel
  have heads : heading.step = .ok (body, []) := by decide +kernel
  have reads : body.step = .ok (last, [⟨.filter ['f'] [['g']], 1⟩]) := by decide +kernel
  have reaches : Reaches (ofSource source) [.filter ['f'] [['g']]] last :=
    .step (by decide) starts (.step (by decide) heads (.of_step (by decide) reads))
  exact ⟨source, last, loads, reaches, rfl, rfl,
    unread_lines_suffix (.inl ⟨_, loads⟩) reaches (.inl rfl)⟩

/-- After a comment the first unread line is the first that does not go on with it. -/
theorem unread_lines_after_comment {source : Source} {tokens : List Token} {scanner next : Scanner}
    {lexemes : List Lexeme} {number : Nat} {text : Text} {others : List (Nat × Text)}
    (loads : source.IsLoaded) (reaches : Reaches (ofSource source) tokens scanner)
    (reading : scanner.mode = .indentation) (found : scanner.source.lines = (number, text) :: others)
    (opens : openingOf (text.drop text.leadingSpaces) = .comment)
    (stepped : scanner.step = .ok (next, lexemes)) :
    next.source.lines =
      others.dropWhile fun entry => continuesComment text.leadingSpaces entry.2 := by
  obtain ⟨started, loaded⟩ := loads.loaded
  obtain ⟨among, fits⟩ := (standing_ofSource started).reaches loaded reaches
  have unread := loaded.suffix among.ending
  obtain ⟨⟨lines, current, last⟩, levels, mode, pending, begun⟩ := scanner
  cases reading
  cases found
  cases fits.1
  obtain ⟨reached, left⟩ := @readCommentLines_left number others text.leadingSpaces
    (unread.suffix (List.suffix_cons _ _))
  obtain ⟨acted, acts, rfl⟩ := step_cases stepped
  cases acts with
  | construct reading found indent entered read =>
      cases found
      cases indent
      simp only [Source.peekLine, Source.readLine, Option.getD_some] at read
      rw [readConstruct_skip, opens] at read
      cases read
      simp only [Source.readLine_within, left]
  | _ reading => contradiction

/-- After a filter the first unread line is the first that its body does not take. -/
theorem unread_lines_after_filter {source : Source} {tokens : List Token} {scanner next : Scanner}
    {lexemes : List Lexeme} {name : Text} {line width : Nat}
    (loads : source.IsLoaded) (reaches : Reaches (ofSource source) tokens scanner)
    (reading : scanner.mode = .filterBody name line width)
    (stepped : scanner.step = .ok (next, lexemes)) :
    next.source.lines = scanner.source.lines.dropWhile fun entry =>
      continuesFilter (filterWidth (width + 1) scanner.source.lines) entry.2 := by
  obtain ⟨started, loaded⟩ := loads.loaded
  obtain ⟨among, fits⟩ := (standing_ofSource started).reaches loaded reaches
  have unread := loaded.suffix among.ending
  obtain ⟨⟨lines, current, last⟩, levels, mode, pending, begun⟩ := scanner
  cases reading
  cases fits
  obtain ⟨reached, left⟩ := @readFilterLines_left last lines (width + 1) none 0 unread
  cases stepped
  simp only [left, Option.getD_none]

end Scanner

end Stencil
