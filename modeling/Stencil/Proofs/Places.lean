import Mathlib.Data.List.Basic
import Stencil.Proofs.UnreadLines

/-! The places that reading comes to.

Whatever a scanner reads, the lines that are then unread were the last unread lines before,
with their numbers; and when nothing is left, the number that is kept is that of the last
line.  So the number of the line that is read next never goes down and never passes the
last one.  A fault is always reported for a place that reading has come to. -/

namespace Stencil

namespace Source

variable {source middle after : Source}

/-! ### Places -/

def numbers (source : Source) : List Nat :=
  source.park.lines.map Prod.fst

/-- The number of the last line that is not read to its end, or else of the line read last. -/
def lastNumber (source : Source) : Nat :=
  source.numbers.getLastD source.number

section Numbers

variable {lines : List (Nat × Text)} {number next : Nat} {line rest : Text}

@[simp] theorem numbers_between :
    (Source.mk lines none number).numbers = lines.map Prod.fst := rfl

@[simp] theorem lastNumber_between :
    (Source.mk lines none number).lastNumber = (lines.map Prod.fst).getLastD number := rfl

@[simp] theorem lastNumber_inside :
    (Source.mk lines (some rest) number).lastNumber = (lines.map Prod.fst).getLastD number :=
  List.getLastD_cons

theorem lineNumber_eq_headD (source : Source) :
    source.lineNumber = source.numbers.headD source.number := by
  obtain ⟨lines, current, number⟩ := source
  match current, lines with
  | none, [] => rfl
  | none, (next, line) :: others => rfl
  | some rest, lines => rfl

theorem lastNumber_unreadLine (line : Text) (source : Source) :
    (source.unreadLine line).lastNumber = source.lastNumber := by
  obtain ⟨lines, current, number⟩ := source
  match current, lines with
  | none, [] => rfl
  | none, entry :: others =>
      simp only [unreadLine, park, lastNumber_between, List.map_cons, List.getLastD_cons]
  | some rest, lines =>
      simp only [unreadLine, park, lastNumber_between, lastNumber_inside, List.map_cons,
        List.getLastD_cons]

end Numbers

theorem lineNumber_le_of_mem {number : Nat} (ascending : source.numbers.Pairwise (· ≤ ·))
    (member : number ∈ source.numbers) : source.lineNumber ≤ number := by
  rw [lineNumber_eq_headD]
  generalize source.numbers = numbers at ascending member
  cases numbers with
  | nil => contradiction
  | cons first others =>
      rcases List.mem_cons.mp member with rfl | later
      · exact Nat.le_refl _
      · exact (List.pairwise_cons.mp ascending).1 number later

theorem lineNumber_le_lastNumber (ascending : source.numbers.Pairwise (· ≤ ·)) :
    source.lineNumber ≤ source.lastNumber := by
  by_cases ended : source.numbers = []
  · rw [lineNumber_eq_headD, lastNumber, ended]
    exact Nat.le_refl _
  · apply lineNumber_le_of_mem ascending
    rw [lastNumber, List.getLastD_eq_getLast?, List.getLast?_eq_getLast_of_ne_nil ended]
    exact List.getLast_mem ended

/-- Reading leads from one source to another: the lines that are unread then were the last
unread lines before. -/
structure Advances (source after : Source) : Prop where
  numbers : after.numbers <:+ source.numbers
  last : after.lastNumber = source.lastNumber

namespace Advances

theorem refl (source : Source) : Advances source source :=
  ⟨List.suffix_rfl, rfl⟩

theorem trans (first : Advances source middle) (second : Advances middle after) :
    Advances source after :=
  ⟨second.numbers.trans first.numbers, second.last.trans first.last⟩

theorem fill (source : Source) : Advances source source.fill := by
  obtain ⟨lines, current, number⟩ := source
  match current, lines with
  | none, [] => exact .refl _
  | none, (next, line) :: others =>
      constructor
      · exact List.suffix_rfl
      · simp only [Source.fill, lastNumber_between, lastNumber_inside, List.map_cons,
          List.getLastD_cons]
  | some rest, lines => exact .refl _

theorem readChar (source : Source) : Advances source source.readChar.2 := by
  refine (fill source).trans ?_
  show Advances source.fill source.fill.tail
  obtain ⟨lines, current, number⟩ := source.fill
  match current with
  | none => exact .refl _
  | some [] =>
      constructor
      · exact List.suffix_cons _ _
      · simp only [tail, lastNumber_between, lastNumber_inside]
  | some (character :: rest) =>
      constructor
      · exact List.suffix_rfl
      · simp only [tail, lastNumber_inside]

theorem readLine (source : Source) : Advances source source.readLine.2 := by
  obtain ⟨lines, current, number⟩ := source
  match current, lines with
  | none, [] => exact .refl _
  | none, (next, line) :: others =>
      constructor
      · exact List.suffix_cons _ _
      · simp only [Source.readLine, lastNumber_between, List.map_cons, List.getLastD_cons]
  | some rest, lines =>
      constructor
      · exact List.suffix_cons _ _
      · simp only [Source.readLine, lastNumber_between, lastNumber_inside]

theorem onward (onward : Onward source after) : Advances source after := by
  induction onward with
  | within ending =>
      constructor
      · exact List.suffix_rfl
      · simp only [lastNumber_inside]
  | @across lines rest line number next after onward ih =>
      refine trans ⟨?_, ?_⟩ ih
      · exact List.suffix_cons _ _
      · simp only [lastNumber_inside, List.map_cons, List.getLastD_cons]

/-- Reading on, the number of the line goes up, and no further than to the last line. -/
theorem lineNumber_le (advances : Advances source after)
    (ascending : source.numbers.Pairwise (· ≤ ·)) :
    source.lineNumber ≤ after.lineNumber ∧ after.lineNumber ≤ source.lastNumber := by
  have later := ascending.sublist advances.numbers.sublist
  have bounded : after.lineNumber ≤ source.lastNumber :=
    advances.last ▸ lineNumber_le_lastNumber later
  refine ⟨?_, bounded⟩
  cases left : after.numbers with
  | nil =>
      have ended : after.lineNumber = after.lastNumber := by
        rw [lineNumber_eq_headD, lastNumber, left]
        rfl
      rw [ended, advances.last]
      exact lineNumber_le_lastNumber ascending
  | cons next others =>
      have reached : after.lineNumber = next := by
        rw [lineNumber_eq_headD, left]
        rfl
      have member : next ∈ source.numbers :=
        advances.numbers.subset (left ▸ List.mem_cons_self)
      rw [reached]
      exact lineNumber_le_of_mem ascending member

end Advances

/-! ### Faults of readers -/

/-- A fault is reported for a place that reading comes to from the source. -/
def Reports (source : Source) (fault : Fault) : Prop :=
  ∃ place cause, Advances source place ∧ fault = .parse place.lineNumber cause

theorem reports_here (source : Source) (cause : Cause) :
    Reports source (.parse source.lineNumber cause) :=
  ⟨source, cause, .refl source, rfl⟩

theorem Advances.reports {fault : Fault} (advances : Advances source after)
    (reports : Reports after fault) : Reports source fault := by
  obtain ⟨place, cause, further, rfl⟩ := reports
  exact ⟨place, cause, advances.trans further, rfl⟩

section Readers

variable {fault : Fault}

theorem reports_readName {role : NameRole} (failed : source.readName role = .error fault) :
    Reports source fault := by
  unfold readName at failed
  split at failed
  · split at failed
    · contradiction
    · split at failed
      · cases failed
        exact reports_here source _
      · cases failed
        exact reports_here source _
  · cases failed
    exact reports_here source _

theorem reports_readShortcutValue {shortcut : Char}
    (failed : source.readShortcutValue shortcut = .error fault) : Reports source fault := by
  unfold readShortcutValue at failed
  simp only at failed
  split at failed
  · cases failed
    exact reports_here source _
  · split at failed
    · cases failed
      exact reports_here source _
    · split at failed
      · cases failed
        exact reports_here source _
      · contradiction

theorem reports_readShortcuts (inside : Inside source)
    (failed : source.readShortcuts = .error fault) : Reports source fault := by
  fun_induction readShortcuts source with
  | case1 => contradiction
  | case2 => contradiction
  | case3 source shortcut next name named found valueFailed =>
      cases failed
      exact (Advances.readChar source).reports (reports_readShortcutValue valueFailed)
  | case4 source shortcut next name named value middle valueRead found othersFailed ih =>
      cases failed
      have visible : shortcut ≠ '\n' := by
        rintro rfl
        contradiction
      obtain ⟨lines, rest, number, rfl⟩ := inside.eq_cons next visible
      have valued := (readsOn_readShortcutValue (Onward.tail.inside inside) valueRead).onward
      have onward : Onward ⟨lines, some (shortcut :: rest), number⟩ middle :=
        Onward.tail.trans valued
      exact (Advances.onward onward).reports (ih (onward.inside inside) othersFailed)
  | case5 => contradiction

theorem line_of_readQuotation {quote : Char} {multiline : Bool} {line : Nat}
    (failed : source.readQuotation quote multiline line = .error fault) :
    ∃ cause, fault = .parse line cause := by
  have unmapped {change : Text × Source → Text × Source} {result : Reading Text}
      (failed : result.map change = .error fault) : result = .error fault := by
    cases result with
    | error found => exact failed
    | ok value => contradiction
  fun_induction readQuotation quote multiline line source with
  | case1 =>
      cases failed
      exact ⟨_, rfl⟩
  | case2 =>
      cases failed
      exact ⟨_, rfl⟩
  | case3 source next escaped ih => exact ih (unmapped failed)
  | case4 source next escaped following visible ih => exact ih (unmapped failed)
  | case5 source next unescaped multi ih => exact ih (unmapped failed)
  | case6 =>
      cases failed
      exact ⟨_, rfl⟩
  | case7 => contradiction
  | case8 source character next unescaped visible unquoted ih => exact ih (unmapped failed)

theorem reports_readQuoted {quote : Char} {multiline : Bool} {line : Nat} (inside : Inside source)
    (failed : source.readQuoted quote multiline line = .error fault) :
    (∃ cause, fault = .parse line cause) ∨ Reports source fault := by
  unfold readQuoted at failed
  split at failed
  · rename_i found quotation
    cases failed
    exact .inl (line_of_readQuotation quotation)
  · rename_i value last quotation
    have ended : Advances source last := .onward (readsOn_readQuotation inside quotation).onward
    split at failed
    · contradiction
    · split at failed
      · cases failed
        exact .inr (ended.reports (reports_here last _))
      · split at failed
        · contradiction
        · cases failed
          exact .inr (ended.reports (reports_here last _))

end Readers

end Source

namespace Scanner

open Source (Advances Among Inside Loaded Onward Reports reports_here)

variable {lines : List (Nat × Text)} {source after : Source} {fault : Fault}

theorem reports_mapQuoted {quote : Char} {multiline : Bool} {line : Nat}
    {change : Text × Source → Token × Source} (inside : Inside source)
    (next : source.peekChar.1 = some quote) (visible : quote ≠ '\n')
    (failed : (source.readChar.2.readQuoted quote multiline line).map change = .error fault) :
    (∃ cause, fault = .parse line cause) ∨ Reports source fault := by
  obtain ⟨unread, rest, number, rfl⟩ := inside.eq_cons next visible
  rw [Source.readChar_within] at failed
  cases result : (Source.mk unread (some rest) number).readQuoted quote multiline line with
  | ok read =>
      rw [result] at failed
      contradiction
  | error found =>
      rw [result] at failed
      cases failed
      rcases Source.reports_readQuoted (Onward.tail.inside inside) result with same | reports
      · exact .inl same
      · exact .inr ((Advances.onward .tail).reports reports)

theorem reports_readAttribute {parentheses : Nat} (inside : Inside source)
    (failed : readAttribute parentheses source.lineNumber source = .error fault) :
    Reports source fault := by
  have here (cause : Cause) := reports_here source cause
  generalize source.lineNumber = line at failed here
  have bare {name : Text} {assigned : Source}
      (failed : readBareValue name line assigned = .error fault) : Reports source fault := by
    simp only [readBareValue] at failed
    split at failed
    · cases failed
      exact here _
    · contradiction
  unfold readAttribute at failed
  split at failed
  · rename_i found nameFailed
    cases failed
    exact Source.reports_readName nameFailed
  · rename_i name named nameRead
    have onward := (Source.readsOn_readName inside nameRead).onward
    split at failed
    · rename_i assigns
      obtain ⟨unread, value, number, rfl⟩ := (onward.inside inside).eq_cons assigns (by decide)
      have assigned := onward.trans .tail
      have quoted {change : Text × Source → Token × Source} (visible : value.headD '\n' ≠ '\n')
          (failed : ((Source.mk unread (some value) number).readChar.2.readQuoted
            (value.headD '\n') (0 < parentheses) line).map change = .error fault) :
          Reports source fault := by
        have next : (Source.mk unread (some value) number).peekChar.1 =
            some (value.headD '\n') := by rw [Source.peekChar_within]
        rcases reports_mapQuoted (assigned.inside inside) next visible failed with
          ⟨cause, rfl⟩ | reports
        · exact here cause
        · exact (Advances.onward assigned).reports reports
      simp only [Source.readChar_within, Source.peekChar_within] at failed
      split at failed
      · rename_i quote
        refine quoted ?_ failed
        rcases quote with quote | quote <;>
          · rw [quote]
            decide
      · split at failed
        · rename_i quote
          refine quoted ?_ failed
          rw [quote]
          decide
        · exact bare failed
    · contradiction

theorem reports_payloadOf {text : Text}
    (failed : payloadOf source.lineNumber text = .error fault) : Reports source fault := by
  unfold payloadOf at failed
  split at failed
  · contradiction
  · split at failed
    · cases failed
      exact reports_here source _
    · contradiction

theorem readPiece_error_cases {parentheses : Nat}
    (failed : readPiece parentheses source = .error fault) :
    (∃ cause, fault = .parse source.lineNumber cause) ∨
      ∃ character, source.peekChar.1 = some character ∧
        readAttribute parentheses source.lineNumber source = .error fault := by
  unfold readPiece at failed
  simp only at failed
  split at failed
  · split at failed
    · cases failed
      exact .inl ⟨_, rfl⟩
    · contradiction
  · rename_i character next
    split_ifs at failed
    any_goals
      cases failed
      exact .inl ⟨_, rfl⟩
    split at failed
    · rename_i found attributeFailed
      cases failed
      exact .inr ⟨character, next, attributeFailed⟩
    · contradiction

theorem reports_readPiece {parentheses : Nat} (loaded : Loaded lines) (among : source.Among lines)
    (failed : readPiece parentheses source = .error fault) : Reports source fault := by
  rcases readPiece_error_cases failed with ⟨cause, rfl⟩ | ⟨character, next, attributeFailed⟩
  · exact reports_here source cause
  · rw [← readAttribute_fill, ← Source.lineNumber_fill] at attributeFailed
    have inside := among.inside_fill loaded next
    exact (Advances.fill source).reports (reports_readAttribute inside attributeFailed)

/-! ### Constructs -/

theorem lastNumber_readCommentLines (width : Nat) (source : Source) :
    (readCommentLines width source).2.lastNumber = source.lastNumber := by
  fun_induction readCommentLines width source with
  | case1 source next => exact (Advances.readLine source).last
  | case2 source line next continues others ih => exact ih.trans (Advances.readLine source).last
  | case3 source line next stops =>
      rw [Source.lastNumber_unreadLine]
      exact (Advances.readLine source).last

theorem lastNumber_readFilterLines (least : Nat) (bodyWidth : Option Nat) (blanks : Nat)
    (source : Source) :
    (readFilterLines least bodyWidth blanks source).source.lastNumber = source.lastNumber := by
  fun_induction readFilterLines least bodyWidth blanks source with
  | case1 _ _ source next => exact (Advances.readLine source).last
  | case2 _ _ source line next indent blank ih => exact ih.trans (Advances.readLine source).last
  | case3 _ _ source line next indent text outside =>
      rw [Source.lastNumber_unreadLine]
      exact (Advances.readLine source).last
  | case4 _ _ source line next indent text inside width others ih =>
      exact ih.trans (Advances.readLine source).last

section Constructs

variable {unread : List (Nat × Text)} {number : Nat} {mode : Mode} {lexemes : List Lexeme}

theorem advances_readCommentLines (width : Nat) (loaded : Loaded unread) :
    Advances ⟨unread, none, number⟩ (readCommentLines width ⟨unread, none, number⟩).2 := by
  obtain ⟨left, last, same, ending⟩ := @readCommentLines_source number unread width loaded
  refine ⟨?_, lastNumber_readCommentLines width _⟩
  rw [same]
  exact ending.map Prod.fst

theorem advances_readFilterLines (least : Nat) (bodyWidth : Option Nat) (blanks : Nat)
    (loaded : Loaded unread) :
    Advances ⟨unread, none, number⟩
      (readFilterLines least bodyWidth blanks ⟨unread, none, number⟩).source := by
  obtain ⟨left, last, same, ending⟩ :=
    @readFilterLines_source number unread least bodyWidth blanks loaded
  refine ⟨?_, lastNumber_readFilterLines least bodyWidth blanks _⟩
  rw [same]
  exact ending.map Prod.fst

theorem advances_startElement {tag : Text} {line : Nat} (inside : Inside source)
    (read : startElement tag line source = .ok (after, mode, lexemes)) :
    Advances source after := by
  unfold startElement at read
  split at read
  · contradiction
  · rename_i attributes last shortcutsRead
    cases read
    exact .onward (Source.readsOn_readShortcuts inside shortcutsRead).onward

theorem advances_readConstruct {width line : Nat} {body : Text} (loaded : Loaded unread)
    (inside : Inside ⟨unread, some body, number⟩)
    (read : readConstruct (openingOf body) width line ⟨unread, some body, number⟩ =
      .ok (after, mode, lexemes)) :
    Advances ⟨unread, some body, number⟩ after := by
  cases opens : openingOf body <;> rw [opens] at read
  case element =>
    obtain ⟨rest, rfl⟩ := head?_of_openingOf_element opens
    simp only [readConstruct, readElement, Source.readChar_within] at read
    split at read
    · contradiction
    · rename_i tag named nameRead
      have tail := Onward.tail.inside inside
      have onward := (Source.readsOn_readName tail nameRead).onward
      exact (Advances.onward (Onward.tail.trans onward)).trans
        (advances_startElement (onward.inside tail) read)
  case shortcut => exact advances_startElement inside read
  case comment =>
    cases read
    exact (Advances.readLine _).trans (advances_readCommentLines width loaded)
  case directive =>
    simp only [readConstruct, readDirective] at read
    split at read
    · contradiction
    · cases read
      exact .readLine _
  case code =>
    simp only [readConstruct, readCode] at read
    split at read
    · contradiction
    · cases read
      exact .readLine _
  case filter =>
    simp only [readConstruct, readFilterHeading] at read
    split at read
    · contradiction
    · cases read
      exact .readLine _
  case rawCode =>
    simp only [readConstruct, readRawCode] at read
    split at read
    · contradiction
    · cases read
      exact .readLine _
  case verbatim =>
    cases read
    exact .readLine _
  case text =>
    cases read
    exact .readLine _

theorem advances_pieceRead {parentheses : Nat} (loaded : Loaded lines)
    (among : source.Among lines) (read : PieceRead source parentheses after mode lexemes) :
    Advances source after := by
  have passed : Advances source source.readChar.2 := .readChar source
  cases read with
  | ended next => exact .fill source
  | lineEnd next | newline next opened | space next | opening next | closing next | data next =>
      exact passed
  | continued next ends => exact passed.trans (.readChar _)
  | selfClose next => exact passed.trans (.readLine _)
  | attributed next start read =>
      rw [← readAttribute_fill] at read
      have inside := among.inside_fill loaded next
      exact (Advances.fill source).trans (.onward (readsOn_readAttribute inside read).onward)

theorem reports_startElement {tag : Text} {line : Nat} (inside : Inside source)
    (failed : startElement tag line source = .error fault) : Reports source fault := by
  unfold startElement at failed
  split at failed
  · rename_i found shortcutsFailed
    cases failed
    exact Source.reports_readShortcuts inside shortcutsFailed
  · contradiction

theorem reports_readConstruct {width : Nat} {body : Text}
    (inside : Inside ⟨unread, some body, number⟩)
    (failed : readConstruct (openingOf body) width number ⟨unread, some body, number⟩ =
      .error fault) : Reports ⟨unread, some body, number⟩ fault := by
  have here (cause : Cause) := reports_here ⟨unread, some body, number⟩ cause
  cases opens : openingOf body <;> rw [opens] at failed
  case element =>
    obtain ⟨rest, rfl⟩ := head?_of_openingOf_element opens
    simp only [readConstruct, readElement, Source.readChar_within] at failed
    have tail := Onward.tail.inside inside
    split at failed
    · rename_i found nameFailed
      cases failed
      exact (Advances.onward .tail).reports (Source.reports_readName nameFailed)
    · rename_i tag named nameRead
      have onward := (Source.readsOn_readName tail nameRead).onward
      exact (Advances.onward (Onward.tail.trans onward)).reports
        (reports_startElement (onward.inside tail) failed)
  case shortcut => exact reports_startElement inside failed
  case comment => contradiction
  case directive =>
    simp only [readConstruct, readDirective, Markup.Directive.parse] at failed
    split at failed
    · rename_i found directiveFailed
      split at directiveFailed
      · contradiction
      · cases directiveFailed
        cases failed
        exact here _
    · contradiction
  case code =>
    simp only [readConstruct, readCode] at failed
    split at failed
    · rename_i found payloadFailed
      cases failed
      exact reports_payloadOf payloadFailed
    · contradiction
  case filter =>
    simp only [readConstruct, readFilterHeading] at failed
    split at failed
    · cases failed
      exact here _
    · contradiction
  case rawCode =>
    simp only [readConstruct, readRawCode] at failed
    split at failed
    · cases failed
      exact here _
    · contradiction
  case verbatim => contradiction
  case text => contradiction

end Constructs

/-! ### Steps -/

section Steps

variable {scanner next : Scanner} {lexemes : List Lexeme}

theorem Standing.indented (loaded : Loaded lines) (standing : Standing lines scanner)
    (reading : scanner.mode = .indentation) :
    ∃ number text others last, scanner.source = ⟨(number, text) :: others, none, last⟩ ∧
      Loaded others ∧ Inside ⟨others, some (text.drop text.leadingSpaces), number⟩ ∧
      Advances scanner.source ⟨others, some (text.drop text.leadingSpaces), number⟩ := by
  obtain ⟨among, fits⟩ := standing
  rw [reading] at fits
  obtain ⟨⟨unread, current, last⟩, levels, mode, pending, begun⟩ := scanner
  obtain ⟨between, unended⟩ := fits
  cases between
  cases unread with
  | nil => contradiction
  | cons entry others =>
      obtain ⟨number, text⟩ := entry
      have onward : Onward ⟨others, some text, number⟩
          ⟨others, some (text.drop text.leadingSpaces), number⟩ := .within (List.drop_suffix _ _)
      have passed : Among lines ⟨others, some (text.drop text.leadingSpaces), number⟩ :=
        among.fill.onward onward
      refine ⟨number, text, others, last, rfl, loaded.suffix passed.ending,
        passed.isInside loaded, ?_⟩
      exact (Advances.fill _).trans (.onward onward)

theorem advances_stepped (loaded : Loaded lines) (standing : Standing lines scanner)
    (stepped : Stepped scanner next lexemes) : Advances scanner.source next.source := by
  cases stepped with
  | ended reading next | line reading next visible | done reading => exact .refl _
  | blank reading next blank => exact .readLine _
  | construct reading found indent entered read =>
      obtain ⟨number, text, others, last, place, later, inside, advances⟩ :=
        standing.indented loaded reading
      refine advances.trans ?_
      rw [place] at found read
      cases found
      cases indent
      simp only [Source.peekLine, Source.readLine, Option.getD_some] at read
      rw [readConstruct_skip] at read
      exact advances_readConstruct later inside read
  | piece reading read => exact advances_pieceRead loaded standing.among read
  | data reading read => exact .readLine _
  | @filterBody name line width reading =>
      obtain ⟨among, fits⟩ := standing
      rw [reading] at fits
      obtain ⟨⟨unread, current, number⟩, levels, mode, pending, begun⟩ := scanner
      cases fits
      exact advances_readFilterLines _ _ _ (loaded.suffix among.ending)

/-- A step that fails reports a place that reading comes to from where it stands. -/
theorem reports_step (loaded : Loaded lines) (standing : Standing lines scanner)
    (failed : scanner.step = .error fault) : Reports scanner.source fault := by
  have acted : scanner.act = .error fault := by
    unfold step at failed
    split at failed
    · rename_i found acts
      cases failed
      exact acts
    · contradiction
  unfold act at acted
  split at acted
  · contradiction
  · rename_i reading
    unfold readIndentation at acted
    simp only at acted
    split at acted
    · rename_i found entering
      cases acted
      simp only [enterLevel] at entering
      split at entering
      · contradiction
      · contradiction
      · split at entering
        · contradiction
        · cases entering
          exact reports_here _ _
    · split at acted
      · rename_i found constructFailed
        cases acted
        obtain ⟨number, text, others, last, place, later, inside, advances⟩ :=
          standing.indented loaded reading
        refine advances.reports ?_
        rw [place] at constructFailed
        simp only [Source.peekLine, Source.readLine, Option.getD_some] at constructFailed
        rw [readConstruct_skip] at constructFailed
        exact reports_readConstruct inside constructFailed
      · contradiction
  · unfold advance at acted
    split at acted
    · rename_i found pieceFailed
      cases acted
      exact reports_readPiece loaded standing.among pieceFailed
    · contradiction
  · unfold advance readData at acted
    split at acted
    · rename_i found dataFailed
      cases acted
      split at dataFailed
      · rename_i found payloadFailed
        cases dataFailed
        exact reports_payloadOf payloadFailed
      · contradiction
    · contradiction
  · contradiction
  · contradiction

end Steps

end Scanner

end Stencil
