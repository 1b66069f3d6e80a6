import Stencil.Proofs.DocumentScanning
import Stencil.Proofs.JoinedLexemes
import Stencil.Template

/-! Lines that take each other's place.

A slot is a place for one line in a template: the text above it, the width of its
indentation, and the text below it.  The text above is loaded and scanned in the same way
whatever stands in the slot, and so is the text below, as long as the line is read to its end.
So if lines differ in one token only, the lexemes of the templates do too. -/

namespace Stencil

open Source (Loaded Recast)

/-! ### Breaks and lines -/

namespace Text

/-- Line breaks are joined only across a return and the newline after it. -/
theorem joinReturns_append_of_head {rest : Text} (lead : Text) (apart : rest.head? ≠ some '\n') :
    joinReturns (lead ++ rest) = joinReturns lead ++ joinReturns rest := by
  fun_induction joinReturns lead with
  | case1 => rfl
  | case2 later ih =>
      rw [List.cons_append, List.cons_append, joinReturns, ih]
      rfl
  | case3 character later alone ih =>
      rw [List.cons_append, joinReturns, ih]
      · rfl
      · rintro others rfl same
        cases later with
        | nil =>
            rw [List.nil_append] at same
            exact apart (by rw [same]; rfl)
        | cons second later =>
            rw [List.cons_append, List.cons.injEq] at same
            exact alone later rfl (by rw [same.1])

theorem unifyBreaks_append_of_head {rest : Text} (lead : Text)
    (apart : rest.head? ≠ some '\n') :
    unifyBreaks (lead ++ rest) = unifyBreaks lead ++ unifyBreaks rest := by
  rw [unifyBreaks, joinReturns_append_of_head lead apart, List.map_append, unifyBreaks, unifyBreaks]

theorem getLast?_joinReturns (text : Text) : (joinReturns text).getLast? = text.getLast? := by
  fun_induction joinReturns text with
  | case1 => rfl
  | case2 rest ih => simp only [List.getLast?_cons, ih, Option.getD_some]
  | case3 character rest alone ih => simp only [List.getLast?_cons, ih]

theorem head?_unifyBreaks (text : Text) :
    (unifyBreaks text).head? =
      text.head?.map fun character => if character = '\r' then '\n' else character := by
  unfold unifyBreaks
  fun_cases joinReturns text with
  | case1 => rfl
  | case2 rest => rfl
  | case3 character rest alone => rfl

def isBreak (character : Char) : Bool :=
  character = '\n' || character = '\r'

theorem eq_newline_of_isBreak {character : Char} (isBreak : isBreak character = true) :
    (if character = '\r' then '\n' else character) = '\n' := by
  simp only [Text.isBreak, Bool.or_eq_true, decide_eq_true_eq] at isBreak
  rcases isBreak with rfl | rfl
  · rfl
  · rfl

theorem lines_behind {above : Text} (rest : Text)
    (terminated : above.getLast?.all isBreak = true) :
    lines (above.unifyBreaks ++ rest) = above.unifyBreaks.lines ++ lines rest := by
  cases ends : above.getLast? with
  | none =>
      rw [List.getLast?_eq_none_iff] at ends
      subst ends
      rfl
  | some last =>
      rw [ends, Option.all_some] at terminated
      have newline : above.unifyBreaks.getLast? = some '\n' := by
        rw [unifyBreaks, List.getLast?_map, getLast?_joinReturns, ends, Option.map_some,
          eq_newline_of_isBreak terminated]
      obtain ⟨lead, parts⟩ := List.getLast?_eq_some_iff.mp newline
      rw [parts, List.append_assoc, List.singleton_append, lines_append_newline,
        lines_append_newline]
      simp [lines]

theorem lines_above {line below : Text} (given : line ≠ []) (unbroken : '\n' ∉ line)
    (broken : below.head?.all isBreak = true) :
    lines (line ++ below.unifyBreaks) = line :: below.unifyBreaks.lines.tail := by
  cases starts : below.head? with
  | none =>
      rw [List.head?_eq_none_iff] at starts
      subst starts
      have nothing : unifyBreaks [] = [] := rfl
      rw [nothing, List.append_nil, lines_unbroken unbroken given]
      rfl
  | some first =>
      rw [starts, Option.all_some] at broken
      have newline : below.unifyBreaks.head? = some '\n' := by
        rw [head?_unifyBreaks, starts, Option.map_some, eq_newline_of_isBreak broken]
      obtain ⟨rest, parts⟩ := List.head?_eq_some_iff.mp newline
      rw [parts, lines_newline rest unbroken]
      simp [lines]

end Text

/-! ### Slots -/

/-- A place for a line in a template, such as the place below a chain of parent elements.  The
text above is complete: it is scanned without a fault, and its last construct does not go on
with the line. -/
structure Slot where
  above : Text
  width : Nat
  below : Text
  scanned : ∃ lexemes, tokenize above = .ok lexemes ∧
    ∀ lexeme ∈ lexemes, lexeme.token.takesLines = false
  terminated : above.getLast?.all Text.isBreak = true
  uncontinued : ∀ line ∈ above.unifyBreaks.lines.getLast?, line.getLast? ≠ some '\\'
  broken : below.head?.all Text.isBreak = true

/-- A line that starts with the sign of an element, of verbatim text or of escaped code. -/
structure IsSigned (line : Text) : Prop where
  inline : line.all Document.isInline = true
  signed : ∃ sign rest, line = sign :: rest ∧ sign ∈ ['%', '\\', '=', '&']

namespace IsSigned

variable {line : Text}

theorem visible (isSigned : IsSigned line) :
    ∃ sign rest, line = sign :: rest ∧ Text.isBlank sign = false ∧
      Encoding.isGap sign = false ∧ sign ≠ '/' ∧ sign ≠ '-' := by
  obtain ⟨sign, rest, rfl, listed⟩ := isSigned.signed
  refine ⟨sign, rest, rfl, ?_⟩
  revert listed
  simp only [List.mem_cons, List.not_mem_nil, or_false]
  rintro (rfl | rfl | rfl | rfl) <;> decide

theorem indented (isSigned : IsSigned line) (width : Nat) :
    (Text.spaces width ++ line).all Document.isInline = true := by
  rw [List.all_append, Document.all_isInline_spaces, isSigned.inline]
  rfl

end IsSigned

namespace Source

theorem firstDisallowed_behind {lines : List (Nat × Text)} (others : List (Nat × Text))
    (clean : firstDisallowed lines = none) :
    firstDisallowed (lines ++ others) = firstDisallowed others := by
  induction lines with
  | nil => rfl
  | cons entry lines ih =>
      obtain ⟨number, line⟩ := entry
      rw [firstDisallowed] at clean
      rw [List.cons_append, firstDisallowed]
      cases found : line.find? isDisallowed with
      | none =>
          rw [found] at clean
          exact ih clean
      | some character =>
          rw [found] at clean
          contradiction

theorem firstDisallowed_inserted {first : Nat} {above : List Text} (line : Document.Line)
    (below : List Text) (clean : firstDisallowed (numberFrom first above) = none) :
    firstDisallowed (numberFrom first (above ++ line.text :: below)) =
      firstDisallowed (numberFrom (first + above.length + 1) below) := by
  have passed := @firstDisallowed_append (first + above.length) line.text []
    (numberFrom (first + above.length + 1) below) line.allowed
  rw [List.append_nil] at passed
  rw [numberFrom_append, numberFrom, firstDisallowed_behind _ clean, passed]
  rfl

theorem ofLines_inserted {first : Nat} {above : Text} {source : Source} (below : List Text)
    (loads : ofLines first above = .ok source) :
    (∃ fault, ∀ (line : Document.Line) whole, whole.lines = above.lines ++ line.text :: below →
      ofLines first whole = .error fault) ∨
    ∃ number later, ∀ (line : Document.Line) whole,
      whole.lines = above.lines ++ line.text :: below →
        ofLines first whole =
          .ok ⟨source.lines ++ (number, line.text) :: later, none, source.number⟩ := by
  obtain ⟨allowed, rfl⟩ := ofLines_eq_ok_iff.mp loads
  have clean := (@firstDisallowed_numberFrom first _).mpr allowed
  cases refused : firstDisallowed (numberFrom (first + above.lines.length + 1) below) with
  | none =>
      refine .inr ⟨first + above.lines.length,
        numberFrom (first + above.lines.length + 1) below, ?_⟩
      intro line whole lines
      simp only [ofLines, lines, firstDisallowed_inserted line below clean, refused]
      rw [numberFrom_append, numberFrom]
  | some place =>
      obtain ⟨number, character⟩ := place
      refine .inl ⟨.invalidCharacter number character, ?_⟩
      intro line whole lines
      simp only [ofLines, lines, firstDisallowed_inserted line below clean, refused]

end Source

namespace Slot

variable (slot : Slot)

def text (line : Text) : Text :=
  slot.above ++ (Text.spaces slot.width ++ line ++ slot.below)

def indented (line : Text) : Text :=
  Text.spaces slot.width ++ line

variable {slot}

theorem lines_text {line : Text} (isSigned : IsSigned line) :
    (slot.text line).unifyBreaks.lines = slot.above.unifyBreaks.lines ++
      slot.indented line :: slot.below.unifyBreaks.lines.tail := by
  obtain ⟨sign, rest, same, visible, -⟩ := isSigned.visible
  have given : slot.indented line ≠ [] := by
    simp [indented, same]
  have unbroken : '\n' ∉ slot.indented line :=
    Document.Line.newline_not_mem ⟨_, isSigned.indented slot.width⟩
  have free : '\r' ∉ slot.indented line :=
    Document.Line.return_not_mem ⟨_, isSigned.indented slot.width⟩
  have apart : (slot.indented line ++ slot.below).head? ≠ some '\n' := by
    intro newline
    rw [List.head?_append_of_ne_nil _ given] at newline
    exact unbroken (List.mem_of_mem_head? newline)
  rw [text, ← indented, Text.unifyBreaks_append_of_head _ apart,
    Text.lines_behind _ slot.terminated, Text.unifyBreaks_append _ free,
    Text.lines_above given unbroken slot.broken]

theorem pragma_text {line : Text} (isSigned : IsSigned line) :
    Encoding.pragma ((slot.text line).unifyBreaks.lines.headD []) =
      Encoding.pragma (slot.above.unifyBreaks.lines.headD []) := by
  rw [lines_text isSigned]
  cases slot.above.unifyBreaks.lines with
  | nil =>
      obtain ⟨sign, rest, rfl, -, gap, other⟩ := isSigned.visible
      exact Encoding.pragma_indented slot.width rest gap other
  | cons first others => rfl

theorem exists_ofLines {source : Source} (loads : Source.ofText slot.above = .ok source) :
    ∃ first body, Source.ofLines first body = .ok source ∧
      body.lines <:+ slot.above.unifyBreaks.lines ∧
      ∀ line, IsSigned line → ∃ whole, Source.ofText (slot.text line) = Source.ofLines first whole ∧
        whole.lines =
          body.lines ++ slot.indented line :: slot.below.unifyBreaks.lines.tail := by
  simp only [Source.ofText] at loads
  split at loads
  · rename_i unmarked
    refine ⟨1, _, loads, List.suffix_rfl, ?_⟩
    intro line isSigned
    refine ⟨(slot.text line).unifyBreaks, ?_, lines_text isSigned⟩
    simp only [Source.ofText, pragma_text isSigned, unmarked]
  · rename_i label marked
    split at loads
    · contradiction
    · rename_i encoding named
      refine ⟨2, _, loads, ?_, ?_⟩
      · rw [Text.lines_afterFirstLine]
        exact List.tail_suffix _
      · intro line isSigned
        refine ⟨(slot.text line).unifyBreaks.afterFirstLine, ?_, ?_⟩
        · simp only [Source.ofText, pragma_text isSigned, marked, named]
        · rw [Text.lines_afterFirstLine, Text.lines_afterFirstLine, lines_text isSigned,
            List.tail_append_of_ne_nil]
          intro empty
          rw [empty] at marked
          contradiction

/-- Unless there is a fault below the slot, a line in it is loaded between the lines above it
and those below, and neither depend on it. -/
theorem ofText_text {source : Source} (loads : Source.ofText slot.above = .ok source) :
    (∃ fault, ∀ line, IsSigned line → Source.ofText (slot.text line) = .error fault) ∨
    ∃ number later, ∀ line, IsSigned line → Source.ofText (slot.text line) =
      .ok ⟨source.lines ++ (number, slot.indented line) :: later, none, source.number⟩ := by
  obtain ⟨first, body, loadsBody, -, loadsWhole⟩ := exists_ofLines loads
  rcases Source.ofLines_inserted slot.below.unifyBreaks.lines.tail loadsBody with
    ⟨fault, refuses⟩ | ⟨number, later, gives⟩
  · refine .inl ⟨fault, ?_⟩
    intro line isSigned
    obtain ⟨whole, same, lines⟩ := loadsWhole line isSigned
    rw [same]
    exact refuses ⟨slot.indented line, isSigned.indented slot.width⟩ whole lines
  · refine .inr ⟨number, later, ?_⟩
    intro line isSigned
    obtain ⟨whole, same, lines⟩ := loadsWhole line isSigned
    rw [same]
    exact gives ⟨slot.indented line, isSigned.indented slot.width⟩ whole lines

/-! ### Scanning -/

theorem ends_uncontinued {source : Source} (loads : Source.ofText slot.above = .ok source)
    (number : Nat) (line : Text) : source.lines.getLast? ≠ some (number, line ++ ['\\']) := by
  intro ends
  obtain ⟨first, body, loadsBody, ending, -⟩ := exists_ofLines loads
  obtain ⟨-, rfl⟩ := Source.ofLines_eq_ok_iff.mp loadsBody
  have last := Source.getLast?_numberFrom first body.lines
  rw [ends, Option.map_some] at last
  have whole : slot.above.unifyBreaks.lines.getLast? = some (line ++ ['\\']) := by
    obtain ⟨lead, parts⟩ := ending
    rw [← parts, List.getLast?_append, ← last, Option.some_or]
  have uncontinued := slot.uncontinued _ whole
  rw [List.getLast?_concat] at uncontinued
  contradiction

/-- Whatever the line in the slot is, the scanner comes to its start in one and the same way. -/
theorem runsTo_line {source : Source} {lexemes : List Lexeme}
    (loads : Source.ofText slot.above = .ok source) (ran : source.lexemes = (lexemes, none))
    (untaken : ∀ lexeme ∈ lexemes, lexeme.token.takesLines = false) :
    ∃ body levels number pending begun, ∀ entry later, Loaded (source.lines ++ entry :: later) →
      Scanner.RunsTo (Scanner.ofSource ⟨source.lines ++ entry :: later, none, source.number⟩) body
        ⟨⟨entry :: later, none, number⟩, levels, .lineStart, pending, begun⟩ := by
  obtain ⟨between, loaded⟩ := Source.IsLoaded.loaded (.inl ⟨_, loads⟩)
  have standing := Scanner.standing_ofSource between
  unfold Source.lexemes at ran
  obtain ⟨body, last, passes, reading, unread, recasts⟩ := Recast.runsTo_end loaded standing
    (by simp [Scanner.ofSource]) (by rw [ran])
  have fits := (standing.reaches loaded passes.reaches).fits
  obtain ⟨⟨left, current, number⟩, levels, mode, pending, begun⟩ := last
  cases reading
  cases fits
  cases unread
  refine ⟨body, levels, number, pending, begun, ?_⟩
  intro entry later whole
  have spaced : ∀ blank ∈ ([] : List (Nat × Text)), ∃ count, blank.2 = Text.spaces count := by simp
  have ended : entry :: later = [] → ([] : List (Nat × Text)) = [] := fun _ => rfl
  have runs := recasts (.before [] (entry :: later) spaced ended)
    (by rw [Source.lines_before]; exact whole) (.inr (ends_uncontinued loads)) (.inl rfl)
    (.inr (by rw [ran]; exact untaken))
  have kept : body.map (Recast.before [] (entry :: later) spaced ended).lexeme = body :=
    List.map_id' body
  obtain ⟨lines, current, first⟩ := source
  cases between
  rw [Scanner.ofSource, Source.scanner_before, Source.scanner_before, kept] at runs
  exact runs

end Slot

/-! ### Lines that are read to their end -/

namespace Scanner

/-- On every level that it can have, a line is read to its end, and as these tokens. -/
def Reads (line : Text) (tokens : List Token) : Prop :=
  ∀ (width next number : Nat) (later : List (Nat × Text)) (levels left : Levels)
    (structural : List Lexeme) (pending begun : Bool),
    enterLevel width next levels = .ok (left, structural) →
    RunsTo ⟨⟨(next, Text.spaces width ++ line) :: later, none, number⟩, levels, .lineStart, pending,
        begun⟩
      (structural ++ (if pending then onLine next [.blankLine] else []) ++ onLine next tokens)
      ⟨⟨later, none, next⟩, left, .lineStart, false, true⟩

theorem run_unaligned {width next number : Nat} {line : Text} {later : List (Nat × Text)}
    {levels : Levels} {pending begun : Bool} {fault : Fault} (isSigned : IsSigned line)
    (refused : enterLevel width next levels = .error fault) :
    (Scanner.mk ⟨(next, Text.spaces width ++ line) :: later, none, number⟩ levels .lineStart pending
      begun).run = ([], some fault) := by
  obtain ⟨sign, rest, rfl, visible, -⟩ := isSigned.visible
  have unspaced : (sign :: rest).head? ≠ some ' ' := by
    rintro ⟨⟩
    contradiction
  have indent := Text.leadingSpaces_spaces_append width unspaced
  have stepped : (Scanner.mk ⟨(next, Text.spaces width ++ sign :: rest) :: later, none, number⟩
      levels .indentation pending begun).step = .error fault := by
    simp only [step, act, readIndentation, Source.peekLine, Source.readLine, Source.lineNumber,
      Option.getD_some, indent, refused]
  rw [run_visible (by simp [Text.isAllBlank, visible]), run_of_step_error (by simp) stepped]

end Scanner

namespace Slot

open Scanner (Reads onLine)

variable {slot : Slot} {first second : Text} {lead : List Token} {one two : Token}

/-- If two lines are read alike but for their last tokens, then either both templates are
refused alike, or their lexemes differ in those tokens only. -/
theorem compile_text (signedFirst : IsSigned first) (signedSecond : IsSigned second)
    (readsFirst : Reads first (lead ++ [one])) (readsSecond : Reads second (lead ++ [two])) :
    Program.compile (slot.text first) = Program.compile (slot.text second) ∨
    ∃ front rest line,
      Program.compile (slot.text first) = Program.ofItems (front ++ .ok ⟨one, line⟩ :: rest) ∧
      Program.compile (slot.text second) = Program.ofItems (front ++ .ok ⟨two, line⟩ :: rest) := by
  obtain ⟨lexemes, scanned, untaken⟩ := slot.scanned
  obtain ⟨source, loads, ran⟩ := tokenize_eq_ok_iff.mp scanned
  rcases ofText_text loads with ⟨fault, refuses⟩ | ⟨number, later, gives⟩
  · left
    simp only [Program.compile, refuses first signedFirst, refuses second signedSecond]
  · obtain ⟨body, levels, last, pending, begun, runs⟩ := runsTo_line loads ran untaken
    have whole (line : Text) (isSigned : IsSigned line) :=
      (Source.IsLoaded.loaded (.inl ⟨_, gives line isSigned⟩)).2
    have runsFirst := runs _ _ (whole first signedFirst)
    have runsSecond := runs _ _ (whole second signedSecond)
    unfold indented at runsFirst runsSecond
    simp only [Program.compile, gives first signedFirst, gives second signedSecond,
      Program.ofSource, Source.items, Source.lexemes, indented]
    cases entered : Scanner.enterLevel slot.width number levels with
    | error fault =>
        left
        rw [runsFirst, runsSecond, Scanner.run_unaligned signedFirst entered,
          Scanner.run_unaligned signedSecond entered]
    | ok level =>
        obtain ⟨left, structural⟩ := level
        right
        rw [runsFirst.trans (readsFirst _ _ _ _ _ _ _ _ _ entered),
          runsSecond.trans (readsSecond _ _ _ _ _ _ _ _ _ entered)]
        generalize Scanner.run _ = below
        generalize structural ++ (if pending then onLine number [.blankLine] else []) = opening
        refine ⟨(body ++ (opening ++ onLine number lead)).map .ok,
          below.1.map .ok ++ below.2.toList.map .error, number, ?_, ?_⟩
        · simp [onLine]
        · simp [onLine]

end Slot

/-! ### Chains of parent elements -/

structure Parent where
  width : Nat
  tag : Document.Name
  attributes : Document.Attributes

def Parent.line (parent : Parent) : Text :=
  Document.sourceLine 1 (parent.width, .element parent.tag parent.attributes)

def Parent.chain (parents : List Parent) : Text :=
  (parents.map line).flatMap fun line => line ++ ['\n']

namespace Parent

theorem line_eq (parent : Parent) :
    parent.line =
      Text.spaces parent.width ++ '%' :: (parent.tag.text ++ parent.attributes.source) := by
  rw [line, Document.sourceLine, Nat.mul_one]
  rfl

theorem isInline_of_mem_line {parent : Parent} {character : Char}
    (inside : character ∈ parent.line) : Document.isInline character = true :=
  List.all_eq_true.mp (Document.all_isInline_sourceLine _ _) character inside

theorem getLast?_line (parent : Parent) : parent.line.getLast? ≠ some '\\' := by
  rw [line_eq]
  obtain ⟨entries, distinct⟩ := parent.attributes
  cases entries with
  | nil =>
      have source : Document.Attributes.source ⟨[], distinct⟩ = [] := rfl
      have given : parent.tag.text ≠ [] := by
        obtain ⟨first, rest, name, -⟩ := parent.tag.exists_start
        simp [name]
      rw [source, List.append_nil, List.append_cons, List.getLast?_append_of_ne_nil _ given]
      intro ends
      have named := (isNameCharacter_of_isName parent.tag.named).2 '\\' (List.mem_of_getLast? ends)
      contradiction
  | cons entry others =>
      have source : Document.Attributes.source ⟨entry :: others, distinct⟩ =
          ('(' :: [' '].intercalate ((entry :: others).map Document.assignment)) ++ [')'] := rfl
      rw [source, List.append_cons, ← List.append_assoc, ← List.append_assoc, List.getLast?_concat]
      simp

variable {parents : List Parent}

theorem lines_chain : (chain parents).unifyBreaks.lines = parents.map line := by
  have free : '\r' ∉ chain parents := by
    intro member
    obtain ⟨text, among, inside⟩ := List.mem_flatMap.mp member
    obtain ⟨parent, -, rfl⟩ := List.mem_map.mp among
    rcases List.mem_append.mp inside with inside | last
    · have inline := isInline_of_mem_line inside
      contradiction
    · simp at last
  rw [Text.unifyBreaks_of_not_mem free]
  apply Text.lines_flatMap
  intro text among inside
  obtain ⟨parent, -, rfl⟩ := List.mem_map.mp among
  have inline := isInline_of_mem_line inside
  contradiction

theorem ofText_chain :
    Source.ofText (chain parents) = .ok ⟨Source.numberFrom 1 (parents.map line), none, 1⟩ := by
  have unmarked : Encoding.pragma ((parents.map line).headD []) = none := by
    cases parents with
    | nil => rfl
    | cons parent others =>
        rw [List.map_cons, List.headD_cons, line_eq]
        exact Encoding.pragma_indented _ _ (by decide) (by decide)
  have loads : Source.ofLines 1 (chain parents).unifyBreaks =
      .ok ⟨Source.numberFrom 1 (parents.map line), none, 1⟩ := by
    rw [Source.ofLines_eq_ok_iff, lines_chain]
    refine ⟨?_, rfl⟩
    intro text among character inside
    obtain ⟨parent, -, rfl⟩ := List.mem_map.mp among
    have inline := isInline_of_mem_line inside
    simp only [Document.isInline, Bool.and_eq_true, Bool.not_eq_true'] at inline
    exact inline.2
  simp only [Source.ofText, lines_chain, unmarked, loads]

end Parent

namespace Scanner

theorem enterLevel_deeper {width line : Nat} {levels : Levels} (deeper : levels.current ≤ width) :
    ∃ left tokens, enterLevel width line levels = .ok (left, onLine line tokens) ∧
      left.current = width ∧ ∀ token ∈ tokens, token.takesLines = false := by
  unfold enterLevel Levels.compare
  rcases Nat.lt_or_eq_of_le deeper with wider | rfl
  · rw [Nat.compare_eq_gt.mpr wider]
    exact ⟨levels.push width, [.indent], rfl, rfl, by simp [Token.takesLines]⟩
  · rw [Nat.compare_eq_eq.mpr rfl]
    exact ⟨levels, [], rfl, rfl, by simp⟩

theorem reaches_parent {levels : Levels} {first number : Nat} {begun : Bool}
    {lines : List (Nat × Text)} (parent : Parent) (deeper : levels.current ≤ parent.width) :
    ∃ left tokens, left.current = parent.width ∧ (∀ token ∈ tokens, token.takesLines = false) ∧
      Reaches (atLine ((first, parent.line) :: lines) number levels begun) tokens
        (atLine lines first left true) := by
  obtain ⟨left, structural, entered, current, plain⟩ := @enterLevel_deeper _ first _ deeper
  refine ⟨left, structural ++ [.element parent.tag.text] ++
    parent.attributes.entries.map (fun entry => .literalAttribute entry.1.text entry.2.text),
    current, ?_, ?_⟩
  · simp only [List.mem_append, List.mem_singleton, List.mem_map]
    rintro token ((opening | rfl) | ⟨entry, -, rfl⟩)
    · exact plain token opening
    · rfl
    · rfl
  · have tagged := (@passes_construct levels false begun parent.width first number '%' _ lines _ _ _
      _ _ (by decide) entered (readConstruct_element parent.tag parent.attributes _ rfl)
      (by simp)).reaches
    rw [if_neg Bool.false_ne_true, List.append_nil, List.map_append, tokens_onLine, tokens_onLine,
      ← parent.line_eq] at tagged
    exact tagged.trans (reaches_attributes parent.attributes)

/-- Parents that are each deeper than the one before are scanned without a fault. -/
theorem run_chain {parents : List Parent} {levels : Levels} {first number : Nat} {begun : Bool}
    (nested : parents.IsChain fun outer inner => outer.width < inner.width)
    (deeper : ∀ parent ∈ parents.head?, levels.current ≤ parent.width) :
    ∃ lexemes, (∀ lexeme ∈ lexemes, lexeme.token.takesLines = false) ∧
      (atLine (Source.numberFrom first (parents.map Parent.line)) number levels begun).run =
        (lexemes, none) := by
  induction parents generalizing levels first number begun with
  | nil =>
      have stepped : (atLine [] number levels begun).step =
          .ok (⟨⟨[], none, number⟩, (levels.dedentTo 0).2, .done, false, begun ||
            !(onLine number (List.replicate ((levels.dedentTo 0).1.getD 0) .dedent)).isEmpty⟩,
            onLine number (List.replicate ((levels.dedentTo 0).1.getD 0) .dedent)) := rfl
      refine ⟨onLine number (List.replicate ((levels.dedentTo 0).1.getD 0) .dedent), ?_, ?_⟩
      · intro lexeme member
        obtain ⟨token, dedent, rfl⟩ := List.mem_map.mp member
        rw [List.eq_of_mem_replicate dedent]
        rfl
      · rw [List.map_nil, Source.numberFrom, run_of_step (by simp [atLine]) stepped,
          run_of_done rfl, List.append_nil]
  | cons parent others ih =>
      obtain ⟨left, tokens, current, plain, reaches⟩ := @reaches_parent levels first number begun
        (Source.numberFrom (first + 1) (others.map Parent.line)) parent (deeper parent rfl)
      have inside : ∀ inner ∈ others.head?, left.current ≤ inner.width := by
        intro inner head
        rw [current]
        cases others with
        | nil => contradiction
        | cons second others =>
            cases head
            exact Nat.le_of_lt nested.rel
      obtain ⟨lexemes, later, ran⟩ := @ih left (first + 1) first true nested.tail inside
      obtain ⟨yielded, same, whole⟩ := reaches.run
      rw [ran] at whole
      refine ⟨yielded ++ lexemes, ?_, whole⟩
      intro lexeme member
      rcases List.mem_append.mp member with early | late
      · apply plain
        rw [← same]
        exact List.mem_map_of_mem early
      · exact later lexeme late

end Scanner

def Slot.beneath (parents : List Parent)
    (nested : parents.IsChain fun outer inner => outer.width < inner.width) (width : Nat)
    (below : Text) (broken : below.head?.all Text.isBreak = true) : Slot where
  above := Parent.chain parents
  width := width
  below := below
  scanned := by
    obtain ⟨lexemes, plain, ran⟩ := @Scanner.run_chain parents (Levels.ofBase 0) 1 1 false nested
      (fun _ _ => Nat.zero_le _)
    exact ⟨lexemes, tokenize_eq_ok_iff.mpr ⟨_, Parent.ofText_chain, ran⟩, plain⟩
  terminated := by
    rcases List.eq_nil_or_concat parents with rfl | ⟨outer, last, rfl⟩
    · rfl
    · simp [Parent.chain, Text.isBreak]
  uncontinued := by
    intro line last
    rw [Parent.lines_chain] at last
    obtain ⟨parent, -, rfl⟩ := List.mem_map.mp (List.mem_of_getLast? last)
    exact parent.getLast?_line
  broken := broken

end Stencil
