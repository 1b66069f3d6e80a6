import Mathlib.Algebra.Order.Group.Nat
import Stencil.Proofs.AttributeLayout
import Stencil.Proofs.Runs

/-! Attribute lists are read back, whatever their layout.

Each part of a list takes the scanner from in front of one text to in front of the next:
layout yields nothing, and an attribute yields its token.  So an element yields its tag and
the tokens of its attributes, however its list is laid out. -/

namespace Stencil

open Document (Name Line)

namespace AttributeList

/-! ### Reading values -/

open Source (QuotationReads Reads)

section Values

variable {quote : Quote} {multiline : Bool} {text value rest : Text}

/-- An escaped line is read back in front of whatever is read behind it. -/
theorem reads_escape {line : Text} (unbroken : '\n' ∉ line)
    (later : QuotationReads quote.sign multiline text value rest) :
    QuotationReads quote.sign multiline (quote.escape line ++ text) (line ++ value) rest := by
  induction line with
  | nil => exact later
  | cons character others ih =>
      simp only [List.mem_cons, not_or] at unbroken
      have visible : character ≠ '\n' := Ne.symm unbroken.1
      have behind := ih unbroken.2
      rw [quote.escape_cons, List.append_assoc]
      by_cases special : character = '\\' ∨ character = quote.sign
      · rw [if_pos special]
        exact behind.escape visible
      · rw [if_neg special]
        exact behind.plain visible (not_or.mp special).1 (not_or.mp special).2

/-- An escaped line begins with a space only if the line does, or if it is empty and what
follows does. -/
theorem head?_escape_append {line : Text} (unspaced : line.head? ≠ some ' ')
    (follows : text.head? ≠ some ' ') : (quote.escape line ++ text).head? ≠ some ' ' := by
  cases line with
  | nil => exact follows
  | cons character others =>
      have other : character ≠ ' ' := by simpa using unspaced
      rw [quote.escape_cons]
      split
      · simp
      · simpa using other

theorem reads_later (parts : List (Nat × { line : Line // line.text.head? ≠ some ' ' }))
    (rest : Text) :
    QuotationReads quote.sign true
        ((parts.flatMap fun part =>
          '\n' :: (Text.spaces part.1 ++ quote.escape part.2.val.text)) ++ quote.sign :: rest)
        (parts.flatMap fun part => ' ' :: part.2.val.text) rest ∧
      ((parts.flatMap fun part =>
          '\n' :: (Text.spaces part.1 ++ quote.escape part.2.val.text)) ++
            quote.sign :: rest).head? ≠ some ' ' := by
  induction parts with
  | nil =>
      constructor
      · exact .close rest ⟨quote.sign_ne.1, quote.sign_ne.2.1⟩
      · simpa using quote.sign_ne.2.2
  | cons part others ih =>
      obtain ⟨width, line, unspaced⟩ := part
      obtain ⟨later, follows⟩ := ih
      have whole := (reads_escape line.newline_not_mem later).lineBreak width
        (head?_escape_append unspaced follows)
      constructor
      · simpa using whole
      · simp

theorem Passage.reads (passage : Passage) (rest : Text)
    (fits : multiline = true ∨ passage.later = []) :
    QuotationReads quote.sign multiline (passage.written quote ++ quote.sign :: rest)
      passage.text rest := by
  obtain ⟨first, later⟩ := passage
  rw [written, Passage.text, List.append_assoc]
  apply reads_escape first.newline_not_mem
  rcases fits with rfl | none
  · exact (reads_later later rest).1
  · simp only at none
    rw [none]
    exact .close rest ⟨quote.sign_ne.1, quote.sign_ne.2.1⟩

end Values

/-! ### Reading attributes -/

def Follows (text : Text) : Prop :=
  ∃ next rest, text = next :: rest ∧ Source.mayFollowValue next = true

theorem stops_of_mayFollowValue {next : Char} (follows : Source.mayFollowValue next = true) :
    isNameCharacter next = false ∧ shortcutAttribute next = none ∧ next ≠ '=' ∧
      ∀ quote : Quote, next ≠ quote.sign := by
  simp only [Source.mayFollowValue, List.mem_cons, List.not_mem_nil, or_false,
    decide_eq_true_eq] at follows
  rcases follows with rfl | rfl | rfl | rfl | rfl | rfl | rfl <;>
    exact ⟨by decide, by decide, by decide, fun quote => by cases quote <;> decide⟩

theorem Entry.reads {source : Source} {rest : Text} (entry : Entry) (parentheses line : Nat)
    (fits : 0 < parentheses ∨ entry.isUnbroken = true) (follows : Follows rest)
    (unread : source.characters = entry.written ++ rest) :
    Reads (Scanner.readAttribute parentheses line source) entry.token rest := by
  obtain ⟨next, behind, rfl, follows⟩ := follows
  obtain ⟨stops, -, unassigned, unquoted⟩ := stops_of_mayFollowValue follows
  cases entry with
  | flag name =>
      obtain ⟨named, read, left⟩ :=
        Source.reads_readName .attributeName name.named stops unread
      refine ⟨named.peekChar.2, ?_, by rw [Source.characters_peekChar, left]⟩
      have peeked : named.peekChar.1 ≠ some '=' := by
        rw [Source.peekChar_fst, left, List.head?_cons]
        simpa using unassigned
      simp only [Scanner.readAttribute, read, if_neg peeked]
      rfl
  | assigned name quote value =>
      have whole : source.characters = name.text ++ '=' :: (quote.sign ::
          (value.written quote ++ quote.sign :: next :: behind)) := by
        rw [unread]
        simp [Entry.written]
      obtain ⟨named, read, left⟩ :=
        Source.reads_readName .attributeName name.named (by decide) whole
      have assigns : named.peekChar.1 = some '=' := by
        rw [Source.peekChar_fst, left, List.head?_cons]
      have opens : named.readChar.2.peekChar.1 = some quote.sign := by
        rw [Source.peekChar_fst, Source.characters_readChar, left, List.tail_cons, List.head?_cons]
      have inside : named.readChar.2.readChar.2.characters =
          value.written quote ++ quote.sign :: next :: behind := by
        rw [Source.characters_readChar, Source.characters_readChar, left, List.tail_cons,
          List.tail_cons]
      have several : decide (0 < parentheses) = true ∨ value.later = [] := by
        simpa [Entry.isUnbroken] using fits
      have quoted := Source.reads_readQuoted (value.reads (next :: behind) several) follows
        (unquoted quote) line inside
      simp only [Scanner.readAttribute, read, if_pos assigns, opens]
      cases quote with
      | double => exact quoted.map (Token.literalAttribute name.text)
      | single => exact quoted.map (Token.literalAttribute name.text)
      | code => exact quoted.map (Token.codeAttribute name.text)

theorem Entry.exists_start (entry : Entry) :
    ∃ first rest, entry.written = first :: rest ∧ isNameStart first = true := by
  cases entry with
  | flag name => exact name.exists_start
  | assigned name quote value =>
      obtain ⟨first, rest, same, start⟩ := name.exists_start
      exact ⟨first, _, by rw [Entry.written, same, List.cons_append], start⟩

/-! ### The scanner in a list -/

open Scanner (Reaches)

/-- A scanner in an attribute list at the outermost level, in front of a text. -/
structure Before (parentheses : Nat) (text : Text) (scanner : Scanner) : Prop where
  mode : scanner.mode = .pieces parentheses
  unread : scanner.source.characters = text
  levels : scanner.levels = Levels.ofBase 0

/-- From in front of one text the scanner comes in front of another, and yields tokens. -/
def Leads (outer : Nat) (text : Text) (tokens : List Token) (inner : Nat) (rest : Text) : Prop :=
  ∀ scanner, Before outer text scanner →
    ∃ last, Reaches scanner tokens last ∧ Before inner rest last

namespace Leads

variable {outer inner parentheses : Nat} {text middle rest : Text} {first second : List Token}

theorem refl (parentheses : Nat) (text : Text) : Leads parentheses text [] parentheses text :=
  fun scanner before => ⟨scanner, .refl scanner, before⟩

theorem trans (leads : Leads outer text first parentheses middle)
    (further : Leads parentheses middle second inner rest) :
    Leads outer text (first ++ second) inner rest := by
  intro scanner before
  obtain ⟨between, reaches, stands⟩ := leads scanner before
  obtain ⟨last, reachesLast, standsLast⟩ := further between stands
  exact ⟨last, reaches.trans reachesLast, standsLast⟩

theorem of_readPiece {tokens : List Token}
    (reads : ∀ source : Source, source.characters = text → ∃ after line,
      Scanner.readPiece outer source = .ok (after, .pieces inner, Scanner.onLine line tokens) ∧
        after.characters = rest) :
    Leads outer text tokens inner rest := by
  intro scanner before
  obtain ⟨source, levels, mode, pending, begun⟩ := scanner
  obtain ⟨reading, unread, base⟩ := before
  cases reading
  cases base
  obtain ⟨after, line, read, left⟩ := reads source unread
  have reaches := Reaches.of_step (by simp)
    (Scanner.step_pieces (Levels.ofBase 0) pending begun read)
  rw [Scanner.tokens_onLine] at reaches
  exact ⟨_, reaches, rfl, left, rfl⟩

theorem sign {character : Char}
    (reads : ∀ source : Source, source.peekChar.1 = some character →
      Scanner.readPiece outer source = .ok (source.readChar.2, .pieces inner, [])) :
    Leads outer (character :: rest) [] inner rest := by
  apply of_readPiece
  intro source unread
  have next : source.peekChar.1 = some character := by
    rw [Source.peekChar_fst, unread, List.head?_cons]
  refine ⟨source.readChar.2, 0, reads source next, ?_⟩
  rw [Source.characters_readChar, unread, List.tail_cons]

theorem space (parentheses : Nat) (rest : Text) :
    Leads parentheses (' ' :: rest) [] parentheses rest := by
  apply sign
  intro source next
  simp [Scanner.readPiece, next]

theorem newline (parentheses : Nat) (rest : Text) :
    Leads (parentheses + 1) ('\n' :: rest) [] (parentheses + 1) rest := by
  apply sign
  intro source next
  simp [Scanner.readPiece, next]

theorem opening (parentheses : Nat) (rest : Text) :
    Leads parentheses ('(' :: rest) [] (parentheses + 1) rest := by
  apply sign
  intro source next
  simp [Scanner.readPiece, next]

theorem closing (parentheses : Nat) (rest : Text) :
    Leads (parentheses + 1) (')' :: rest) [] parentheses rest := by
  apply sign
  intro source next
  simp [Scanner.readPiece, next]

theorem continuation (parentheses : Nat) (rest : Text) :
    Leads parentheses ('\\' :: '\n' :: rest) [] parentheses rest := by
  apply of_readPiece
  intro source unread
  have next : source.peekChar.1 = some '\\' := by
    rw [Source.peekChar_fst, unread, List.head?_cons]
  have ends : source.readChar.2.readChar.1 = some '\n' := by
    rw [Source.readChar_fst, Source.characters_readChar, unread, List.tail_cons, List.head?_cons]
  refine ⟨source.readChar.2.readChar.2, 0, ?_, ?_⟩
  · simp [Scanner.readPiece, next, ends, Scanner.onLine]
  · rw [Source.characters_readChar, Source.characters_readChar, unread, List.tail_cons,
      List.tail_cons]

theorem entry (entry : Entry) (fits : 0 < parentheses ∨ entry.isUnbroken = true)
    (follows : Follows rest) :
    Leads parentheses (entry.written ++ rest) [entry.token] parentheses rest := by
  apply of_readPiece
  intro source unread
  obtain ⟨first, others, same, start⟩ := entry.exists_start
  have next : source.peekChar.1 = some first := by
    rw [Source.peekChar_fst, unread, same, List.cons_append, List.head?_cons]
  obtain ⟨after, read, left⟩ := entry.reads parentheses source.lineNumber fits follows unread
  exact ⟨after, source.lineNumber, Scanner.readPiece_of_isNameStart next start read, left⟩

/-! Layout yields nothing. -/

theorem gap (gap : Gap) (parentheses : Nat) (rest : Text) :
    Leads (parentheses + 1) (gap.text ++ rest) [] (parentheses + 1) rest := by
  obtain ⟨text, blank⟩ := gap
  induction text with
  | nil => exact .refl _ _
  | cons character others ih =>
      simp only [List.all_cons, Bool.and_eq_true, Bool.or_eq_true, decide_eq_true_eq] at blank
      have later := ih blank.2
      rcases blank.1 with rfl | rfl
      · exact (space _ _).trans later
      · exact (newline _ _).trans later

theorem skips (skips : List Skip) (parentheses : Nat) (rest : Text) :
    Leads parentheses (skips.flatMap Skip.text ++ rest) [] parentheses rest := by
  induction skips with
  | nil => exact .refl _ _
  | cons skip others ih =>
      rw [List.flatMap_cons, List.append_assoc]
      cases skip with
      | space => exact (space _ _).trans ih
      | continuation => exact (continuation _ _).trans ih

end Leads

theorem Gap.follows (gap : Gap) (given : gap.text ≠ []) (rest : Text) :
    Follows (gap.text ++ rest) := by
  obtain ⟨text, blank⟩ := gap
  cases text with
  | nil => contradiction
  | cons character others =>
      simp only [List.all_cons, Bool.and_eq_true, Bool.or_eq_true, decide_eq_true_eq] at blank
      refine ⟨character, others ++ rest, rfl, ?_⟩
      rcases blank.1 with rfl | rfl <;> decide

theorem Separator.follows (separator : Separator) (rest : Text) :
    Follows (separator.text ++ rest) := by
  obtain ⟨skips, spaced⟩ := separator
  cases skips with
  | nil => contradiction
  | cons skip others =>
      cases skip with
      | space => exact ⟨' ', _, rfl, by decide⟩
      | continuation => exact ⟨'\\', _, rfl, by decide⟩

/-! ### Whole lists -/

theorem leads_entries {entries : List (Entry × Gap)} (rest : Text)
    (separated : ∀ entry ∈ entries.dropLast, entry.2.text ≠ []) :
    Leads 1 ((entries.flatMap fun entry => entry.1.written ++ entry.2.text) ++ ')' :: rest)
      (entries.map fun entry => entry.1.token) 1 (')' :: rest) := by
  induction entries with
  | nil => exact .refl _ _
  | cons entry others ih =>
      obtain ⟨first, gap⟩ := entry
      have later : Leads 1
          ((others.flatMap fun entry => entry.1.written ++ entry.2.text) ++ ')' :: rest)
          (others.map fun entry => entry.1.token) 1 (')' :: rest) := by
        apply ih
        intro entry member
        cases others with
        | nil => contradiction
        | cons second others => exact separated entry (List.mem_cons_of_mem _ member)
      have follows : Follows (gap.text ++
          ((others.flatMap fun entry => entry.1.written ++ entry.2.text) ++ ')' :: rest)) := by
        -- only behind the last attribute the gap may be empty, and there the list closes
        cases others with
        | nil =>
            by_cases given : gap.text = []
            · rw [given]
              exact ⟨')', rest, rfl, by decide⟩
            · exact gap.follows given _
        | cons second others => exact gap.follows (separated (first, gap) List.mem_cons_self) _
      rw [List.flatMap_cons, List.append_assoc, List.append_assoc]
      exact (Leads.entry first (.inl Nat.one_pos) follows).trans ((Leads.gap gap 0 _).trans later)

theorem leads_bare {entries : List (Separator × Entry)} {rest : Text}
    (unbroken : ∀ entry ∈ entries, entry.2.isUnbroken = true) (follows : Follows rest) :
    Leads 0 ((entries.flatMap fun entry => entry.1.text ++ entry.2.written) ++ rest)
        (entries.map fun entry => entry.2.token) 0 rest ∧
      Follows ((entries.flatMap fun entry => entry.1.text ++ entry.2.written) ++ rest) := by
  induction entries with
  | nil => exact ⟨.refl _ _, follows⟩
  | cons entry others ih =>
      obtain ⟨separator, first⟩ := entry
      obtain ⟨later, behind⟩ := ih (fun entry member => unbroken entry (List.mem_cons_of_mem _ member))
      rw [List.flatMap_cons, List.append_assoc, List.append_assoc]
      refine ⟨(Leads.skips separator.skips 0 _).trans ?_, separator.follows _⟩
      exact (Leads.entry first (.inr (unbroken _ List.mem_cons_self)) behind).trans later

theorem follows_newline (rest : Text) : Follows ('\n' :: rest) :=
  ⟨'\n', rest, rfl, by decide⟩

/-- Up to the end of the line of its last attribute, a list yields its tokens. -/
theorem leads_written (list : AttributeList) (rest : Text) :
    Leads 0 (list.written ++ '\n' :: rest) list.tokens 0 ('\n' :: rest) ∧
      Follows (list.written ++ '\n' :: rest) := by
  cases list with
  | parenthesised before entries separated =>
      constructor
      · have read := (leads_entries ('\n' :: rest) separated).trans (Leads.closing 0 _)
        have whole := (Leads.opening 0 _).trans ((Leads.gap before 0 _).trans read)
        simpa [written, tokens] using whole
      · exact ⟨'(', _, rfl, by decide⟩
  | bare entries unbroken => exact leads_bare unbroken (follows_newline rest)

/-! ### The line of the tag -/

theorem readConstruct_tag {number : Nat} {body rest : Text} {others : List (Nat × Text)}
    (tag : Name) (follows : Follows rest)
    (unread : (Source.mk others (some body) number).characters = tag.text ++ rest) :
    ∃ after, Scanner.readConstruct (Scanner.openingOf ('%' :: body)) 0 number
        ⟨others, some ('%' :: body), number⟩ =
          .ok (after, .pieces 0, Scanner.onLine number [.element tag.text]) ∧
      after.characters = rest := by
  obtain ⟨next, behind, rfl, follows⟩ := follows
  obtain ⟨stops, plain, -, -⟩ := stops_of_mayFollowValue follows
  obtain ⟨named, read, left⟩ := Source.reads_readName .elementName tag.named stops unread
  have shortcuts : named.readShortcuts = .ok ([], named.peekChar.2) := by
    apply Source.readShortcuts_of_none _ plain
    rw [Source.peekChar_fst, left, List.head?_cons]
  refine ⟨named.peekChar.2, ?_, by rw [Source.characters_peekChar, left]⟩
  simp [Scanner.openingOf, Scanner.readConstruct, Scanner.readElement, read,
    Scanner.startElement, shortcuts]

theorem reaches_element {number next : Nat} {line rest : Text} {others : List (Nat × Text)}
    (tag : Name) (follows : Follows rest)
    (unread : (Source.mk ((next, line) :: others) none number).characters =
      '%' :: (tag.text ++ rest)) :
    ∃ last, Reaches (Scanner.ofSource ⟨(next, line) :: others, none, number⟩)
      [.element tag.text] last ∧ Before 0 rest last := by
  rw [Source.characters_next] at unread
  cases line with
  | nil => simp at unread
  | cons character body =>
      rw [List.cons_append, List.cons.injEq] at unread
      obtain ⟨rfl, tagged⟩ := unread
      have inside : (Source.mk others (some body) next).characters = tag.text ++ rest := by
        rw [Source.characters_inside]
        exact tagged
      obtain ⟨after, read, left⟩ := readConstruct_tag tag follows inside
      have unindented : Text.leadingSpaces ('%' :: body) = 0 := by simp [Text.leadingSpaces]
      have looked : (Scanner.ofSource ⟨(next, '%' :: body) :: others, none, number⟩).step =
          .ok (⟨⟨(next, '%' :: body) :: others, none, number⟩, Levels.ofBase 0, .indentation, false,
            false⟩, []) := rfl
      have entered : Scanner.enterLevel (Text.leadingSpaces ('%' :: body)) next (Levels.ofBase 0) =
          .ok (Levels.ofBase 0, []) := by
        rw [unindented]
        rfl
      have stepped := @Scanner.step_indentation (Levels.ofBase 0) false false next number _ others
        _ _ _ _ _ entered (by rw [unindented]; exact read)
      have reaches := Reaches.step (by simp [Scanner.ofSource]) looked
        (Reaches.of_step (by simp) stepped)
      exact ⟨_, reaches, rfl, left, rfl⟩

/-- Behind the last attribute, the end of the text ends the list and the scanner. -/
theorem reaches_done {scanner : Scanner} (before : Before 0 ['\n'] scanner) :
    ∃ last, Reaches scanner [] last ∧ last.mode = .done := by
  obtain ⟨source, levels, mode, pending, begun⟩ := scanner
  obtain ⟨reading, unread, base⟩ := before
  cases reading
  cases base
  have next : source.peekChar.1 = some '\n' := by
    rw [Source.peekChar_fst, unread, List.head?_cons]
  have ended : source.readChar.2.peekLine = none := by
    apply Source.peekLine_of_characters
    rw [Source.characters_readChar, unread, List.tail_cons]
  have read : Scanner.readPiece 0 source = .ok (source.readChar.2, .lineStart, []) := by
    simp [Scanner.readPiece, next]
  have closed : (Scanner.mk source.readChar.2 (Levels.ofBase 0) .lineStart pending
        (begun || false)).step =
      .ok (⟨source.readChar.2, Levels.ofBase 0, .done, pending, begun || false⟩, []) := by
    have opened : (Levels.ofBase 0).dedentTo 0 = (some 0, Levels.ofBase 0) := rfl
    simp [Scanner.step, Scanner.act, Scanner.startLine, ended, opened, Scanner.onLine]
  have reaches := Reaches.step (by simp)
    (Scanner.step_pieces (Levels.ofBase 0) pending begun read) (Reaches.of_step (by simp) closed)
  exact ⟨_, reaches, rfl⟩

/-- An element with its attributes is read back from its tag and its list, whatever the layout
of the list. -/
theorem tokenize_written (tag : Name) (list : AttributeList) :
    ∃ lexemes : List Lexeme, tokenize ('%' :: (tag.text ++ list.written)) = .ok lexemes ∧
      lexemes.map Lexeme.token = .element tag.text :: list.tokens := by
  obtain ⟨next, line, others, number, loads, unread⟩ := ofText_element tag list
  obtain ⟨leads, follows⟩ := list.leads_written []
  obtain ⟨started, reachesTag, standsTag⟩ := reaches_element tag follows unread
  obtain ⟨listed, reachesList, standsList⟩ := leads started standsTag
  obtain ⟨last, reachesEnd, finished⟩ := reaches_done standsList
  obtain ⟨lexemes, yielded, ran⟩ := (reachesTag.trans (reachesList.trans reachesEnd)).run
  rw [Scanner.run_of_done finished, List.append_nil] at ran
  refine ⟨lexemes, tokenize_eq_ok_iff.mpr ⟨_, loads, ran⟩, ?_⟩
  rw [yielded, List.append_nil]
  rfl

end AttributeList

end Stencil
