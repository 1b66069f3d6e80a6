import Stencil.Proofs.DocumentScanning
import Stencil.Proofs.Exhaustion
import Stencil.Proofs.HeaderQuoting

/-! Shortcuts stand for attributes.

A tag with shortcuts, the same tag with its attributes written out, and shortcuts without a tag
are read in different ways.  All three take the scanner from the start of their line to one
state, in front of what follows on the line, and yield the same on their way.  What follows is
therefore read alike, with its faults. -/

namespace Stencil

open Document (Name Line isInline)

/-! ### Shortcuts as they are written -/

inductive ShortcutSign where
  | atSign
  | dot
  | hash
  | dollar
  deriving DecidableEq, Repr

namespace ShortcutSign

def character : ShortcutSign → Char
  | .atSign => '@'
  | .dot => '.'
  | .hash => '#'
  | .dollar => '$'

def name : ShortcutSign → Text
  | .atSign => "name".toList
  | .dot => "class".toList
  | .hash => "id".toList
  | .dollar => "string".toList

def meaning : ShortcutSign → Text → Text
  | .dollar, value => value.map fun character => if character = '_' then ' ' else character
  | _, value => value

theorem shortcutAttribute_character (sign : ShortcutSign) :
    shortcutAttribute sign.character = some sign.name := by
  cases sign <;> rfl

theorem shortcutValue_character (sign : ShortcutSign) (value : Text) :
    Source.shortcutValue sign.character value = sign.meaning value := by
  cases sign <;> rfl

end ShortcutSign

structure Shortcut where
  sign : ShortcutSign
  value : Text
  given : value ≠ []
  named : value.all isNameCharacter = true

namespace Shortcut

variable (shortcut : Shortcut) (tag : Name) (shortcuts : List Shortcut)

def text : Text :=
  shortcut.sign.meaning shortcut.value

def token : Token :=
  .literalAttribute shortcut.sign.name shortcut.text

def written : Text :=
  shortcut.sign.character :: shortcut.value

def assignment : Text :=
  shortcut.sign.name ++ "=\x22".toList ++ shortcut.text ++ ['\x22']

/-! An element in its three forms: with shortcuts behind its tag, with an attribute list, and
with shortcuts alone. -/

def tagged : Text :=
  '%' :: (tag.text ++ shortcuts.flatMap written)

def listed : Text :=
  '%' :: (tag.text ++ '(' :: ([' '].intercalate (shortcuts.map assignment) ++ [')']))

def untagged : Text :=
  shortcuts.flatMap written

/-- A text that is empty or begins with one of the characters. -/
def BeginsIn (characters : List Char) (text : Text) : Prop :=
  ∀ character ∈ text.head?, character ∈ characters

def closers : List Char :=
  [' ', '(', ':', '/']

theorem isNameCharacter_of_mem :
    ∀ character ∈ shortcut.value, isNameCharacter character = true :=
  List.all_eq_true.mp shortcut.named

theorem isNameCharacter_or_space {character : Char} (member : character ∈ shortcut.text) :
    isNameCharacter character = true ∨ character = ' ' := by
  have named := shortcut.isNameCharacter_of_mem
  obtain ⟨sign, value, given, _⟩ := shortcut
  cases sign with
  | atSign => exact .inl (named character member)
  | dot => exact .inl (named character member)
  | hash => exact .inl (named character member)
  | dollar =>
      obtain ⟨original, inside, rfl⟩ := List.mem_map.mp member
      split
      · exact .inr rfl
      · exact .inl (named original inside)

theorem all_isInline_text : shortcut.text.all isInline = true := by
  apply List.all_eq_true.mpr
  intro character member
  rcases shortcut.isNameCharacter_or_space member with named | rfl
  · exact Document.isInline_of_isNameCharacter named
  · decide

def entry : Name × Line :=
  (⟨shortcut.sign.name,
      Source.isName_of_shortcutAttribute shortcut.sign.shortcutAttribute_character⟩,
    ⟨shortcut.text, shortcut.all_isInline_text⟩)

theorem assignment_eq : shortcut.assignment = Document.assignment shortcut.entry := by
  have plain : shortcut.text.any Markup.Directive.isSpecial = false := by
    rw [List.any_eq_false]
    intro character member special
    rcases shortcut.isNameCharacter_or_space member with named | rfl
    · rcases Markup.Directive.isSpecial_iff.mp special with rfl | rfl <;> contradiction
    · contradiction
  have same : Document.quoted shortcut.entry.2.text = shortcut.text :=
    Markup.Directive.quoted_of_plain plain
  rw [Document.assignment, same]
  rfl

theorem intercalate_assignment :
    [' '].intercalate (shortcuts.map assignment) =
      [' '].intercalate ((shortcuts.map entry).map Document.assignment) := by
  rw [List.map_map]
  congr 1
  apply List.map_congr_left
  intro shortcut member
  exact shortcut.assignment_eq

/-! ### Reading shortcuts -/

theorem stops_of_beginsIn {text : Text} (ends : BeginsIn (closers ++ ['@', '.', '#', '$']) text) :
    isNameCharacter (text.headD '\n') = false ∧ text.head? ≠ some '\n' ∧
      text.headD '\n' ∉ ['\x22', '\x27', '\x60', '='] := by
  cases text with
  | nil => exact ⟨by decide, by simp, by decide⟩
  | cons character others =>
      have among := ends character rfl
      simp only [closers, List.cons_append, List.nil_append, List.mem_cons, List.not_mem_nil,
        or_false] at among
      rcases among with rfl | rfl | rfl | rfl | rfl | rfl | rfl | rfl <;>
        exact ⟨rfl, by simp, by simp⟩

theorem beginsIn_written {rest : Text} (ends : BeginsIn closers rest) :
    BeginsIn (closers ++ ['@', '.', '#', '$']) (shortcuts.flatMap written ++ rest) := by
  intro character next
  cases shortcuts with
  | nil => exact List.mem_append_left _ (ends character next)
  | cons shortcut others =>
      obtain rfl : shortcut.sign.character = character := Option.some.inj next
      cases shortcut.sign <;> decide

section Reading

variable {lines : List (Nat × Text)} {number : Nat} {rest : Text}

theorem readShortcutValue_written (behind : BeginsIn (closers ++ ['@', '.', '#', '$']) rest) :
    (Source.mk lines (some (shortcut.value ++ rest)) number).readShortcutValue
        shortcut.sign.character =
      .ok (shortcut.text, ⟨lines, some rest, number⟩) := by
  obtain ⟨stops, visible, plain⟩ := stops_of_beginsIn behind
  simp only [List.mem_cons, List.not_mem_nil, or_false, not_or] at plain
  have read := @Source.readWhile_within lines number _ _ _ shortcut.isNameCharacter_of_mem
    stops visible
  have unquoted : some (rest.headD '\n') ∉ [some '\x22', some '\x27', some '\x60'] := by
    simp only [List.mem_cons, Option.some.injEq, List.not_mem_nil, or_false, not_or]
    exact ⟨plain.1, plain.2.1, plain.2.2.1⟩
  have unassigned : some (rest.headD '\n') ≠ some '=' := by
    simpa only [ne_eq, Option.some.injEq] using plain.2.2.2
  have given : ¬shortcut.value.isEmpty = true := by simpa using shortcut.given
  simp only [Source.readShortcutValue, read, Source.peekChar_within, if_neg unquoted,
    if_neg unassigned, if_neg given, shortcut.sign.shortcutValue_character]
  rfl

theorem readShortcuts_written (ends : BeginsIn closers rest) :
    (Source.mk lines (some (shortcuts.flatMap written ++ rest)) number).readShortcuts =
      .ok (shortcuts.map fun shortcut => (shortcut.sign.name, shortcut.text),
        ⟨lines, some rest, number⟩) := by
  induction shortcuts with
  | nil =>
      have next : (Source.mk lines (some rest) number).peekChar =
          (some (rest.headD '\n'), ⟨lines, some rest, number⟩) :=
        Source.peekChar_within rest
      have plain : shortcutAttribute (rest.headD '\n') = none := by
        cases rest with
        | nil => rfl
        | cons character others =>
            have among := ends character rfl
            simp only [closers, List.mem_cons, List.not_mem_nil, or_false] at among
            rcases among with rfl | rfl | rfl | rfl <;> rfl
      rw [List.flatMap_nil, List.nil_append,
        Source.readShortcuts_of_none (congrArg Prod.fst next) plain, next]
      rfl
  | cons shortcut others ih =>
      rw [List.flatMap_cons, List.append_assoc]
      exact Source.readShortcuts_of_some rfl shortcut.sign.shortcutAttribute_character
        (shortcut.readShortcutValue_written (beginsIn_written others ends)) ih

end Reading

end Shortcut

/-! ### From the start of the line -/

namespace Scanner

open Shortcut (BeginsIn closers)

variable {lines : List (Nat × Text)} {number : Nat} {levels : Levels} {rest : Text}

theorem startElement_written (tag : Text) (line : Nat) (shortcuts : List Shortcut)
    (ends : BeginsIn closers rest) :
    startElement tag line ⟨lines, some (shortcuts.flatMap Shortcut.written ++ rest), number⟩ =
      .ok (⟨lines, some rest, number⟩, .pieces 0,
        onLine line (.element tag :: shortcuts.map Shortcut.token)) := by
  rw [startElement, Shortcut.readShortcuts_written shortcuts ends]
  simp only [List.map_map]
  rfl

theorem readConstruct_tagged (tag : Name) (width line : Nat) (shortcuts : List Shortcut)
    (ends : BeginsIn closers rest) :
    readConstruct (openingOf (Shortcut.tagged tag shortcuts ++ rest)) width line
        ⟨lines, some (Shortcut.tagged tag shortcuts ++ rest), number⟩ =
      .ok (⟨lines, some rest, number⟩, .pieces 0,
        onLine line (.element tag.text :: shortcuts.map Shortcut.token)) := by
  obtain ⟨stops, visible, -⟩ := Shortcut.stops_of_beginsIn (Shortcut.beginsIn_written shortcuts ends)
  have read := @Source.readName_within lines number _ _ .elementName tag.named stops visible
  rw [Shortcut.tagged, List.cons_append, List.append_assoc]
  have opening : openingOf ('%' :: (tag.text ++ (shortcuts.flatMap Shortcut.written ++ rest))) =
      .element := by
    simp [openingOf]
  have body : (Source.mk lines (some ('%' :: (tag.text ++
        (shortcuts.flatMap Shortcut.written ++ rest)))) number).readChar.2 =
      ⟨lines, some (tag.text ++ (shortcuts.flatMap Shortcut.written ++ rest)), number⟩ := rfl
  rw [opening, readConstruct, readElement, body, read]
  exact startElement_written tag.text line shortcuts ends

theorem readConstruct_untagged (width line : Nat) {shortcuts : List Shortcut}
    (given : shortcuts ≠ []) (ends : BeginsIn closers rest) :
    readConstruct (openingOf (Shortcut.untagged shortcuts ++ rest)) width line
        ⟨lines, some (Shortcut.untagged shortcuts ++ rest), number⟩ =
      .ok (⟨lines, some rest, number⟩, .pieces 0,
        onLine line (.element implicitTag :: shortcuts.map Shortcut.token)) := by
  have opening : openingOf (Shortcut.untagged shortcuts ++ rest) = .shortcut := by
    cases shortcuts with
    | nil => contradiction
    | cons shortcut others =>
        have other : shortcut.sign.character ≠ '%' := by cases shortcut.sign <;> decide
        simp [Shortcut.untagged, Shortcut.written, openingOf, other,
          shortcut.sign.shortcutAttribute_character]
  rw [opening, readConstruct]
  exact startElement_written implicitTag line shortcuts ends

/-- From the start of its line, in front of whatever ends shortcuts, a text is read as an element
with the tokens. -/
def Introduces (lead : Text) (tokens : List Token) : Prop :=
  ∀ (width line last : Nat) (lines : List (Nat × Text)) (rest : Text) (levels inner : Levels)
    (structural : List Lexeme) (pending begun : Bool), BeginsIn closers rest →
    enterLevel width line levels = .ok (inner, structural) →
    Passes ⟨⟨(line, Text.spaces width ++ (lead ++ rest)) :: lines, none, last⟩, levels, .lineStart,
        pending, begun⟩
      (structural ++ (if pending then onLine line [.blankLine] else []) ++ onLine line tokens)
      (atPiece lines rest line inner 0)

theorem introduces_of_readConstruct {lead : Text} {character : Char} {more : Text}
    {tokens : List Token} (begins : lead = character :: more)
    (visible : Text.isBlank character = false) (given : tokens ≠ [])
    (read : ∀ (width line : Nat) (lines : List (Nat × Text)) (rest : Text), BeginsIn closers rest →
      readConstruct (openingOf (lead ++ rest)) width line ⟨lines, some (lead ++ rest), line⟩ =
        .ok (⟨lines, some rest, line⟩, .pieces 0, onLine line tokens)) :
    Introduces lead tokens := by
  intro width line last lines rest levels inner structural pending begun ends entered
  subst begins
  have yielded (lexemes : List Lexeme) : (lexemes ++ onLine line tokens).isEmpty = false := by
    simp [onLine, given]
  have passes := @passes_line levels pending begun width line last character (more ++ rest) lines
    _ _ _ _ _ visible entered (read width line lines rest ends)
  rw [yielded, Bool.not_false, Bool.or_true] at passes
  exact passes

theorem introduces_tagged (tag : Name) (shortcuts : List Shortcut) :
    Introduces (Shortcut.tagged tag shortcuts)
      (.element tag.text :: shortcuts.map Shortcut.token) :=
  introduces_of_readConstruct rfl (by decide) (by simp)
    (fun width line _ _ ends => readConstruct_tagged tag width line shortcuts ends)

theorem introduces_untagged {shortcuts : List Shortcut} (given : shortcuts ≠ []) :
    Introduces (Shortcut.untagged shortcuts)
      (.element implicitTag :: shortcuts.map Shortcut.token) := by
  cases shortcuts with
  | nil => contradiction
  | cons shortcut others =>
      have visible : Text.isBlank shortcut.sign.character = false := by
        cases shortcut.sign <;> decide
      exact introduces_of_readConstruct rfl visible (by simp)
        (fun width line _ _ ends => readConstruct_untagged width line given ends)

/-- The tag alone is the tag with no shortcuts, and the list stands behind it. -/
theorem introduces_listed (tag : Name) (shortcuts : List Shortcut) :
    Introduces (Shortcut.listed tag shortcuts)
      (.element tag.text :: shortcuts.map Shortcut.token) := by
  intro width line last lines rest levels inner structural pending begun ends entered
  have parts : Shortcut.listed tag shortcuts ++ rest = Shortcut.tagged tag [] ++ '(' ::
      ([' '].intercalate ((shortcuts.map Shortcut.entry).map Document.assignment) ++
        ')' :: rest) := by
    rw [← Shortcut.intercalate_assignment]
    simp [Shortcut.listed, Shortcut.tagged]
  have opens : BeginsIn closers ('(' :: ([' '].intercalate ((shortcuts.map Shortcut.entry).map
      Document.assignment) ++ ')' :: rest)) := by
    simp [BeginsIn, closers]
  have tokens : (shortcuts.map Shortcut.entry).map
        (fun entry => Token.literalAttribute entry.1.text entry.2.text) =
      shortcuts.map Shortcut.token := by
    rw [List.map_map]
    rfl
  have tagRead := introduces_tagged tag [] width line last lines _ levels inner structural pending
    begun opens entered
  have listRead := @passes_list lines line inner (shortcuts.map Shortcut.entry) rest
  have whole := tagRead.trans listRead
  rw [tokens, List.append_assoc] at whole
  rw [parts]
  exact whole

theorem Introduces.first {lead : Text} {tokens : List Token} {width : Nat}
    (introduces : Introduces lead tokens) (ends : BeginsIn closers rest)
    (entered : enterLevel width 1 (Levels.ofBase 0) =
      .ok (levels, onLine 1 (if 0 < width then [.indent] else [])))
    (lines : List (Nat × Text)) :
    Passes (ofSource ⟨(1, Text.spaces width ++ (lead ++ rest)) :: lines, none, 1⟩)
      (onLine 1 ((if 0 < width then [.indent] else []) ++ tokens))
      (atPiece lines rest 1 levels 0) := by
  have passes := introduces width 1 1 lines rest _ _ _ false false ends entered
  have parts : onLine 1 ((if 0 < width then [.indent] else []) ++ tokens) =
      onLine 1 (if 0 < width then [.indent] else []) ++ [] ++ onLine 1 tokens := by
    rw [List.append_nil]
    exact List.map_append
  rw [parts]
  exact passes

end Scanner

/-! ### The first line of a text -/

namespace Text

theorem unifyBreaks_break {character : Char} (others : Text)
    (breaks : character = '\n' ∨ character = '\r') :
    ∃ later, unifyBreaks (character :: others) = '\n' :: later := by
  rcases breaks with rfl | rfl
  · exact ⟨unifyBreaks others, @unifyBreaks_append ['\n'] others (by decide)⟩
  · have joined : ∃ first later, joinReturns ('\r' :: others) = first :: later ∧
        (first = '\n' ∨ first = '\r') := by
      unfold joinReturns
      split
      · contradiction
      · exact ⟨_, _, rfl, .inl rfl⟩
      · rename_i first rest _ same
        rw [List.cons.injEq] at same
        exact ⟨_, _, rfl, .inr same.1.symm⟩
    obtain ⟨first, later, same, breaks⟩ := joined
    refine ⟨later.map fun character => if character = '\r' then '\n' else character, ?_⟩
    rw [unifyBreaks, same, List.map_cons]
    rcases breaks with rfl | rfl <;> rfl

end Text

namespace Source

/-- A text within a line with which an element begins. -/
structure Opens (lead : Text) : Prop where
  inline : lead.all isInline = true
  signed : ∃ sign ∈ lead.head?, sign ∈ ['%', '@', '.', '#', '$']

theorem Opens.ofText_eq {lead : Text} (opens : Opens lead) (width : Nat) (rest : Text) :
    ofText (Text.spaces width ++ (lead ++ rest)) =
        ofLines 1 (Text.spaces width ++ (lead ++ rest.unifyBreaks)) ∧
      Text.lines (Text.spaces width ++ (lead ++ rest.unifyBreaks)) =
        (Text.spaces width ++ (lead ++ rest.unifyBreaks.lines.headD [])) ::
          rest.unifyBreaks.lines.tail ∧
      ∀ character ∈ Text.spaces width ++ lead, isDisallowed character = false := by
  obtain ⟨inline, sign, begins, among⟩ := opens
  obtain ⟨more, rfl⟩ := List.head?_eq_some_iff.mp begins
  have fits : (Text.spaces width ++ sign :: more).all isInline = true := by
    rw [List.all_append, inline, Document.all_isInline_spaces]
    rfl
  let line : Line := ⟨Text.spaces width ++ sign :: more, fits⟩
  have unified := Text.unifyBreaks_append rest line.return_not_mem
  have lines := @Text.lines_append line.text rest.unifyBreaks (by simp [line]) line.newline_not_mem
  have unmarked (after : Text) :
      Encoding.pragma (Text.spaces width ++ (sign :: more ++ after)) = none := by
    simp only [List.mem_cons, List.not_mem_nil, or_false] at among
    apply Encoding.pragma_indented
    · rcases among with rfl | rfl | rfl | rfl | rfl <;> rfl
    · rcases among with rfl | rfl | rfl | rfl | rfl <;> decide
  simp only [line, List.append_assoc] at unified lines
  refine ⟨?_, lines, line.allowed⟩
  rw [ofText]
  simp only [unified, lines, List.headD_cons, unmarked]

/-- However the first element is written, the text behind it is refused for the same reason or
loaded with the same lines. -/
theorem ofText_opens (width : Nat) (rest : Text) :
    (∃ fault, ∀ lead, Opens lead → ofText (Text.spaces width ++ (lead ++ rest)) = .error fault) ∨
      ∀ lead, Opens lead → ofText (Text.spaces width ++ (lead ++ rest)) =
        .ok ⟨(1, Text.spaces width ++ (lead ++ rest.unifyBreaks.lines.headD [])) ::
          numberFrom 2 rest.unifyBreaks.lines.tail, none, 1⟩ := by
  cases found : firstDisallowed ((1, rest.unifyBreaks.lines.headD []) ::
      numberFrom 2 rest.unifyBreaks.lines.tail) with
  | some refused =>
      left
      refine ⟨.invalidCharacter refused.1 refused.2, ?_⟩
      intro lead opens
      obtain ⟨loaded, lines, allowed⟩ := opens.ofText_eq width rest
      rw [loaded, ofLines, lines, numberFrom]
      simp only [← List.append_assoc]
      rw [firstDisallowed_append allowed, found]
  | none =>
      right
      intro lead opens
      obtain ⟨loaded, lines, allowed⟩ := opens.ofText_eq width rest
      rw [loaded, ofLines, lines, numberFrom]
      simp only [← List.append_assoc]
      rw [firstDisallowed_append allowed, found]

end Source

/-! ### Whole texts -/

def Feed.results (text : Text) : Except Fault (Nat → Option (Except Fault Lexeme)) :=
  (Source.ofText text).map fun source => (ofSource source).handed

namespace Shortcut

theorem all_isInline_written (shortcuts : List Shortcut) :
    (shortcuts.flatMap written).all isInline = true := by
  rw [List.all_flatMap]
  apply List.all_eq_true.mpr
  intro shortcut member
  have sign : isInline shortcut.sign.character = true := by cases shortcut.sign <;> decide
  rw [written, List.all_cons, sign, Bool.true_and]
  apply List.all_eq_true.mpr
  intro character inside
  exact Document.isInline_of_isNameCharacter (shortcut.isNameCharacter_of_mem character inside)

theorem opens_tagged (tag : Name) (shortcuts : List Shortcut) :
    Source.Opens (tagged tag shortcuts) where
  inline := by
    have sign : isInline '%' = true := by decide
    rw [tagged, List.all_cons, List.all_append, sign, tag.all_isInline,
      all_isInline_written shortcuts]
    rfl
  signed := ⟨'%', rfl, by simp⟩

theorem opens_untagged {shortcuts : List Shortcut} (given : shortcuts ≠ []) :
    Source.Opens (untagged shortcuts) where
  inline := all_isInline_written shortcuts
  signed := by
    cases shortcuts with
    | nil => contradiction
    | cons shortcut others =>
        refine ⟨shortcut.sign.character, rfl, ?_⟩
        cases shortcut.sign <;> decide

theorem opens_listed (tag : Name) (shortcuts : List Shortcut) :
    Source.Opens (listed tag shortcuts) where
  inline := by
    have signs : isInline '%' = true ∧ isInline '(' = true ∧ isInline ')' = true := by decide
    have list : ([' '].intercalate (shortcuts.map assignment)).all isInline = true := by
      rw [intercalate_assignment]
      exact Document.all_isInline_entries _
    rw [listed, List.all_cons, List.all_append, List.all_cons, List.all_append, tag.all_isInline,
      list]
    simp [signs]
  signed := ⟨'%', rfl, by simp⟩

theorem beginsIn_firstLine {rest : Text} (ends : BeginsIn (closers ++ ['\n', '\r']) rest) :
    BeginsIn closers (rest.unifyBreaks.lines.headD []) := by
  cases rest with
  | nil => simp [BeginsIn, Text.unifyBreaks, Text.joinReturns, Text.lines]
  | cons character others =>
      by_cases breaks : character = '\n' ∨ character = '\r'
      · obtain ⟨later, unified⟩ := Text.unifyBreaks_break others breaks
        have first : Text.lines ('\n' :: later) = [] :: Text.lines later :=
          @Text.lines_newline [] later List.not_mem_nil
        rw [unified, first]
        simp [BeginsIn, closers]
      · rw [not_or] at breaks
        have unified : Text.unifyBreaks (character :: others) =
            character :: Text.unifyBreaks others :=
          @Text.unifyBreaks_append [character] others (by simpa using Ne.symm breaks.2)
        have first := @Text.lines_append [character] (Text.unifyBreaks others) (by simp)
          (by simpa using Ne.symm breaks.1)
        rw [List.singleton_append] at first
        have visible : character ∉ ['\n', '\r'] := by simpa using breaks
        rw [unified, first]
        intro next begins
        obtain rfl : character = next := Option.some.inj begins
        exact (List.mem_append.mp (ends character rfl)).resolve_right visible

end Shortcut

namespace Feed

open Shortcut (BeginsIn closers)

theorem handed_of_run {first second : Source}
    (same : (Scanner.ofSource first).run = (Scanner.ofSource second).run) :
    (ofSource first).handed = (ofSource second).handed := by
  funext index
  rw [handed_eq, handed_eq]
  simp only [items, ofSource, same]

theorem results_of_introduces {first second rest : Text} {tokens : List Token} (width : Nat)
    (ends : BeginsIn (closers ++ ['\n', '\r']) rest) (opensFirst : Source.Opens first)
    (opensSecond : Source.Opens second) (introducesFirst : Scanner.Introduces first tokens)
    (introducesSecond : Scanner.Introduces second tokens) :
    results (Text.spaces width ++ (first ++ rest)) =
      results (Text.spaces width ++ (second ++ rest)) := by
  unfold results
  rcases Source.ofText_opens width rest with ⟨fault, refused⟩ | loads
  · rw [refused first opensFirst, refused second opensSecond]
  · obtain ⟨levels, entered⟩ := Scanner.enterLevel_ofBase width 1
    have runsFirst := (introducesFirst.first (Shortcut.beginsIn_firstLine ends) entered
      (Source.numberFrom 2 rest.unifyBreaks.lines.tail)).runs
    have runsSecond := (introducesSecond.first (Shortcut.beginsIn_firstLine ends) entered
      (Source.numberFrom 2 rest.unifyBreaks.lines.tail)).runs
    rw [loads first opensFirst, loads second opensSecond]
    exact congrArg Except.ok (handed_of_run (Eq.trans runsFirst (Eq.symm runsSecond)))

end Feed

namespace Shortcut

/-- Whatever follows it on its line and on the lines behind, an element with shortcuts is read as
the same element with its attributes written out, and the tag of a field may be left out. -/
theorem results_shortcuts (width : Nat) (tag : Name) (shortcuts : List Shortcut) {rest : Text}
    (ends : BeginsIn (closers ++ ['\n', '\r']) rest) :
    Feed.results (Text.spaces width ++ (tagged tag shortcuts ++ rest)) =
      Feed.results (Text.spaces width ++ (listed tag shortcuts ++ rest)) ∧
    (tag.text = implicitTag → shortcuts ≠ [] →
      Feed.results (Text.spaces width ++ (untagged shortcuts ++ rest)) =
        Feed.results (Text.spaces width ++ (listed tag shortcuts ++ rest))) ∧
    ∀ source, Source.ofText (Text.spaces width ++ (listed tag shortcuts ++ rest)) = .ok source →
      ∃ last, Scanner.Passes (Scanner.ofSource source)
        (Scanner.onLine 1 ((if 0 < width then [.indent] else []) ++
          .element tag.text :: shortcuts.map token)) last := by
  have opens := opens_listed tag shortcuts
  have introduces := Scanner.introduces_listed tag shortcuts
  refine ⟨?_, ?_, ?_⟩
  · exact Feed.results_of_introduces width ends (opens_tagged tag shortcuts) opens
      (Scanner.introduces_tagged tag shortcuts) introduces
  · intro field given
    rw [field] at introduces
    exact Feed.results_of_introduces width ends (opens_untagged given) opens
      (Scanner.introduces_untagged given) introduces
  · intro source loaded
    rcases Source.ofText_opens width rest with ⟨fault, refused⟩ | loads
    · rw [refused _ opens] at loaded
      contradiction
    · rw [loads _ opens] at loaded
      cases loaded
      obtain ⟨levels, entered⟩ := Scanner.enterLevel_ofBase width 1
      exact ⟨_, introduces.first (Shortcut.beginsIn_firstLine ends) entered _⟩

/-- A class and a text of two words, in front of a flag, a slash and a line with a fault. -/
theorem results_shortcuts_field :
    Feed.results "  %field.a-1$b_c(d) / e\r\n%".toList =
        Feed.results "  %field(class=\x22a-1\x22 string=\x22b c\x22)(d) / e\r\n%".toList ∧
      Feed.results "  .a-1$b_c(d) / e\r\n%".toList =
        Feed.results "  %field(class=\x22a-1\x22 string=\x22b c\x22)(d) / e\r\n%".toList ∧
      ∃ source last,
        Source.ofText "  %field(class=\x22a-1\x22 string=\x22b c\x22)(d) / e\r\n%".toList =
          .ok source ∧
        Scanner.Passes (Scanner.ofSource source)
          [⟨.indent, 1⟩, ⟨.element "field".toList, 1⟩,
            ⟨.literalAttribute "class".toList "a-1".toList, 1⟩,
            ⟨.literalAttribute "string".toList "b c".toList, 1⟩] last := by
  let tag : Name := ⟨implicitTag, by decide⟩
  let shortcuts : List Shortcut :=
    [⟨.dot, "a-1".toList, by decide, by decide⟩, ⟨.dollar, "b_c".toList, by decide, by decide⟩]
  have ends : BeginsIn (closers ++ ['\n', '\r']) "(d) / e\r\n%".toList := by simp [BeginsIn, closers]
  have loaded : Source.ofText
        "  %field(class=\x22a-1\x22 string=\x22b c\x22)(d) / e\r\n%".toList =
      .ok ⟨[(1, "  %field(class=\x22a-1\x22 string=\x22b c\x22)(d) / e".toList),
        (2, "%".toList)], none, 1⟩ := by
    rfl
  obtain ⟨tagged, untagged, yields⟩ := results_shortcuts 2 tag shortcuts ends
  obtain ⟨last, passes⟩ := yields _ loaded
  exact ⟨tagged, untagged rfl (by simp [shortcuts]), _, last, loaded, passes⟩

end Shortcut

end Stencil
