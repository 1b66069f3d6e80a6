import Mathlib.Order.Monotone.Basic
import Stencil.Proofs.Scanning

/-! Reading on from inside a line.

Names, shortcuts and bare values end inside the line in which they start, so that the
lines after it do not matter.  A quoted value may go over the end of its line, and then
the spaces at the start of the next line are dropped.  What is read from inside a line is
therefore the same after the lines that follow were indented and numbered anew. -/

namespace Stencil

/-! ### Leading spaces -/

namespace Text

theorem dropWhile_space (line : Text) :
    line.dropWhile (· = ' ') = line.drop line.leadingSpaces := by
  induction line with
  | nil => rfl
  | cons character rest ih =>
      by_cases space : character = ' '
      · simpa [leadingSpaces, space] using ih
      · simp [leadingSpaces, space]

theorem takeWhile_space (line : Text) :
    line.takeWhile (· = ' ') = spaces line.leadingSpaces := by
  rw [spaces, leadingSpaces, List.eq_replicate_iff]
  refine ⟨rfl, ?_⟩
  intro character member
  have passes := List.all_eq_true.mp List.all_takeWhile character member
  simpa using passes

theorem spaces_append_drop (line : Text) :
    spaces line.leadingSpaces ++ line.drop line.leadingSpaces = line := by
  rw [← dropWhile_space, ← takeWhile_space]
  exact List.takeWhile_append_dropWhile

theorem head?_drop_leadingSpaces (line : Text) :
    (line.drop line.leadingSpaces).head? ≠ some ' ' := by
  intro spaced
  have stopped := List.head?_dropWhile_not (fun character : Char => decide (character = ' ')) line
  rw [dropWhile_space, spaced] at stopped
  simp at stopped

theorem leadingSpaces_spaces_append (width : Nat) {body : Text} (visible : body.head? ≠ some ' ') :
    leadingSpaces (spaces width ++ body) = width := by
  cases body with
  | nil => simp [leadingSpaces, spaces]
  | cons character rest =>
      have other : character ≠ ' ' := by simpa using visible
      simp [leadingSpaces, spaces, other]

theorem leadingSpaces_spaces (width : Nat) : (spaces width).leadingSpaces = width := by
  have unspaced : ([] : Text).head? ≠ some ' ' := by simp
  have counted := leadingSpaces_spaces_append width unspaced
  rwa [List.append_nil] at counted

theorem isAllBlank_spaces (width : Nat) : isAllBlank (spaces width) = true := by
  simp [isAllBlank, spaces, isBlank]

/-- A line whose leading spaces are counted anew. -/
def reindent (width : Nat → Nat) (line : Text) : Text :=
  spaces (width line.leadingSpaces) ++ line.drop line.leadingSpaces

variable {width : Nat → Nat} {line : Text}

@[simp] theorem leadingSpaces_reindent :
    (reindent width line).leadingSpaces = width line.leadingSpaces :=
  leadingSpaces_spaces_append _ (head?_drop_leadingSpaces line)

@[simp] theorem drop_reindent :
    (reindent width line).drop (width line.leadingSpaces) = line.drop line.leadingSpaces := by
  rw [reindent]
  exact List.drop_left' (by simp [spaces])

theorem reindent_id : reindent id line = line :=
  spaces_append_drop line

theorem mem_reindent {character : Char} (visible : character ≠ ' ') :
    character ∈ reindent width line ↔ character ∈ line := by
  have spaced (count : Nat) : character ∉ spaces count := by simp [spaces, visible]
  conv_rhs => rw [← spaces_append_drop line]
  simp [reindent, spaced]

end Text

/-! ### Reading within a line -/

namespace Source

section Within

variable {lines : List (Nat × Text)} {number : Nat}

@[simp] theorem readChar_within (character : Char) (rest : Text) :
    (Source.mk lines (some (character :: rest)) number).readChar =
      (some character, ⟨lines, some rest, number⟩) := rfl

@[simp] theorem readChar_lineEnd :
    (Source.mk lines (some []) number).readChar = (some '\n', ⟨lines, none, number⟩) := rfl

@[simp] theorem peekChar_within (rest : Text) :
    (Source.mk lines (some rest) number).peekChar =
      (some (rest.headD '\n'), ⟨lines, some rest, number⟩) := by
  cases rest <;> rfl

@[simp] theorem readLine_within (rest : Text) :
    (Source.mk lines (some rest) number).readLine = (some rest, ⟨lines, none, number⟩) := rfl

theorem readLine_of_fill {source : Source} {rest : Text}
    (filled : source.fill = ⟨lines, some rest, number⟩) :
    source.readLine = (some rest, ⟨lines, none, number⟩) := by
  obtain ⟨unread, current, last⟩ := source
  cases current with
  | some text =>
      cases filled
      rfl
  | none =>
      cases unread with
      | nil => simp [fill] at filled
      | cons line others =>
          cases filled
          rfl

theorem fill_skip_spaces {source : Source} {rest : Text} (width : Nat)
    (filled : source.fill = ⟨lines, some (Text.spaces width ++ rest), number⟩) :
    (source.skip width).fill = ⟨lines, some rest, number⟩ := by
  induction width generalizing source with
  | zero => exact filled
  | succ width ih =>
      refine ih ?_
      have read : source.readChar.2 = source.fill.tail := rfl
      rw [read, filled]
      rfl

theorem eq_ended_of_readChar {source : Source} (next : source.readChar.1 = none) :
    source = ⟨[], none, source.number⟩ := by
  obtain ⟨lines, current, number⟩ := source
  match current, lines with
  | none, [] => rfl
  | none, (_, []) :: _ => contradiction
  | none, (_, _ :: _) :: _ => contradiction
  | some [], _ => contradiction
  | some (_ :: _), _ => contradiction

@[simp] theorem readChar_fill (source : Source) : source.fill.readChar = source.readChar := by
  simp [readChar]

@[simp] theorem peekChar_fill (source : Source) : source.fill.peekChar = source.peekChar := by
  simp [peekChar]

@[simp] theorem readLine_fill (source : Source) : source.fill.readLine = source.readLine := by
  obtain ⟨lines, current, number⟩ := source
  match current, lines with
  | some rest, lines => rfl
  | none, [] => rfl
  | none, (next, line) :: others => rfl

@[simp] theorem lineNumber_fill (source : Source) : source.fill.lineNumber = source.lineNumber := by
  obtain ⟨lines, current, number⟩ := source
  match current, lines with
  | some rest, lines => rfl
  | none, [] => rfl
  | none, (next, line) :: others => rfl

theorem readWhile_within {test : Char → Bool} {text after : Text}
    (passes : ∀ character ∈ text, test character = true)
    (stops : test (after.headD '\n') = false) (visible : after.head? ≠ some '\n') :
    (Source.mk lines (some (text ++ after)) number).readWhile test =
      (text, ⟨lines, some after, number⟩) := by
  induction text with
  | nil =>
      rw [List.nil_append, readWhile]
      cases after with
      | nil => simp_all [unreadChar, park]
      | cons character rest =>
          have fails : test character = false := stops
          have unbroken : character ≠ '\n' := by simpa using visible
          simp [fails, unreadChar, unbroken]
  | cons character rest ih =>
      have later := ih (fun other member => passes other (by simp [member]))
      rw [List.cons_append, readWhile]
      simp [passes character (by simp), later]

theorem readWhile_line {test : Char → Bool} (stops : test '\n' = false) {rest : Text}
    (unbroken : '\n' ∉ rest) :
    (Source.mk lines (some rest) number).readWhile test =
      (rest.takeWhile test, ⟨lines, some (rest.dropWhile test), number⟩) := by
  have passes : ∀ character ∈ rest.takeWhile test, test character = true :=
    List.all_eq_true.mp List.all_takeWhile
  have whole : rest.takeWhile test ++ rest.dropWhile test = rest :=
    List.takeWhile_append_dropWhile
  have fails : test ((rest.dropWhile test).headD '\n') = false := by
    cases left : rest.dropWhile test with
    | nil => exact stops
    | cons character others =>
        have stopped := List.head?_dropWhile_not test rest
        rw [left] at stopped
        simpa using stopped
  have visible : (rest.dropWhile test).head? ≠ some '\n' := by
    intro next
    apply unbroken
    exact (List.dropWhile_suffix test).subset (List.mem_of_mem_head? next)
  conv_lhs => rw [← whole]
  exact readWhile_within passes fails visible

theorem skipSpaces_eq (source : Source) :
    source.skipSpaces =
      if source.peekChar.1 = some ' ' then source.readChar.2.skipSpaces
      else source.peekChar.2 := by
  rw [skipSpaces]
  split
  · rename_i next
    simp [next]
  · rename_i character next
    simp [next]

@[simp] theorem skipSpaces_within (rest : Text) :
    (Source.mk lines (some rest) number).skipSpaces =
      ⟨lines, some (rest.drop rest.leadingSpaces), number⟩ := by
  rw [← Text.dropWhile_space]
  induction rest with
  | nil => simp [skipSpaces_eq]
  | cons character others ih =>
      rw [skipSpaces_eq]
      by_cases space : character = ' '
      · simp [space, ih]
      · simp [space]

theorem skipSpaces_fill (source : Source) : source.fill.skipSpaces = source.skipSpaces := by
  rw [skipSpaces_eq, skipSpaces_eq source, peekChar_fill, readChar_fill]

@[simp] theorem readWhile_fill (test : Char → Bool) (source : Source) :
    source.fill.readWhile test = source.readWhile test := by
  obtain ⟨lines, current, number⟩ := source
  match current, lines with
  | some rest, lines => rfl
  | none, [] => rfl
  | none, (next, line) :: others =>
      rw [readWhile, readWhile.eq_def test (Source.mk _ none number)]
      rfl

@[simp] theorem readName_fill (role : NameRole) (source : Source) :
    source.fill.readName role = source.readName role := by
  simp only [readName, peekChar_fill, readWhile_fill, lineNumber_fill]

@[simp] theorem readShortcuts_fill (source : Source) :
    source.fill.readShortcuts = source.readShortcuts := by
  obtain ⟨lines, current, number⟩ := source
  match current, lines with
  | some rest, lines => rfl
  | none, [] => rfl
  | none, (next, line) :: others =>
      rw [readShortcuts, readShortcuts.eq_def (Source.mk _ none number)]
      rfl

@[simp] theorem skipSpaces_next (next : Nat) (line : Text) :
    (Source.mk ((next, line) :: lines) none number).skipSpaces =
      ⟨lines, some (line.drop line.leadingSpaces), next⟩ := by
  rw [← skipSpaces_fill]
  exact skipSpaces_within line

@[simp] theorem skipSpaces_ended :
    (Source.mk [] none number).skipSpaces = ⟨[], none, number⟩ :=
  skipSpaces_eq _

end Within

/-! ### Recast lines -/

/-- Another way to write lines: each is indented and numbered anew, and after them come
lines of spaces and then other lines, unless nothing more comes. -/
structure Recast where
  shift : Nat
  width : Nat → Nat
  increasing : StrictMono width
  zero : width 0 = 0
  blanks : List (Nat × Text)
  later : List (Nat × Text)
  spaced : ∀ entry ∈ blanks, ∃ count, entry.2 = Text.spaces count
  ended : later = [] → blanks = []

namespace Recast

variable (recast : Recast)

def entry (line : Nat × Text) : Nat × Text :=
  (line.1 + recast.shift, Text.reindent recast.width line.2)

def lines (lines : List (Nat × Text)) : List (Nat × Text) :=
  lines.map recast.entry ++ (recast.blanks ++ recast.later)

/-- The lines that follow, if there are any, start with an element in the first column. -/
def Outset : Prop :=
  ∀ entry ∈ recast.later.head?, entry.2.head? = some '%'

def source (source : Source) : Source where
  lines := recast.lines source.lines
  current := source.current
  number := source.number + recast.shift

@[simp] theorem lines_cons (number : Nat) (line : Text) (others : List (Nat × Text)) :
    recast.lines ((number, line) :: others) =
      (number + recast.shift, Text.reindent recast.width line) :: recast.lines others := rfl

@[simp] theorem source_mk (lines : List (Nat × Text)) (current : Option Text) (number : Nat) :
    recast.source ⟨lines, current, number⟩ =
      ⟨recast.lines lines, current, number + recast.shift⟩ := rfl

end Recast

/-! ### Reading on -/

/-- A source that stands inside a line, where no line has a newline in it. -/
inductive Inside : Source → Prop
  | intro {lines : List (Nat × Text)} {rest : Text} {number : Nat} (unbroken : '\n' ∉ rest)
      (others : ∀ entry ∈ lines, '\n' ∉ entry.2) : Inside ⟨lines, some rest, number⟩

/-- Reading goes on inside a line, or over its end and the spaces after it. -/
inductive Onward : Source → Source → Prop
  | within {lines : List (Nat × Text)} {rest left : Text} {number : Nat} (ending : left <:+ rest) :
      Onward ⟨lines, some rest, number⟩ ⟨lines, some left, number⟩
  | across {lines : List (Nat × Text)} {rest line : Text} {number next : Nat} {after : Source}
      (onward : Onward ⟨lines, some (line.drop line.leadingSpaces), next⟩ after) :
      Onward ⟨(next, line) :: lines, some rest, number⟩ after

namespace Onward

variable {source middle after : Source}

theorem trans (first : Onward source middle) (second : Onward middle after) :
    Onward source after := by
  induction first with
  | @within lines rest left number ending =>
      cases second with
      | within further => exact .within (further.trans ending)
      | across onward => exact .across onward
  | across onward ih => exact .across (ih second)

theorem inside (onward : Onward source after) (inside : Inside source) : Inside after := by
  induction onward with
  | within ending =>
      obtain ⟨unbroken, others⟩ := inside
      exact ⟨fun member => unbroken (ending.subset member), others⟩
  | @across lines rest line number next after onward ih =>
      obtain ⟨unbroken, others⟩ := inside
      apply ih
      constructor
      · intro member
        exact others (next, line) (by simp) (List.mem_of_mem_drop member)
      · intro entry member
        exact others entry (List.mem_cons_of_mem _ member)

end Onward

/-! The next character from inside a line is the newline only at its end. -/

theorem Inside.eq_lineEnd {source : Source} (inside : Inside source)
    (next : source.readChar.1 = some '\n') :
    ∃ lines number, source = ⟨lines, some [], number⟩ := by
  obtain @⟨lines, rest, number, unbroken, others⟩ := inside
  cases rest with
  | nil => exact ⟨lines, number, rfl⟩
  | cons character rest =>
      cases next
      exact absurd List.mem_cons_self unbroken

theorem Inside.eq_cons {source : Source} {character : Char} (inside : Inside source)
    (next : source.readChar.1 = some character) (visible : character ≠ '\n') :
    ∃ lines rest number, source = ⟨lines, some (character :: rest), number⟩ := by
  obtain @⟨lines, rest, number, unbroken, others⟩ := inside
  cases rest with
  | nil =>
      cases next
      contradiction
  | cons first rest =>
      cases next
      exact ⟨lines, rest, number, rfl⟩

theorem Onward.tail {lines : List (Nat × Text)} {character : Char} {rest : Text} {number : Nat} :
    Onward ⟨lines, some (character :: rest), number⟩ ⟨lines, some rest, number⟩ :=
  .within (List.suffix_cons _ _)

/-- What a reader does from inside a line: it reads on, and it would read the same from
recast lines.  Its first argument is the line for which faults are reported. -/
structure ReadsOn {α : Type} (read : Nat → Source → Reading α) (source : Source) (value : α)
    (after : Source) : Prop where
  onward : Onward source after
  replays : ∀ (recast : Recast) (line : Nat),
    read line (recast.source source) = .ok (value, recast.source after)

section Readers

variable {source after : Source}

theorem isNameCharacter_newline : isNameCharacter '\n' = false := by decide

theorem readsOn_readName {role : NameRole} {name : Text} (inside : Inside source)
    (read : source.readName role = .ok (name, after)) :
    ReadsOn (fun _ source => source.readName role) source name after := by
  obtain ⟨unbroken, others⟩ := inside
  simp only [readName, peekChar_within] at read
  split at read
  · rename_i start
    rw [readWhile_line isNameCharacter_newline unbroken] at read
    cases read
    constructor
    · exact .within (List.dropWhile_suffix _)
    · intro recast line
      simp only [readName, Recast.source_mk, peekChar_within, if_pos start,
        readWhile_line isNameCharacter_newline unbroken]
  · split at read <;> contradiction

theorem readsOn_readShortcutValue {shortcut : Char} {value : Text} (inside : Inside source)
    (read : source.readShortcutValue shortcut = .ok (value, after)) :
    ReadsOn (fun _ source => source.readShortcutValue shortcut) source value after := by
  obtain ⟨unbroken, others⟩ := inside
  simp only [readShortcutValue, readWhile_line isNameCharacter_newline unbroken,
    peekChar_within] at read
  split at read
  · contradiction
  · rename_i unquoted
    split at read
    · contradiction
    · rename_i unassigned
      split at read
      · contradiction
      · rename_i given
        cases read
        constructor
        · exact .within (List.dropWhile_suffix _)
        · intro recast line
          simp only [readShortcutValue, Recast.source_mk,
            readWhile_line isNameCharacter_newline unbroken, peekChar_within,
            if_neg unquoted, if_neg unassigned, if_neg given]

theorem readShortcuts_of_none {character : Char} (next : source.peekChar.1 = some character)
    (plain : shortcutAttribute character = none) :
    source.readShortcuts = .ok ([], source.peekChar.2) := by
  rw [readShortcuts]
  split
  · rfl
  · rename_i shortcut same
    rw [next] at same
    cases same
    simp [plain]

theorem readShortcuts_of_some {shortcut : Char} {name value : Text} {middle : Source}
    {others : List (Text × Text)} (next : source.peekChar.1 = some shortcut)
    (named : shortcutAttribute shortcut = some name)
    (valueRead : source.readChar.2.readShortcutValue shortcut = .ok (value, middle))
    (othersRead : middle.readShortcuts = .ok (others, after)) :
    source.readShortcuts = .ok ((name, value) :: others, after) := by
  rw [readShortcuts]
  split
  · rename_i ended
    rw [next] at ended
    contradiction
  · rename_i character same
    rw [next] at same
    cases same
    simp only [named]
    split
    · rename_i failed
      rw [valueRead] at failed
      contradiction
    · rename_i found last same
      rw [valueRead] at same
      cases same
      rw [othersRead]

theorem readsOn_readShortcuts {attributes : List (Text × Text)} (inside : Inside source)
    (read : source.readShortcuts = .ok (attributes, after)) :
    ReadsOn (fun _ source => source.readShortcuts) source attributes after := by
  fun_induction readShortcuts source generalizing attributes after with
  | case1 source ended =>
      obtain ⟨unbroken, others⟩ := inside
      simp at ended
  | case2 source character next plain =>
      obtain @⟨lines, rest, number, unbroken, others⟩ := inside
      rw [peekChar_within] at read next
      cases read
      constructor
      · exact .within List.suffix_rfl
      · intro recast line
        have plainly := @readShortcuts_of_none (recast.source ⟨lines, some rest, number⟩) _
          (by simpa using next) plain
        simpa using plainly
  | case3 => contradiction
  | case4 => contradiction
  | case5 source shortcut next name named value middle valueRead others last othersRead ih =>
      obtain @⟨lines, rest, number, unbroken, unbrokenLines⟩ := inside
      cases read
      cases rest with
      | nil =>
          cases next
          contradiction
      | cons character rest =>
          cases next
          have whole : Inside ⟨lines, some (shortcut :: rest), number⟩ := ⟨unbroken, unbrokenLines⟩
          have valued := readsOn_readShortcutValue (Onward.tail.inside whole) valueRead
          have onward : Onward ⟨lines, some (shortcut :: rest), number⟩ middle :=
            Onward.tail.trans valued.onward
          have shortcuts := ih (onward.inside whole) othersRead
          constructor
          · exact onward.trans shortcuts.onward
          · intro recast line
            exact readShortcuts_of_some rfl named (valued.replays recast line)
              (shortcuts.replays recast line)

/-- A quoted value that goes on after the end of a line goes on inside the next one. -/
theorem lines_of_readQuotation {quote : Char} {multiline : Bool} {line number : Nat}
    {lines : List (Nat × Text)} {result : Text × Source}
    (read : (Source.mk lines none number).skipSpaces.readQuotation quote multiline line =
      .ok result) :
    ∃ next text others, lines = (next, text) :: others := by
  cases lines with
  | nil =>
      rw [skipSpaces_ended, readQuotation] at read
      contradiction
  | cons entry others => exact ⟨entry.1, entry.2, others, rfl⟩

section Quotations

variable {lines : List (Nat × Text)} {number : Nat} (quote : Char) (multiline : Bool) (line : Nat)

theorem readQuotation_close (after : Text) (visible : quote ≠ '\\' ∧ quote ≠ '\n') :
    (Source.mk lines (some (quote :: after)) number).readQuotation quote multiline line =
      .ok ([], ⟨lines, some after, number⟩) := by
  rw [readQuotation]
  simp [visible]

theorem readQuotation_escape {character : Char} (rest : Text) (visible : character ≠ '\n') :
    (Source.mk lines (some ('\\' :: character :: rest)) number).readQuotation quote multiline
        line =
      ((Source.mk lines (some rest) number).readQuotation quote multiline line).map
        fun (value, last) => (character :: value, last) := by
  rw [readQuotation]
  simp [visible]

theorem readQuotation_plain {character : Char} (rest : Text) (visible : character ≠ '\n')
    (unescaped : character ≠ '\\') (inside : character ≠ quote) :
    (Source.mk lines (some (character :: rest)) number).readQuotation quote multiline line =
      ((Source.mk lines (some rest) number).readQuotation quote multiline line).map
        fun (value, last) => (character :: value, last) := by
  rw [readQuotation]
  simp [visible, unescaped, inside]

theorem readQuotation_continued (next : Nat) (text : Text) :
    (Source.mk ((next, text) :: lines) (some ['\\']) number).readQuotation quote multiline line =
      ((Source.mk lines (some (text.drop text.leadingSpaces)) next).readQuotation quote multiline
        line).map fun (value, last) => (' ' :: value, last) := by
  rw [readQuotation]
  simp

theorem readQuotation_lineEnd (next : Nat) (text : Text) :
    (Source.mk ((next, text) :: lines) (some []) number).readQuotation quote true line =
      ((Source.mk lines (some (text.drop text.leadingSpaces)) next).readQuotation quote true
        line).map fun (value, last) => (' ' :: value, last) := by
  rw [readQuotation]
  simp

end Quotations

/-- A reader that goes on by itself further on reads on. -/
theorem ReadsOn.map {α : Type} {read : Nat → Source → Reading α} {middle : Source} {value : α}
    {change : α → α} (onward : Onward source middle) (later : ReadsOn read middle value after)
    (goesOn : ∀ (recast : Recast) (line : Nat), read line (recast.source source) =
      (read line (recast.source middle)).map fun (value, last) => (change value, last)) :
    ReadsOn read source (change value) after := by
  refine ⟨onward.trans later.onward, ?_⟩
  intro recast line
  rw [goesOn, later.replays]
  rfl

theorem readsOn_readQuotation {quote : Char} {multiline : Bool} {line : Nat} {value : Text}
    (inside : Inside source)
    (read : source.readQuotation quote multiline line = .ok (value, after)) :
    ReadsOn (fun line source => source.readQuotation quote multiline line) source value after := by
  fun_induction readQuotation quote multiline line source generalizing value after with
  | case1 => contradiction
  | case2 => contradiction
  | case3 source next escaped ih =>
      obtain ⟨lines, rest, number, rfl⟩ := inside.eq_cons next (by decide)
      obtain ⟨_, _, same⟩ := (Onward.tail.inside inside).eq_lineEnd escaped
      cases same
      obtain ⟨⟨inner, last⟩, innerRead, same⟩ := exists_of_map_eq_ok read
      cases same
      obtain ⟨following, text, others, rfl⟩ := lines_of_readQuotation innerRead
      simp only [readChar_within, readChar_lineEnd, skipSpaces_next] at ih innerRead
      have onward : Onward ⟨(following, text) :: others, some ['\\'], number⟩
          ⟨others, some (text.drop text.leadingSpaces), following⟩ := .across (.within List.suffix_rfl)
      refine .map onward (ih (onward.inside inside) innerRead) fun recast line => ?_
      simpa using readQuotation_continued quote multiline line _ (Text.reindent recast.width text)
  | case4 source character escaped visible next ih =>
      obtain ⟨lines, rest, number, rfl⟩ := inside.eq_cons next (by decide)
      obtain ⟨_, rest, _, same⟩ := (Onward.tail.inside inside).eq_cons escaped visible
      cases same
      obtain ⟨⟨inner, last⟩, innerRead, same⟩ := exists_of_map_eq_ok read
      cases same
      have onward : Onward ⟨lines, some ('\\' :: character :: rest), number⟩
          ⟨lines, some rest, number⟩ := Onward.tail.trans .tail
      exact .map onward (ih (onward.inside inside) innerRead) fun recast line =>
        readQuotation_escape quote multiline line rest visible
  | case5 source several next unescaped ih =>
      subst several
      obtain ⟨lines, number, rfl⟩ := inside.eq_lineEnd next
      obtain ⟨⟨inner, last⟩, innerRead, same⟩ := exists_of_map_eq_ok read
      cases same
      obtain ⟨following, text, others, rfl⟩ := lines_of_readQuotation innerRead
      simp only [readChar_lineEnd, skipSpaces_next] at ih innerRead
      have onward : Onward ⟨(following, text) :: others, some [], number⟩
          ⟨others, some (text.drop text.leadingSpaces), following⟩ := .across (.within List.suffix_rfl)
      refine .map onward (ih (onward.inside inside) innerRead) fun recast line => ?_
      simpa using readQuotation_lineEnd quote line _ (Text.reindent recast.width text)
  | case6 => contradiction
  | case7 source next unescaped visible =>
      obtain ⟨lines, rest, number, rfl⟩ := inside.eq_cons next visible
      cases read
      exact ⟨.tail, fun recast line =>
        readQuotation_close quote multiline line rest ⟨unescaped, visible⟩⟩
  | case8 source character next unescaped visible unquoted ih =>
      obtain ⟨lines, rest, number, rfl⟩ := inside.eq_cons next visible
      obtain ⟨⟨inner, last⟩, innerRead, same⟩ := exists_of_map_eq_ok read
      cases same
      exact .map .tail (ih (Onward.tail.inside inside) innerRead) fun recast line =>
        readQuotation_plain quote multiline line rest visible unescaped unquoted

theorem readsOn_readQuoted {quote : Char} {multiline : Bool} {line : Nat} {value : Text}
    (inside : Inside source)
    (read : source.readQuoted quote multiline line = .ok (value, after)) :
    ReadsOn (fun line source => source.readQuoted quote multiline line) source value after := by
  unfold readQuoted at read
  split at read
  · contradiction
  · rename_i inner last innerRead
    have quoted := readsOn_readQuotation inside innerRead
    obtain @⟨lines, rest, number, unbroken, others⟩ := quoted.onward.inside inside
    simp only [peekChar_within] at read
    split at read
    · contradiction
    · rename_i other
      split at read
      · rename_i follows
        cases read
        refine ⟨quoted.onward, ?_⟩
        intro recast line
        have later := quoted.replays recast line
        simp only [Recast.source_mk] at later
        simp only [readQuoted, later, peekChar_within, if_neg other, if_pos follows,
          Recast.source_mk]
      · contradiction

end Readers

end Source

/-! ### Attributes -/

namespace Scanner

open Source (Inside Onward ReadsOn Recast)

variable {source after : Source}

theorem readsOn_readBareValue {name : Text} {line : Nat} {token : Token} (inside : Inside source)
    (read : readBareValue name line source = .ok (token, after)) :
    ReadsOn (readBareValue name) source token after := by
  obtain ⟨unbroken, others⟩ := inside
  have stops : Source.isBare '\n' = false := by decide
  simp only [readBareValue, Source.readWhile_line stops unbroken] at read
  split at read
  · contradiction
  · rename_i given
    cases read
    constructor
    · exact .within (List.dropWhile_suffix _)
    · intro recast line
      simp only [readBareValue, Recast.source_mk, Source.readWhile_line stops unbroken, if_neg given]

theorem readsOn_readAttribute {parentheses line : Nat} {token : Token} (inside : Inside source)
    (read : readAttribute parentheses line source = .ok (token, after)) :
    ReadsOn (readAttribute parentheses) source token after := by
  unfold readAttribute at read
  split at read
  · contradiction
  · rename_i name named nameRead
    obtain ⟨onward, nameReplays⟩ := Source.readsOn_readName inside nameRead
    have nameInside := onward.inside inside
    by_cases assigns : named.peekChar.1 = some '='
    · obtain ⟨lines, value, number, rfl⟩ := nameInside.eq_cons assigns (by decide)
      have valueInside := Onward.tail.inside nameInside
      have assigned := onward.trans .tail
      rw [if_pos assigns] at read
      simp only [Source.readChar_within, Source.peekChar_within] at read
      split at read
      · rename_i quoted
        cases value with
        | nil => simp at quoted
        | cons quote opened =>
            simp only [List.headD_cons, Source.readChar_within] at quoted read
            obtain ⟨⟨inner, last⟩, innerRead, same⟩ := Source.exists_of_map_eq_ok read
            cases same
            have innerOn := Source.readsOn_readQuoted (Onward.tail.inside valueInside) innerRead
            refine ⟨assigned.trans (Onward.tail.trans innerOn.onward), ?_⟩
            intro recast line
            have later := innerOn.replays recast line
            simp only [Recast.source_mk] at later nameReplays
            simp [readAttribute, nameReplays recast line, quoted, later, Except.map]
      · rename_i unquoted
        split at read
        · rename_i quoted
          cases value with
          | nil => simp at quoted
          | cons quote opened =>
              simp only [List.headD_cons, Source.readChar_within] at quoted read
              subst quoted
              obtain ⟨⟨inner, last⟩, innerRead, same⟩ := Source.exists_of_map_eq_ok read
              cases same
              have innerOn := Source.readsOn_readQuoted (Onward.tail.inside valueInside) innerRead
              refine ⟨assigned.trans (Onward.tail.trans innerOn.onward), ?_⟩
              intro recast line
              have later := innerOn.replays recast line
              simp only [Recast.source_mk] at later nameReplays
              simp [readAttribute, nameReplays recast line, later, Except.map]
        · rename_i bare
          have bareOn := readsOn_readBareValue valueInside read
          refine ⟨assigned.trans bareOn.onward, ?_⟩
          intro recast line
          have later := bareOn.replays recast line
          simp only [Recast.source_mk] at later nameReplays
          simp only [readAttribute, nameReplays recast line, Source.peekChar_within,
            Source.readChar_within, List.headD_cons, if_true, if_neg unquoted, if_neg bare, later]
    · rw [if_neg assigns] at read
      cases read
      obtain ⟨unbroken, others⟩ := nameInside
      refine ⟨onward, ?_⟩
      intro recast line
      simp only [Recast.source_mk] at nameReplays
      simp only [Source.peekChar_within] at assigns
      simp only [readAttribute, nameReplays recast line, Source.peekChar_within, if_neg assigns,
        Recast.source_mk]

theorem readPiece_of_isNameStart {parentheses : Nat} {source after : Source} {character : Char}
    {token : Token} (next : source.peekChar.1 = some character)
    (start : isNameStart character = true)
    (read : readAttribute parentheses source.lineNumber source = .ok (token, after)) :
    readPiece parentheses source =
      .ok (after, .pieces parentheses, onLine source.lineNumber [token]) := by
  have different (other : Char) (unfit : isNameStart other = false) : character ≠ other := by
    rintro rfl
    rw [start] at unfit
    contradiction
  simp only [readPiece, next, if_neg (different '\n' (by decide)),
    if_neg (different ' ' (by decide)), if_neg (different '(' (by decide)),
    if_neg (different ')' (by decide)), if_neg (different '\\' (by decide)),
    if_neg (different ':' (by decide)), if_neg (different '/' (by decide)), start, if_true, read]

theorem readAttribute_fill (parentheses line : Nat) (source : Source) :
    readAttribute parentheses line source.fill = readAttribute parentheses line source := by
  simp only [readAttribute, Source.readName_fill]

theorem readPiece_fill (parentheses : Nat) (source : Source) :
    readPiece parentheses source.fill = readPiece parentheses source := by
  simp only [readPiece, Source.peekChar_fill, Source.readChar_fill, Source.lineNumber_fill,
    readAttribute_fill]

theorem readConstruct_fill (opening : Opening) (width line : Nat) (source : Source) :
    readConstruct opening width line source.fill = readConstruct opening width line source := by
  cases opening <;>
    simp only [readConstruct, readElement, startElement, readComment, readDirective, readCode,
      readFilterHeading, readRawCode, readContent, Source.readChar_fill, Source.readLine_fill,
      Source.readShortcuts_fill]

end Scanner

end Stencil
