import Stencil.Text.Basic

/-! A source of numbered lines that can be read by line or by character, and into
which lines and characters can be put back.

Characters are read from the current line, whose end is seen as a newline.  The
current line is held without that newline: `current = some rest` means that
`rest` and then a newline are still to be read, and `none` that no line is partly
read.  The number of unread characters bounds every loop over a source, so each
operation has a lemma on what it does to that number. -/

namespace Stencil

/-- Unread lines with their numbers, and the unread part of the current line. -/
structure Source where
  lines : List (Nat × Text)
  /-- What is left of the current line, without its newline. -/
  current : Option Text
  /-- The number of the current line, or of the line read last. -/
  number : Nat
  deriving DecidableEq, Repr

namespace Source

/-! ### Reading -/

def fill (source : Source) : Source :=
  match source.current, source.lines with
  | none, (number, line) :: others =>
      { lines := others, current := some line, number := number }
  | _, _ => source

def front (source : Source) : Option Char :=
  match source.current with
  | none => none
  | some [] => some '\n'
  | some (character :: _) => some character

def tail (source : Source) : Source :=
  match source.current with
  | none => source
  | some [] => { source with current := none }
  | some (_ :: rest) => { source with current := some rest }

def readChar (source : Source) : Option Char × Source :=
  (source.fill.front, source.fill.tail)

/-- The next character, which stays unread.  Its line becomes the current one. -/
def peekChar (source : Source) : Option Char × Source :=
  (source.fill.front, source.fill)

/-- Reads what is left of the current line, or else the next line. -/
def readLine (source : Source) : Option Text × Source :=
  match source.current, source.lines with
  | some rest, _ => (some rest, { source with current := none })
  | none, (number, line) :: others =>
      (some line, { lines := others, current := none, number := number })
  | none, [] => (none, source)

def peekLine (source : Source) : Option Text :=
  source.readLine.1

def skip : Nat → Source → Source
  | 0, source => source
  | count + 1, source => skip count source.readChar.2

/-! ### Putting back -/

def park (source : Source) : Source :=
  match source.current with
  | none => source
  | some rest =>
      { source with lines := (source.number, rest) :: source.lines, current := none }

/-- Puts a character back so that it is read next.  A newline ends an empty line
in front of what is left of the current line; any other character that meets no
current line starts a line of its own. -/
def unreadChar (character : Char) (source : Source) : Source :=
  if character = '\n' then { source.park with current := some [] }
  else { source with current := some (character :: source.current.getD []) }

/-- Puts a line back so that it is read next.  It is numbered one below the line
that follows it, and as the line read last if none follows. -/
def unreadLine (line : Text) (source : Source) : Source :=
  let parked := source.park
  let number :=
    match parked.lines with
    | [] => parked.number
    | (following, _) :: _ => max 1 (following - 1)
  { parked with lines := (number, line) :: parked.lines }

/-! ### Position -/

def lineNumber (source : Source) : Nat :=
  match source.current, source.lines with
  | none, (number, _) :: _ => number
  | _, _ => source.number

def atEnd (source : Source) : Bool :=
  source.current.isNone && source.lines.isEmpty

/-! ### The number of unread characters -/

def linesSize : List (Nat × Text) → Nat
  | [] => 0
  | (_, line) :: others => line.length + 1 + linesSize others

def currentSize : Option Text → Nat
  | none => 0
  | some rest => rest.length + 1

def size (source : Source) : Nat :=
  currentSize source.current + linesSize source.lines

@[simp] theorem size_fill (source : Source) : source.fill.size = source.size := by
  obtain ⟨lines, current, number⟩ := source
  cases current with
  | some rest => rfl
  | none =>
      cases lines with
      | nil => rfl
      | cons first others =>
          obtain ⟨lineNumber, line⟩ := first
          simp [fill, size, currentSize, linesSize]

theorem size_tail_le (source : Source) : source.tail.size ≤ source.size := by
  obtain ⟨lines, current, number⟩ := source
  match current with
  | none => exact Nat.le_refl _
  | some [] => simp [tail, size, currentSize]
  | some (_ :: rest) => simp [tail, size, currentSize]

theorem size_tail_of_front {source : Source} {character : Char}
    (next : source.front = some character) : source.tail.size + 1 = source.size := by
  obtain ⟨lines, current, number⟩ := source
  match current with
  | none => simp [front] at next
  | some [] => simp [tail, size, currentSize]; omega
  | some (_ :: rest) => simp [tail, size, currentSize]; omega

theorem size_readChar_le (source : Source) : source.readChar.2.size ≤ source.size := by
  have := size_tail_le source.fill
  simpa [readChar] using this

theorem size_readChar {source : Source} {character : Char}
    (next : source.readChar.1 = some character) :
    source.readChar.2.size + 1 = source.size := by
  have := @size_tail_of_front source.fill character next
  simpa [readChar] using this

@[simp] theorem size_peekChar (source : Source) : source.peekChar.2.size = source.size := by
  simp [peekChar]

@[simp] theorem fill_fill (source : Source) : source.fill.fill = source.fill := by
  obtain ⟨lines, current, number⟩ := source
  cases current with
  | some rest => rfl
  | none =>
      cases lines with
      | nil => rfl
      | cons first others => rfl

/-- A second look at the next character sees the same one. -/
@[simp] theorem readChar_peekChar (source : Source) :
    source.peekChar.2.readChar = source.readChar := by
  simp [peekChar, readChar]

theorem size_skip_le (count : Nat) (source : Source) :
    (skip count source).size ≤ source.size := by
  induction count generalizing source with
  | zero => exact Nat.le_refl _
  | succ count ih =>
      exact Nat.le_trans (ih source.readChar.2) (size_readChar_le source)

theorem size_readLine_le (source : Source) : source.readLine.2.size ≤ source.size := by
  obtain ⟨lines, current, number⟩ := source
  cases current with
  | some rest => simp [readLine, size, currentSize]
  | none =>
      cases lines with
      | nil => exact Nat.le_refl _
      | cons first others => simp [readLine, size, linesSize]

theorem size_readLine {source : Source} {line : Text}
    (next : source.readLine.1 = some line) :
    source.readLine.2.size + line.length + 1 = source.size := by
  obtain ⟨lines, current, number⟩ := source
  cases current with
  | some rest =>
      simp only [readLine, Option.some.injEq] at next
      subst next
      simp [readLine, size, currentSize]
      omega
  | none =>
      cases lines with
      | nil => simp [readLine] at next
      | cons first others =>
          simp only [readLine, Option.some.injEq] at next
          subst next
          simp [readLine, size, currentSize, linesSize]
          omega

/-- A line is read exactly when a character is left. -/
theorem readLine_eq_none_iff (source : Source) :
    source.readLine.1 = none ↔ source.size = 0 := by
  obtain ⟨lines, current, number⟩ := source
  cases current with
  | some rest => simp [readLine, size, currentSize]
  | none =>
      cases lines with
      | nil => simp [readLine, size, currentSize, linesSize]
      | cons first others => simp [readLine, size, linesSize]

/-- A character is read exactly when one is left. -/
theorem readChar_eq_none_iff (source : Source) :
    source.readChar.1 = none ↔ source.size = 0 := by
  obtain ⟨lines, current, number⟩ := source
  match current, lines with
  | some [], _ => simp [readChar, fill, front, size, currentSize]
  | some (_ :: _), _ => simp [readChar, fill, front, size, currentSize]
  | none, [] => simp [readChar, fill, front, size, currentSize, linesSize]
  | none, (_, []) :: _ => simp [readChar, fill, front, size, linesSize]
  | none, (_, _ :: _) :: _ => simp [readChar, fill, front, size, linesSize]

/-- The first character of the next line is the next character. -/
theorem readChar_of_peekLine {source : Source} {character : Char} {rest : Text}
    (next : source.peekLine = some (character :: rest)) :
    source.readChar.1 = some character := by
  obtain ⟨lines, current, number⟩ := source
  match current, lines with
  | some unread, _ =>
      simp only [peekLine, readLine, Option.some.injEq] at next
      subst next
      rfl
  | none, [] => simp [peekLine, readLine] at next
  | none, (_, line) :: _ =>
      simp only [peekLine, readLine, Option.some.injEq] at next
      subst next
      rfl

@[simp] theorem size_park (source : Source) : source.park.size = source.size := by
  obtain ⟨lines, current, number⟩ := source
  cases current with
  | none => rfl
  | some rest => simp [park, size, currentSize, linesSize]

/-- Putting back the character that was just read restores the number of unread
characters. -/
theorem size_unreadChar_readChar {source : Source} {character : Char}
    (next : source.readChar.1 = some character) :
    (source.readChar.2.unreadChar character).size = source.size := by
  rw [← size_fill source]
  simp only [readChar] at next ⊢
  generalize source.fill = filled at next
  obtain ⟨lines, current, number⟩ := filled
  match current with
  | none => simp [front] at next
  | some [] =>
      simp only [front, Option.some.injEq] at next
      subst next
      simp [tail, unreadChar, park, size, currentSize]
  | some (first :: rest) =>
      simp only [front, Option.some.injEq] at next
      subst next
      by_cases newline : first = '\n'
      · simp [tail, unreadChar, newline, park, size, currentSize, linesSize]
        omega
      · simp [tail, unreadChar, newline, size, currentSize]

theorem size_unreadLine_readLine {source : Source} {line : Text}
    (next : source.readLine.1 = some line) :
    (source.readLine.2.unreadLine line).size = source.size := by
  obtain ⟨lines, current, number⟩ := source
  match current, lines with
  | some rest, _ =>
      simp only [readLine, Option.some.injEq] at next
      subst next
      simp [readLine, unreadLine, park, size, currentSize, linesSize]
  | none, [] => simp [readLine] at next
  | none, (_, first) :: others =>
      simp only [readLine, Option.some.injEq] at next
      subst next
      simp [readLine, unreadLine, park, size, currentSize, linesSize]

/-! ### Loops -/

/-- Reads characters as long as they pass the test; the first that fails stays
unread. -/
def readWhile (test : Char → Bool) (source : Source) : Text × Source :=
  match _next : source.readChar.1 with
  | none => ([], source.readChar.2)
  | some character =>
      if test character then
        let others := readWhile test source.readChar.2
        (character :: others.1, others.2)
      else ([], source.readChar.2.unreadChar character)
termination_by source.size
decreasing_by
  have := size_readChar _next
  omega

theorem size_readWhile (test : Char → Bool) (source : Source) :
    (source.readWhile test).2.size + (source.readWhile test).1.length = source.size := by
  fun_induction readWhile test source with
  | case1 source next =>
      have := (readChar_eq_none_iff source).mp next
      have := size_readChar_le source
      simp
      omega
  | case2 source character next passes others ih =>
      have := size_readChar next
      simp only [List.length_cons, others]
      omega
  | case3 source character next fails =>
      simpa using size_unreadChar_readChar next

theorem readWhile_ne_nil {test : Char → Bool} {source : Source} {character : Char}
    (next : source.readChar.1 = some character) (passes : test character = true) :
    (source.readWhile test).1 ≠ [] := by
  unfold readWhile
  split
  · rename_i ended
    rw [ended] at next
    contradiction
  · rename_i found same
    rw [same] at next
    obtain rfl := Option.some.inj next
    simp [passes]

def drain (source : Source) : List (Nat × Text) × Source :=
  match _next : source.readLine.1 with
  | none => ([], source.readLine.2)
  | some line =>
      let others := drain source.readLine.2
      ((source.lineNumber, line) :: others.1, others.2)
termination_by source.size
decreasing_by
  have := size_readLine _next
  omega

end Source

end Stencil
