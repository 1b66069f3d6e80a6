import Stencil.Proofs.Operations

/-! Looks at the next character, and what comes of them.

A look at the next character between two lines begins with the next line, whose number the source
has from then on.  The source with the look and the source without it are no longer the same, but
they answer alike: every read makes them the same again, and a line that is put back stands
before the same lines in both.  A single character that is put back tells them apart.  Without
the look it gets a line of its own, with the look it stands in front of the next line. -/

namespace Stencil
namespace Source

/-! ### Two sources that answer alike -/

/-- A source, and what it may be if it was looked at: the same, or begun with its next line, or
with another number while all its lines are unread. -/
inductive Alike : Source → Source → Prop
  | same (source : Source) : Alike source source
  | opened {lines : List (Nat × Text)} {line : Text} {number next : Nat} :
      Alike ⟨(next, line) :: lines, none, number⟩ ⟨lines, some line, next⟩
  | parked {lines : List (Nat × Text)} {entry : Nat × Text} {number other : Nat} :
      Alike ⟨entry :: lines, none, number⟩ ⟨entry :: lines, none, other⟩

/-- Operations that take nothing from a source, begin with no line and put no single character
back. -/
inductive Operation.Quiet : Operation → Prop
  | peekLine : Quiet .peekLine
  | unreadLine (line : Text) : Quiet (.unreadLine line)
  | lineNumber : Quiet .lineNumber
  | atEnd : Quiet .atEnd

theorem Operation.quiet_or (operation : Operation) :
    operation.Quiet ∨ operation = .readChar ∨ operation = .readLine ∨ operation = .peekChar ∨
      ∃ character, operation = .unreadChar character := by
  cases operation with
  | readChar => exact .inr (.inl rfl)
  | readLine => exact .inr (.inr (.inl rfl))
  | peekChar => exact .inr (.inr (.inr (.inl rfl)))
  | unreadChar character => exact .inr (.inr (.inr (.inr ⟨character, rfl⟩)))
  | peekLine => exact .inl .peekLine
  | unreadLine line => exact .inl (.unreadLine line)
  | lineNumber => exact .inl .lineNumber
  | atEnd => exact .inl .atEnd

namespace Alike

variable {source looked : Source} {operation : Operation}

theorem readChar (alike : Alike source looked) : looked.readChar = source.readChar := by
  cases alike <;> rfl

theorem readLine (alike : Alike source looked) : looked.readLine = source.readLine := by
  cases alike <;> rfl

theorem fill (alike : Alike source looked) : Alike source looked.fill := by
  cases alike with
  | same =>
      obtain ⟨lines, current, number⟩ := source
      match current, lines with
      | none, [] => exact .same _
      | none, (next, line) :: others => exact .opened
      | some rest, lines => exact .same _
  | opened => exact .opened
  | parked => exact .opened

theorem perform (alike : Alike source looked) (quiet : operation.Quiet) :
    (operation.perform looked).1 = (operation.perform source).1 ∧
      Alike (operation.perform source).2 (operation.perform looked).2 := by
  cases quiet with
  | peekLine =>
      refine ⟨?_, alike⟩
      simp only [Operation.perform, peekLine, alike.readLine]
  | unreadLine line =>
      refine ⟨rfl, ?_⟩
      cases alike with
      | same => exact .same _
      | opened => exact .parked
      | parked => exact .parked
  | lineNumber =>
      refine ⟨?_, alike⟩
      cases alike <;> rfl
  | atEnd =>
      refine ⟨?_, alike⟩
      cases alike <;> rfl

end Alike

/-! ### Runs with and without looks -/

/-- No line is partly read and some are unread, so that a look begins with the next one. -/
def betweenLines (source : Source) : Bool :=
  source.current.isNone && !source.lines.isEmpty

/-- Whether something is read before a character is put back. -/
def readsFirst : List Operation → Bool
  | [] => true
  | .readChar :: _ | .readLine :: _ => true
  | .unreadChar _ :: _ => false
  | _ :: others => readsFirst others

/-- Whether, after each look between two lines, something is read before a character is put
back. -/
def looksSafely : List Operation → Source → Bool
  | [], _ => true
  | operation :: others, source =>
      (!(operation = .peekChar && source.betweenLines) || readsFirst others) &&
        looksSafely others (operation.perform source).2

theorem readsFirst_quiet {operation : Operation} {others : List Operation}
    (quiet : operation.Quiet) : readsFirst (operation :: others) = readsFirst others := by
  cases quiet <;> rfl

theorem fill_of_not_betweenLines {source : Source} (within : source.betweenLines = false) :
    source.fill = source := by
  obtain ⟨lines, current, number⟩ := source
  match current, lines with
  | none, [] => rfl
  | none, entry :: others => contradiction
  | some rest, lines => rfl

theorem exists_of_betweenLines {source : Source} (between : source.betweenLines = true) :
    ∃ next line lines number, source = ⟨(next, line) :: lines, none, number⟩ := by
  obtain ⟨lines, current, number⟩ := source
  cases current with
  | some rest => contradiction
  | none =>
      cases lines with
      | nil => contradiction
      | cons entry lines => exact ⟨entry.1, entry.2, lines, number, rfl⟩

/-- Two runs go on alike if they have met, or else read before a character is put back. -/
theorem Alike.step {source looked : Source} {operation : Operation} {others : List Operation}
    (alike : Alike source looked)
    (meets : source = looked ∨ readsFirst (operation :: others) = true)
    (other : operation ≠ .peekChar) :
    (operation.perform looked).1 = (operation.perform source).1 ∧
      Alike (operation.perform source).2 (operation.perform looked).2 ∧
      ((operation.perform source).2 = (operation.perform looked).2 ∨ readsFirst others = true) := by
  rcases meets with rfl | first
  · exact ⟨rfl, .same _, .inl rfl⟩
  · rcases operation.quiet_or with quiet | rfl | rfl | rfl | ⟨character, rfl⟩
    · obtain ⟨answer, alike⟩ := alike.perform quiet
      rw [readsFirst_quiet quiet] at first
      exact ⟨answer, alike, .inr first⟩
    · simp only [Operation.perform, alike.readChar]
      exact ⟨trivial, .same _, .inl trivial⟩
    · simp only [Operation.perform, alike.readLine]
      exact ⟨trivial, .same _, .inl trivial⟩
    · contradiction
    · contradiction

theorem log_alike {source looked : Source} {operations : List Operation}
    (alike : Alike source looked) (meets : source = looked ∨ readsFirst operations = true)
    (safely : looksSafely operations looked = true) :
    (log operations looked).filter (fun entry => entry.1 ≠ .peekChar) =
      log (operations.filter (· ≠ .peekChar)) source := by
  induction operations generalizing source looked with
  | nil => rfl
  | cons operation others ih =>
      rw [looksSafely, Bool.and_eq_true] at safely
      by_cases look : operation = .peekChar
      · subst look
        refine ih alike.fill ?_ safely.2
        cases between : looked.betweenLines with
        | true =>
            rw [between] at safely
            exact .inr safely.1
        | false =>
            have kept : (Operation.peekChar.perform looked).2 = looked :=
              fill_of_not_betweenLines between
            rw [kept]
            exact meets
      · obtain ⟨answer, alike, meets⟩ := alike.step meets look
        have later := ih alike meets safely.2
        rw [log, List.filter_cons_of_pos (by simpa using look),
          List.filter_cons_of_pos (by simpa using look), log, answer, later]

/-! ### A character that is put back after a look -/

section Told

variable {source other : Source}

theorem log_append (operations later : List Operation) (source : Source) :
    log (operations ++ later) source =
      log operations source ++ log later (source.performAll operations) := by
  induction operations generalizing source with
  | nil => rfl
  | cons operation others ih => rw [List.cons_append, log, ih, log, performAll, List.cons_append]

theorem characters_unreadChar_between {character : Char} (visible : character ≠ '\n')
    (between : source.current = none) :
    (source.unreadChar character).characters = character :: '\n' :: source.characters := by
  obtain ⟨lines, current, number⟩ := source
  obtain rfl : current = none := between
  simp [unreadChar, visible]

theorem readChar_of_log (told : ∀ later, log later source = log later other) :
    source.readChar.1 = other.readChar.1 := by
  have answers := told [.readChar]
  simpa [log, Operation.perform] using answers

theorem lineNumber_of_log (told : ∀ later, log later source = log later other) :
    source.lineNumber = other.lineNumber := by
  have answers := told [.lineNumber]
  simpa [log, Operation.perform] using answers

theorem characters_of_log (told : ∀ later, log later source = log later other) :
    source.characters = other.characters := by
  have first := readChar_of_log told
  rw [readChar_fst, readChar_fst] at first
  induction unread : source.characters generalizing source other with
  | nil =>
      rw [unread, List.head?_nil] at first
      exact (List.head?_eq_none_iff.mp first.symm).symm
  | cons character rest ih =>
      rw [unread, List.head?_cons] at first
      have further (later : List Operation) :
          log later source.readChar.2 = log later other.readChar.2 :=
        (List.cons.inj (told (.readChar :: later))).2
      have next := readChar_of_log further
      rw [readChar_fst, readChar_fst] at next
      have rests := ih further next (by rw [characters_readChar, unread, List.tail_cons])
      rw [rests, characters_readChar]
      exact List.cons_head?_tail first.symm

end Told

section Between

variable {lines : List (Nat × Text)} {line : Text} {entry : Nat × Text} {number next other : Nat}
  {between : List Operation}

theorem Alike.log_quiet {source looked : Source} (alike : Alike source looked)
    (quiet : ∀ operation ∈ between, operation.Quiet) : log between looked = log between source := by
  induction between generalizing source looked with
  | nil => rfl
  | cons operation others ih =>
      rw [List.forall_mem_cons] at quiet
      obtain ⟨answer, alike⟩ := alike.perform quiet.1
      rw [log, log, answer, ih alike quiet.2]

theorem performAll_parked (quiet : ∀ operation ∈ between, operation.Quiet) :
    ∃ first others,
      performAll between ⟨entry :: lines, none, number⟩ = ⟨first :: others, none, number⟩ ∧
        performAll between ⟨entry :: lines, none, other⟩ = ⟨first :: others, none, other⟩ := by
  induction between generalizing entry lines with
  | nil => exact ⟨entry, lines, rfl, rfl⟩
  | cons operation others ih =>
      rw [List.forall_mem_cons] at quiet
      cases quiet.1 with
      | peekLine => exact ih quiet.2
      | unreadLine line => exact ih quiet.2
      | lineNumber => exact ih quiet.2
      | atEnd => exact ih quiet.2

/-- Until a line is put back the next line is current after a look, and unread without it. -/
theorem performAll_opened (quiet : ∀ operation ∈ between, operation.Quiet) :
    (∀ line, .unreadLine line ∉ between) ∧
        performAll between ⟨(next, line) :: lines, none, number⟩ =
          ⟨(next, line) :: lines, none, number⟩ ∧
        performAll between ⟨lines, some line, next⟩ = ⟨lines, some line, next⟩ ∨
      (∃ line, .unreadLine line ∈ between) ∧
        ∃ first others,
          performAll between ⟨(next, line) :: lines, none, number⟩ =
              ⟨first :: others, none, number⟩ ∧
            performAll between ⟨lines, some line, next⟩ = ⟨first :: others, none, next⟩ := by
  induction between with
  | nil => exact .inl ⟨by simp, rfl, rfl⟩
  | cons operation others ih =>
      rw [List.forall_mem_cons] at quiet
      have ih := ih quiet.2
      cases quiet.1 with
      | unreadLine text =>
          have parked := @performAll_parked ((next, line) :: lines) (max 1 (next - 1), text)
            number next others quiet.2
          exact .inr ⟨⟨text, List.mem_cons_self⟩, parked⟩
      | peekLine => simpa [performAll, Operation.perform] using ih
      | lineNumber => simpa [performAll, Operation.perform] using ih
      | atEnd => simpa [performAll, Operation.perform] using ih

end Between

/-- A look that began with a line is not seen exactly if its number is that of the line read last
and the character that is put back is a newline, or follows a line that was put back. -/
theorem told_opened_iff {lines : List (Nat × Text)} {line : Text} {number next : Nat}
    {between : List Operation} {character : Char}
    (quiet : ∀ operation ∈ between, operation.Quiet) :
    (∀ later, log later ((performAll between ⟨lines, some line, next⟩).unreadChar character) =
        log later
          ((performAll between ⟨(next, line) :: lines, none, number⟩).unreadChar character)) ↔
      number = next ∧ (character = '\n' ∨ ∃ line, .unreadLine line ∈ between) := by
  rcases @performAll_opened lines line number next between quiet with
    ⟨unlined, plain, opened⟩ | ⟨lined, first, others, plain, opened⟩
  · rw [plain, opened]
    constructor
    · intro told
      have numbers := lineNumber_of_log told
      have unread := characters_of_log told
      rw [lineNumber_unreadChar, lineNumber_unreadChar] at numbers
      refine ⟨numbers.symm, .inl ?_⟩
      by_contra visible
      -- without the look there is one newline more
      rw [characters_unreadChar_within (.inr ⟨line, rfl⟩),
        characters_unreadChar_between visible rfl] at unread
      exact List.cons_ne_self '\n' _ (List.cons.inj unread).2.symm
    · rintro ⟨rfl, rfl | ⟨text, member⟩⟩ later
      · rfl
      · exact absurd member (unlined text)
  · rw [plain, opened]
    constructor
    · intro told
      have numbers := lineNumber_of_log told
      rw [lineNumber_unreadChar, lineNumber_unreadChar] at numbers
      exact ⟨numbers.symm, .inr lined⟩
    · rintro ⟨rfl, -⟩ later
      rfl

theorem look_unseen_iff {source : Source} {between : List Operation} (character : Char)
    (quiet : ∀ operation ∈ between, operation.Quiet) :
    (∀ later, log (between ++ .unreadChar character :: later) source.peekChar.2 =
        log (between ++ .unreadChar character :: later) source) ↔
      source.betweenLines = false ∨
        source.number = source.lineNumber ∧
          (character = '\n' ∨ ∃ line, .unreadLine line ∈ between) := by
  have met (later : List Operation) :
      log (between ++ .unreadChar character :: later) source.peekChar.2 =
          log (between ++ .unreadChar character :: later) source ↔
        log later ((source.peekChar.2.performAll between).unreadChar character) =
          log later ((source.performAll between).unreadChar character) := by
    have same := ((Alike.same source).fill).log_quiet quiet
    rw [log_append, log_append, peekChar, same]
    simp [log, Operation.perform]
  simp only [met]
  cases begins : source.betweenLines with
  | false =>
      have kept : source.peekChar.2 = source := fill_of_not_betweenLines begins
      simp [kept]
  | true =>
      obtain ⟨next, line, lines, number, rfl⟩ := exists_of_betweenLines begins
      rw [or_iff_right (by simp)]
      exact told_opened_iff quiet

/-- Looks at the next character change no answer to another operation if after each look between
two lines something is read before a character is put back.  If nothing is read in between, a look
is seen in what follows the character, unless the look began with no line, or with a line of the
same number as the line read last while the character is a newline or follows a line that was put
back. -/
theorem looks_unseen (source : Source) (operations : List Operation) :
    (looksSafely operations source = true →
        (log operations source).filter (fun entry => entry.1 ≠ .peekChar) =
          log (operations.filter (· ≠ .peekChar)) source) ∧
      ∀ between character, (∀ operation ∈ between, operation.Quiet) →
        ((∀ later, log (between ++ .unreadChar character :: later)
              (source.performAll operations).peekChar.2 =
            log (between ++ .unreadChar character :: later) (source.performAll operations)) ↔
          (source.performAll operations).betweenLines = false ∨
            (source.performAll operations).number = (source.performAll operations).lineNumber ∧
              (character = '\n' ∨ ∃ line, .unreadLine line ∈ between)) := by
  constructor
  · exact log_alike (.same source) (.inl rfl)
  · exact fun between character quiet => look_unseen_iff character quiet

/-- Looks between lines, around a line that is put back, and within a line, around characters that
are put back. -/
theorem looks_unseen_put_back :
    ∃ source, ofText "ab\ncd".toList = .ok source ∧
      (log [.readLine, .peekChar, .unreadLine "x".toList, .lineNumber, .peekChar, .readChar,
          .unreadChar 'y', .peekChar, .unreadChar 'z', .readLine, .atEnd] source).filter
            (fun entry => entry.1 ≠ .peekChar) =
        log [.readLine, .unreadLine "x".toList, .lineNumber, .readChar, .unreadChar 'y',
          .unreadChar 'z', .readLine, .atEnd] source ∧
      ¬∀ later, log (.unreadChar 'b' :: later) (source.performAll [.readLine]).peekChar.2 =
        log (.unreadChar 'b' :: later) (source.performAll [.readLine]) := by
  refine ⟨⟨[(1, "ab".toList), (2, "cd".toList)], none, 1⟩, by decide +kernel, ?_, ?_⟩
  · exact (looks_unseen _ [.readLine, .peekChar, .unreadLine "x".toList, .lineNumber, .peekChar,
      .readChar, .unreadChar 'y', .peekChar, .unreadChar 'z', .readLine, .atEnd]).1 (by decide)
  · intro told
    rcases ((looks_unseen _ [.readLine]).2 [] 'b' (by simp)).mp told with within | ⟨same, -⟩
    · exact absurd within (by decide)
    · exact absurd same (by decide)

/-- After a look, a character that is put back behind a whole line stands in front of the next one,
and has no line of its own. -/
theorem look_joins_lines :
    ∃ source, ofText "ab\ncd".toList = .ok source ∧
      log [.readLine, .unreadChar 'b', .lineNumber, .readLine, .readLine] source =
        [(.readLine, .line (some "ab".toList)), (.unreadChar 'b', .nothing),
          (.lineNumber, .number 1), (.readLine, .line (some "b".toList)),
          (.readLine, .line (some "cd".toList))] ∧
      (log [.readLine, .peekChar, .unreadChar 'b', .lineNumber, .readLine, .readLine] source).filter
          (fun entry => entry.1 ≠ .peekChar) =
        [(.readLine, .line (some "ab".toList)), (.unreadChar 'b', .nothing),
          (.lineNumber, .number 2), (.readLine, .line (some "bcd".toList)),
          (.readLine, .line none)] := by
  exact ⟨⟨[(1, "ab".toList), (2, "cd".toList)], none, 1⟩, by decide +kernel, by decide, by decide⟩

end Source
end Stencil
