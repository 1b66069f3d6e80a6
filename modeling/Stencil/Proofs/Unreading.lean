import Stencil.Proofs.Operations

/-! Characters that are read and put back.

Put back last character first, a text is there to be read again, and what is left to be drained
has the lines that it had.  The numbers of the lines come back only if no newline was read before
the last character: a newline that is put back parks the line behind it, but the source keeps the
number of the line that was read last, and so every line that was read from gets that number. -/

namespace Stencil
namespace Source

def readChars : Nat → Source → List (Option Char)
  | 0, _ => []
  | count + 1, source => source.readChar.1 :: readChars count source.readChar.2

/-- Puts a text back, its last character first, so that it is read next. -/
def unreadText (text : Text) (source : Source) : Source :=
  text.foldr unreadChar source

def restored (text : Text) (source : Source) : Source :=
  (source.skip text.length).unreadText text

variable {source : Source} {text : Text} {character : Char}

theorem length_readChars (count : Nat) (source : Source) :
    (source.readChars count).length = count := by
  induction count generalizing source with
  | zero => rfl
  | succ count ih => rw [readChars, List.length_cons, ih]

theorem restored_eq {count : Nat} (read : source.readChars count = text.map some) :
    (source.skip count).unreadText text = source.restored text ∧
      source.readChars text.length = text.map some := by
  have length := congrArg List.length read
  rw [length_readChars, List.length_map] at length
  subst length
  exact ⟨rfl, read⟩

theorem restored_cons (character : Char) (text : Text) (source : Source) :
    source.restored (character :: text) =
      (source.readChar.2.restored text).unreadChar character := rfl

theorem restored_fill (character : Char) (text : Text) (source : Source) :
    source.fill.restored (character :: text) = source.restored (character :: text) := by
  rw [restored_cons, restored_cons, readChar_fill]

theorem readChars_fill (count : Nat) (source : Source) :
    source.fill.readChars (count + 1) = source.readChars (count + 1) := by
  rw [readChars, readChars, readChar_fill]

theorem readChars_cons (read : source.readChars (character :: text).length =
    (character :: text).map some) :
    source.readChar.1 = some character ∧ source.readChar.2.readChars text.length = text.map some :=
  List.cons.inj read

/-! ### The characters -/

theorem fill_of_readChar (next : source.readChar.1 = some character) (visible : character ≠ '\n') :
    ∃ lines rest number, source.fill = ⟨lines, some (character :: rest), number⟩ ∧
      source.readChar.2 = ⟨lines, some rest, number⟩ := by
  simp only [readChar] at next ⊢
  generalize source.fill = filled at next ⊢
  obtain ⟨lines, current, number⟩ := filled
  cases current with
  | none => contradiction
  | some unread =>
      cases unread with
      | nil =>
          cases next
          contradiction
      | cons first rest =>
          cases next
          exact ⟨lines, rest, number, rfl, rfl⟩

theorem current_restored (given : text ≠ []) :
    ∃ rest, (source.restored text).current = some rest := by
  cases text with
  | nil => contradiction
  | cons character text => exact current_unreadChar character _

theorem characters_restored (read : source.readChars text.length = text.map some) :
    (source.restored text).characters = source.characters := by
  induction text generalizing source with
  | nil => rfl
  | cons character text ih =>
      obtain ⟨next, later⟩ := readChars_cons read
      have within : character = '\n' ∨
          ∃ rest, (source.readChar.2.restored text).current = some rest := by
        by_cases newline : character = '\n'
        · exact .inl newline
        · right
          by_cases given : text = []
          · subst given
            obtain ⟨lines, rest, number, -, left⟩ := fill_of_readChar next newline
            exact ⟨rest, congrArg current left⟩
          · exact current_restored given
      rw [restored_cons, characters_unreadChar_within within, ih later, characters_readChar]
      rw [readChar_fst] at next
      exact List.cons_head?_tail next

theorem Unbroken.restored (unbroken : source.Unbroken) : (source.restored text).Unbroken := by
  induction text generalizing source with
  | nil => exact unbroken
  | cons character text ih => exact (ih unbroken.readChar).unreadChar character

/-- Within a line, reading and putting back does no more than to begin with that line. -/
theorem restored_within (read : source.readChars text.length = text.map some) (given : text ≠ [])
    (within : '\n' ∉ text) : source.restored text = source.fill := by
  induction text generalizing source with
  | nil => contradiction
  | cons character text ih =>
      obtain ⟨next, later⟩ := readChars_cons read
      rw [List.mem_cons, not_or] at within
      obtain ⟨lines, rest, number, filled, left⟩ := fill_of_readChar next (Ne.symm within.1)
      have same : source.readChar.2.restored text = source.readChar.2 := by
        by_cases more : text = []
        · subst more
          rfl
        · rw [ih later more within.2, left]
          rfl
      rw [restored_cons, same, left, filled, unreadChar, if_neg (Ne.symm within.1)]
      rfl

/-- However a source was reached, if no line was put back with a newline in it: characters that
are read and put back, last one first, leave the lines that were there, and within a line also
the line number. -/
theorem unread_restores_lines {start : Source} {operations : List Operation} {count : Nat}
    (loads : start.IsLoaded)
    (free : ∀ line, Operation.unreadLine line ∈ operations → '\n' ∉ line)
    (reached : start.performAll operations = source)
    (read : source.readChars count = text.map some) :
    ((source.skip count).unreadText text).drain.1.map Prod.snd = source.drain.1.map Prod.snd ∧
      ('\n' ∉ text → ((source.skip count).unreadText text).lineNumber = source.lineNumber) := by
  have unbroken : source.Unbroken := reached ▸ loads.unbroken.performAll free
  obtain ⟨same, read⟩ := restored_eq read
  rw [same]
  constructor
  · rw [unbroken.restored.map_snd_drain, unbroken.map_snd_drain, characters_restored read]
  · intro within
    by_cases given : text = []
    · subst given
      rfl
    · rw [restored_within read given within, lineNumber_fill]

/-- Over the rest of a line that was put back, an empty line that a newline was put back for, and
the rest of a loaded line. -/
theorem unread_restores_lines_mixed :
    ∃ start source, ofText "ab\n\ncd".toList = .ok start ∧
      start.performAll
          [.readChar, .unreadChar '\n', .unreadLine "xy".toList, .readChar, .peekChar] = source ∧
      ((source.skip 6).unreadText "y\n\nb\n\n".toList).drain.1.map Prod.snd =
        ["y".toList, [], "b".toList, [], "cd".toList] ∧
      ((source.skip 1).unreadText "y".toList).lineNumber = source.lineNumber := by
  have loads : ofText "ab\n\ncd".toList =
      .ok ⟨[(1, "ab".toList), (2, []), (3, "cd".toList)], none, 1⟩ := by
    decide +kernel
  have free : ∀ line, Operation.unreadLine line ∈
      [.readChar, .unreadChar '\n', .unreadLine "xy".toList, .readChar, .peekChar] →
        '\n' ∉ line := by
    intro line member
    simp only [List.mem_cons, reduceCtorEq, Operation.unreadLine.injEq, List.not_mem_nil,
      or_false, false_or] at member
    subst member
    decide
  refine ⟨_, _, loads, rfl, ?_, ?_⟩
  · rw [(unread_restores_lines (.inl ⟨_, loads⟩) free rfl (by decide)).1, drain_fst]
    rfl
  · exact (unread_restores_lines (.inl ⟨_, loads⟩) free rfl (by decide)).2 (by decide)

/-! ### The numbers -/

/-- The unread lines are numbered one by one from where the source stands. -/
def Consecutive (source : Source) : Prop :=
  ∃ texts, source.park.lines = numberFrom source.lineNumber texts

def raiseNumbers (least : Nat) (lines : List (Nat × Text)) : List (Nat × Text) :=
  lines.map fun entry => (max entry.1 least, entry.2)

theorem raiseNumbers_numberFrom {least first : Nat} (texts : List Text) (bound : least ≤ first) :
    raiseNumbers least (numberFrom first texts) = numberFrom first texts := by
  induction texts generalizing first with
  | nil => rfl
  | cons text others ih =>
      have later := ih (Nat.le_succ_of_le bound)
      rw [raiseNumbers] at later ⊢
      rw [numberFrom, List.map_cons, later, Nat.max_eq_left bound]

theorem raiseNumbers_cons {least number : Nat} (line : Text) (others : List (Nat × Text))
    (bound : number ≤ least) :
    raiseNumbers least ((number, line) :: others) = (least, line) :: raiseNumbers least others := by
  rw [raiseNumbers, List.map_cons, Nat.max_eq_right bound]
  rfl

def atLine (number : Nat) (rest : Text) (texts : List Text) : Source :=
  ⟨numberFrom (number + 1) texts, some rest, number⟩

theorem lines_atLine (number : Nat) (rest : Text) (texts : List Text) :
    (atLine number rest texts).park.lines = (number, rest) :: numberFrom (number + 1) texts := rfl

theorem lines_park_fill (source : Source) : source.fill.park.lines = source.park.lines := by
  rw [← drain_fst, ← drain_fst, drain, readLine_fill, lineNumber_fill, ← drain]

namespace Consecutive

theorem between (number next : Nat) (texts : List Text) :
    (Source.mk (numberFrom next texts) none number).Consecutive := by
  cases texts with
  | nil => exact ⟨[], rfl⟩
  | cons text others => exact ⟨text :: others, rfl⟩

theorem fill_eq (consecutive : source.Consecutive) (next : source.readChar.1 = some character) :
    ∃ rest texts, source.fill = atLine source.lineNumber rest texts := by
  obtain ⟨texts, numbered⟩ := consecutive
  obtain ⟨lines, current, number⟩ := source
  match current, lines with
  | none, [] => contradiction
  | none, (first, line) :: others =>
      cases texts with
      | nil => contradiction
      | cons text texts =>
          obtain rfl : others = numberFrom (first + 1) texts := (List.cons.inj numbered).2
          exact ⟨line, texts, rfl⟩
  | some rest, lines =>
      cases texts with
      | nil => contradiction
      | cons text texts =>
          obtain rfl : lines = numberFrom (number + 1) texts := (List.cons.inj numbered).2
          exact ⟨rest, texts, rfl⟩

theorem raiseNumbers_lines (consecutive : source.Consecutive) :
    raiseNumbers source.lineNumber source.park.lines = source.park.lines := by
  obtain ⟨texts, numbered⟩ := consecutive
  rw [numbered]
  exact raiseNumbers_numberFrom texts (Nat.le_refl _)

theorem readChar (consecutive : source.Consecutive) : source.readChar.2.Consecutive := by
  cases next : source.readChar.1 with
  | none =>
      rw [eq_ended_of_readChar next]
      exact between _ 0 []
  | some character =>
      obtain ⟨rest, texts, filled⟩ := consecutive.fill_eq next
      rw [← readChar_fill, filled]
      cases rest with
      | nil => exact between _ _ texts
      | cons first rest => exact ⟨rest :: texts, rfl⟩

theorem readLine (consecutive : source.Consecutive) : source.readLine.2.Consecutive := by
  cases next : source.readChar.1 with
  | none =>
      rw [eq_ended_of_readChar next]
      exact between _ 0 []
  | some character =>
      obtain ⟨rest, texts, filled⟩ := consecutive.fill_eq next
      rw [← readLine_fill, filled]
      exact between _ _ texts

theorem performAll {operations : List Operation} (consecutive : source.Consecutive)
    (reads : ∀ operation ∈ operations, operation = .readChar ∨ operation = .readLine) :
    (source.performAll operations).Consecutive := by
  induction operations generalizing source with
  | nil => exact consecutive
  | cons operation others ih =>
      rw [List.forall_mem_cons] at reads
      apply ih _ reads.2
      rcases reads.1 with rfl | rfl
      · exact consecutive.readChar
      · exact consecutive.readLine

end Consecutive

theorem IsLoaded.consecutive (loads : source.IsLoaded) : source.Consecutive := by
  obtain ⟨first, text, -, loads⟩ := loads.exists_ofLines
  obtain ⟨-, rfl⟩ := ofLines_eq_ok_iff.mp loads
  exact .between first first text.lines

theorem lines_unreadChar_newline (source : Source) :
    (source.unreadChar '\n').park.lines = (source.number, []) :: source.park.lines := by
  obtain ⟨lines, current, number⟩ := source
  cases current <;> rfl

theorem lines_unreadChar_within {number : Nat} {rest : Text} {others : List (Nat × Text)}
    (visible : character ≠ '\n') (within : ∃ unread, source.current = some unread)
    (lines : source.park.lines = (number, rest) :: others) :
    (source.unreadChar character).park.lines = (number, character :: rest) :: others := by
  obtain ⟨unread, given⟩ := within
  obtain ⟨later, current, last⟩ := source
  obtain rfl : current = some unread := given
  cases lines
  rw [unreadChar, if_neg visible]
  rfl

theorem restored_singleton {number : Nat} {rest : Text} {texts : List Text}
    (unbroken : (atLine number rest texts).Unbroken)
    (next : (atLine number rest texts).readChar.1 = some character) :
    (atLine number rest texts).restored [character] = atLine number rest texts := by
  cases rest with
  | nil =>
      cases next
      rfl
  | cons first rest =>
      cases next
      obtain ⟨free, -⟩ := List.forall_mem_cons.mp unbroken
      rw [List.mem_cons, not_or] at free
      rw [restored_cons, unreadChar, if_neg (Ne.symm free.1)]
      rfl

/-- Put back from inside a line, the lines have the number of the line that was read last, or a
higher one that they had. -/
theorem restored_atLine {number : Nat} {rest : Text} {texts : List Text}
    (unbroken : (atLine number rest texts).Unbroken)
    (read : (atLine number rest texts).readChars text.length = text.map some) (given : text ≠ []) :
    ((atLine number rest texts).restored text).number = number + text.dropLast.count '\n' ∧
      ((atLine number rest texts).restored text).park.lines =
        raiseNumbers (number + text.dropLast.count '\n') (atLine number rest texts).park.lines := by
  induction text generalizing number rest texts with
  | nil => contradiction
  | cons character text ih =>
      obtain ⟨next, later⟩ := readChars_cons read
      cases text with
      | nil =>
          rw [restored_singleton unbroken next]
          exact ⟨rfl, (raiseNumbers_numberFrom (rest :: texts) (Nat.le_refl number)).symm⟩
      | cons second text =>
          obtain ⟨free, others⟩ := List.forall_mem_cons.mp unbroken
          rw [restored_cons, number_unreadChar, lines_atLine, List.dropLast_cons_cons]
          cases rest with
          | nil =>
              cases next
              cases texts with
              | nil =>
                  have ended := (List.cons.inj later).1
                  contradiction
              | cons line texts =>
                  -- behind the newline the next line is current, under the next number
                  obtain ⟨last, lines⟩ := @ih (number + 1) line texts others later (by simp)
                  have count : number + ((second :: text).dropLast.count '\n' + 1) =
                      number + 1 + (second :: text).dropLast.count '\n' := by
                    omega
                  rw [lines_unreadChar_newline, List.count_cons_self, count,
                    raiseNumbers_cons _ _ (by omega)]
                  exact ⟨last, congrArg₂ (fun number later => (number, []) :: later) last lines⟩
          | cons first rest =>
              cases next
              rw [List.mem_cons, not_or] at free
              have visible : character ≠ '\n' := Ne.symm free.1
              have left : (atLine number rest texts).Unbroken :=
                List.forall_mem_cons.mpr ⟨free.2, others⟩
              obtain ⟨last, lines⟩ := ih left later (by simp)
              rw [lines_atLine, raiseNumbers_cons _ _ (Nat.le_add_right _ _)] at lines
              rw [List.count_cons_of_ne visible, raiseNumbers_cons _ _ (Nat.le_add_right _ _)]
              exact ⟨last, lines_unreadChar_within visible (current_restored (by simp)) lines⟩

theorem position_restored (consecutive : source.Consecutive) (unbroken : source.Unbroken)
    (read : source.readChars text.length = text.map some) :
    (source.restored text).lineNumber = source.lineNumber + text.dropLast.count '\n' ∧
      (source.restored text).park.lines =
        raiseNumbers (source.lineNumber + text.dropLast.count '\n') source.park.lines := by
  cases text with
  | nil => exact ⟨rfl, consecutive.raiseNumbers_lines.symm⟩
  | cons character text =>
      obtain ⟨next, -⟩ := readChars_cons read
      obtain ⟨rest, texts, filled⟩ := consecutive.fill_eq next
      have position := @restored_atLine (character :: text) source.lineNumber rest texts
        (filled ▸ unbroken.fill) (filled ▸ (readChars_fill _ source).trans read) (by simp)
      rw [← filled, restored_fill, lines_park_fill] at position
      rw [lineNumber_within (current_restored (by simp))]
      exact position

/-- After any reads of characters and lines: characters that are read and put back leave the source
at the number of the line that was read last, and every line with a lower number gets that one.
The numbers are those of before exactly if no newline was read before the last character. -/
theorem unread_position {start : Source} {operations : List Operation} {count : Nat}
    (loads : start.IsLoaded)
    (reads : ∀ operation ∈ operations, operation = .readChar ∨ operation = .readLine)
    (reached : start.performAll operations = source)
    (read : source.readChars count = text.map some) :
    ((source.skip count).unreadText text).lineNumber =
        source.lineNumber + text.dropLast.count '\n' ∧
      ((source.skip count).unreadText text).drain.1 =
        raiseNumbers ((source.skip count).unreadText text).lineNumber source.drain.1 ∧
      (((source.skip count).unreadText text).lineNumber = source.lineNumber ∧
          ((source.skip count).unreadText text).drain.1 = source.drain.1 ↔
        '\n' ∉ text.dropLast) := by
  have free : ∀ line, Operation.unreadLine line ∈ operations → '\n' ∉ line := by
    intro line member
    rcases reads _ member with same | same
    · contradiction
    · contradiction
  have unbroken : source.Unbroken := reached ▸ loads.unbroken.performAll free
  have consecutive : source.Consecutive := reached ▸ loads.consecutive.performAll reads
  obtain ⟨same, read⟩ := restored_eq read
  obtain ⟨number, lines⟩ := position_restored consecutive unbroken read
  rw [same, drain_fst, drain_fst, number, lines]
  refine ⟨rfl, rfl, ?_⟩
  constructor
  · rintro ⟨unmoved, -⟩
    rw [← List.count_eq_zero]
    omega
  · intro within
    rw [List.count_eq_zero.mpr within, Nat.add_zero]
    exact ⟨rfl, consecutive.raiseNumbers_lines⟩

/-- From the end of a line the numbers come back, and from behind it they do not. -/
theorem unread_position_lineEnd :
    ∃ start source, ofText "a\nb\nc".toList = .ok start ∧ start.performAll [.readLine] = source ∧
      ((source.skip 2).unreadText "b\n".toList).lineNumber = source.lineNumber ∧
      ((source.skip 2).unreadText "b\n".toList).drain.1 = source.drain.1 ∧
      ((source.skip 3).unreadText "b\nc".toList).drain.1 = [(3, "b".toList), (3, "c".toList)] := by
  have loads : ofText "a\nb\nc".toList =
      .ok ⟨[(1, "a".toList), (2, "b".toList), (3, "c".toList)], none, 1⟩ := by
    decide +kernel
  have reads : ∀ operation ∈ [Operation.readLine],
      operation = .readChar ∨ operation = .readLine := by
    simp
  refine ⟨_, _, loads, rfl, ?_⟩
  have ended := unread_position (.inl ⟨_, loads⟩) reads rfl
    (by decide : readChars 2 _ = List.map some "b\n".toList)
  have crossed := unread_position (.inl ⟨_, loads⟩) reads rfl
    (by decide : readChars 3 _ = List.map some "b\nc".toList)
  obtain ⟨numbers, lines⟩ := ended.2.2.mpr (by decide)
  refine ⟨numbers, lines, ?_⟩
  rw [crossed.2.1, crossed.1, drain_fst]
  rfl

/-- Both lines of a text that is read and put back have the number of the second one. -/
theorem unread_break_renumbers :
    ∃ start, ofText "a\nb".toList = .ok start ∧ start.lineNumber = 1 ∧
      start.drain.1 = [(1, "a".toList), (2, "b".toList)] ∧
      start.readChars 3 = "a\nb".toList.map some ∧
      ((start.skip 3).unreadText "a\nb".toList).lineNumber = 2 ∧
      ((start.skip 3).unreadText "a\nb".toList).drain.1 = [(2, "a".toList), (2, "b".toList)] := by
  refine ⟨⟨[(1, "a".toList), (2, "b".toList)], none, 1⟩, by decide +kernel, rfl, ?_, by decide,
    rfl, ?_⟩
  · rw [drain_fst]
    rfl
  · rw [drain_fst]
    rfl

end Source
end Stencil
