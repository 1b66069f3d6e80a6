import Stencil.Proofs.DocumentLoading
import Stencil.Proofs.UnreadText

/-! Sources in use.

A source is reached from a loaded one by operations, each with its answer.  Two things are told
of the sources that are reached: what is left to be drained are the unread lines as they stand
with the current line put back, and no unread line has a newline in it unless one was put back
that had. -/

namespace Stencil
namespace Source

/-! ### Operations -/

/-- What a source can be asked. -/
inductive Operation where
  | readChar
  | peekChar
  | readLine
  | peekLine
  | unreadChar (character : Char)
  | unreadLine (line : Text)
  | lineNumber
  | atEnd
  deriving DecidableEq, Repr

inductive Answer where
  | character (found : Option Char)
  | line (found : Option Text)
  | number (value : Nat)
  | truth (value : Bool)
  | nothing
  deriving DecidableEq, Repr

def Operation.perform : Operation → Source → Answer × Source
  | .readChar, source => (.character source.readChar.1, source.readChar.2)
  | .peekChar, source => (.character source.peekChar.1, source.peekChar.2)
  | .readLine, source => (.line source.readLine.1, source.readLine.2)
  | .peekLine, source => (.line source.peekLine, source)
  | .unreadChar character, source => (.nothing, source.unreadChar character)
  | .unreadLine line, source => (.nothing, source.unreadLine line)
  | .lineNumber, source => (.number source.lineNumber, source)
  | .atEnd, source => (.truth source.atEnd, source)

def performAll : List Operation → Source → Source
  | [], source => source
  | operation :: others, source => performAll others (operation.perform source).2

def log : List Operation → Source → List (Operation × Answer)
  | [], _ => []
  | operation :: others, source =>
      (operation, (operation.perform source).1) :: log others (operation.perform source).2

/-! ### Draining -/

/-- What is drained are the unread lines, the rest of the current line first. -/
theorem drain_fst (source : Source) : source.drain.1 = source.park.lines := by
  fun_induction drain source with
  | case1 source next =>
      obtain ⟨lines, current, number⟩ := source
      match current, lines with
      | none, [] => rfl
      | none, entry :: others => contradiction
      | some rest, lines => contradiction
  | case2 source line next others ih =>
      simp only [others, ih]
      obtain ⟨lines, current, number⟩ := source
      match current, lines with
      | none, [] => contradiction
      | none, (first, text) :: later =>
          cases next
          rfl
      | some rest, lines =>
          cases next
          rfl

/-! ### Single characters -/

section PuttingBack

variable {source : Source} {character : Char}

theorem current_unreadChar (character : Char) (source : Source) :
    ∃ rest, (source.unreadChar character).current = some rest := by
  unfold unreadChar
  split
  · exact ⟨[], rfl⟩
  · exact ⟨_, rfl⟩

/-- A newline can be put back anywhere, any other character within a line only. -/
theorem characters_unreadChar_within
    (within : character = '\n' ∨ ∃ rest, source.current = some rest) :
    (source.unreadChar character).characters = character :: source.characters := by
  by_cases newline : character = '\n'
  · subst newline
    rfl
  · obtain ⟨rest, given⟩ := within.resolve_left newline
    obtain ⟨lines, current, number⟩ := source
    obtain rfl : current = some rest := given
    simp [unreadChar, newline]

theorem number_unreadChar (character : Char) (source : Source) :
    (source.unreadChar character).number = source.number := by
  obtain ⟨lines, current, number⟩ := source
  unfold unreadChar
  split
  · cases current <;> rfl
  · rfl

theorem lineNumber_within (within : ∃ rest, source.current = some rest) :
    source.lineNumber = source.number := by
  obtain ⟨rest, given⟩ := within
  rw [lineNumber, given]

theorem lineNumber_unreadChar (character : Char) (source : Source) :
    (source.unreadChar character).lineNumber = source.number := by
  rw [lineNumber_within (current_unreadChar character source), number_unreadChar]

end PuttingBack

/-! ### Lines without newlines -/

/-- No unread line has a newline in it. -/
def Unbroken (source : Source) : Prop :=
  ∀ entry ∈ source.park.lines, '\n' ∉ entry.2

namespace Unbroken

variable {source : Source}

theorem map_snd_drain (unbroken : source.Unbroken) :
    source.drain.1.map Prod.snd = source.characters.lines := by
  rw [drain_fst, characters, Text.lines_flatMap]
  intro line member
  obtain ⟨entry, given, rfl⟩ := List.mem_map.mp member
  exact unbroken entry given

theorem fill (unbroken : source.Unbroken) : source.fill.Unbroken := by
  obtain ⟨lines, current, number⟩ := source
  match current, lines with
  | none, [] => exact unbroken
  | none, (next, line) :: others => exact unbroken
  | some rest, lines => exact unbroken

theorem readChar (unbroken : source.Unbroken) : source.readChar.2.Unbroken := by
  have filled := unbroken.fill
  show source.fill.tail.Unbroken
  generalize source.fill = source at filled ⊢
  obtain ⟨lines, current, number⟩ := source
  match current with
  | none => exact filled
  | some [] => exact (List.forall_mem_cons.mp filled).2
  | some (character :: rest) =>
      obtain ⟨first, later⟩ := List.forall_mem_cons.mp filled
      refine List.forall_mem_cons.mpr ⟨?_, later⟩
      exact fun member => first (List.mem_cons_of_mem character member)

theorem readLine (unbroken : source.Unbroken) : source.readLine.2.Unbroken := by
  obtain ⟨lines, current, number⟩ := source
  match current, lines with
  | none, [] => exact unbroken
  | none, (next, line) :: others => exact (List.forall_mem_cons.mp unbroken).2
  | some rest, lines => exact (List.forall_mem_cons.mp unbroken).2

theorem unreadChar (unbroken : source.Unbroken) (character : Char) :
    (source.unreadChar character).Unbroken := by
  by_cases newline : character = '\n'
  · rw [Source.unreadChar, if_pos newline]
    exact List.forall_mem_cons.mpr ⟨List.not_mem_nil, unbroken⟩
  · rw [Source.unreadChar, if_neg newline]
    obtain ⟨lines, current, number⟩ := source
    cases current with
    | none =>
        refine List.forall_mem_cons.mpr ⟨?_, unbroken⟩
        simp [Ne.symm newline]
    | some rest =>
        obtain ⟨first, later⟩ := List.forall_mem_cons.mp unbroken
        refine List.forall_mem_cons.mpr ⟨?_, later⟩
        simpa [Ne.symm newline] using first

theorem unreadLine (unbroken : source.Unbroken) {line : Text} (free : '\n' ∉ line) :
    (source.unreadLine line).Unbroken := by
  obtain ⟨lines, current, number⟩ := source
  cases current with
  | none => exact List.forall_mem_cons.mpr ⟨free, unbroken⟩
  | some rest => exact List.forall_mem_cons.mpr ⟨free, unbroken⟩

theorem perform {operation : Operation} (unbroken : source.Unbroken)
    (free : ∀ line, operation = .unreadLine line → '\n' ∉ line) :
    (operation.perform source).2.Unbroken := by
  cases operation with
  | readChar => exact unbroken.readChar
  | peekChar => exact unbroken.fill
  | readLine => exact unbroken.readLine
  | peekLine => exact unbroken
  | unreadChar character => exact unbroken.unreadChar character
  | unreadLine line => exact unbroken.unreadLine (free line rfl)
  | lineNumber => exact unbroken
  | atEnd => exact unbroken

theorem performAll {operations : List Operation} (unbroken : source.Unbroken)
    (free : ∀ line, .unreadLine line ∈ operations → '\n' ∉ line) :
    (source.performAll operations).Unbroken := by
  induction operations generalizing source with
  | nil => exact unbroken
  | cons operation others ih =>
      apply ih
      · exact unbroken.perform fun line same => free line (same ▸ List.mem_cons_self)
      · exact fun line member => free line (List.mem_cons_of_mem _ member)

end Unbroken

theorem IsLoaded.unbroken {source : Source} (loads : IsLoaded source) : source.Unbroken := by
  obtain ⟨started, loaded⟩ := loads.loaded
  have parked : source.park = source := by
    rw [park, started]
  intro entry member
  rw [parked] at member
  exact loaded.unbroken entry member

end Source
end Stencil
