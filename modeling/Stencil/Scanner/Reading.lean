import Stencil.Fault
import Stencil.Source.Basic
import Stencil.Text.Blank

/-! Reading the parts of an element line from a source: names, shortcut values,
quoted values and bare values.

Each reader leaves the character after its part unread.  The lemmas say that no
reader adds unread characters, and that reading a name takes at least one. -/

namespace Stencil

/-! ### Names and shortcuts -/

def isNameStart (character : Char) : Bool :=
  character.isAlpha || character = '_'

def isNameCharacter (character : Char) : Bool :=
  character.isAlphanum || character = '_' || character = '-'

/-- Whether a character is a frequent slip at the start of a name. -/
def isBadNameStart (character : Char) : Bool :=
  character.isDigit || character = '-' || character = '.'

theorem isNameCharacter_of_isNameStart {character : Char}
    (start : isNameStart character = true) : isNameCharacter character = true := by
  simp only [isNameStart, Bool.or_eq_true] at start
  rcases start with letter | underscore
  · simp [isNameCharacter, Char.isAlphanum, letter]
  · simp [isNameCharacter, underscore]

def shortcutAttribute (shortcut : Char) : Option Text :=
  if shortcut = '@' then some "name".toList
  else if shortcut = '.' then some "class".toList
  else if shortcut = '#' then some "id".toList
  else if shortcut = '$' then some "string".toList
  else none

/-- The tag of an element that only shortcuts introduce. -/
def implicitTag : Text := "field".toList

namespace Source

abbrev Reading (α : Type) := Except Fault (α × Source)

def readName (role : NameRole) (source : Source) : Reading Text :=
  match source.peekChar.1 with
  | some character =>
      if isNameStart character then .ok (source.readWhile isNameCharacter)
      else if isBadNameStart character then
        .error (.parse source.lineNumber (.badNameStart role character))
      else .error (.parse source.lineNumber (.missingName role))
  | none => .error (.parse source.lineNumber (.missingName role))

theorem size_readName_lt {role : NameRole} {source after : Source} {name : Text}
    (read : source.readName role = .ok (name, after)) : after.size < source.size := by
  unfold readName at read
  split at read
  · rename_i character next
    split at read
    · rename_i start
      have total := size_readWhile isNameCharacter source
      have taken := @readWhile_ne_nil isNameCharacter source _ next
        (isNameCharacter_of_isNameStart start)
      have nonempty := List.length_pos_iff.mpr taken
      simp only [Except.ok.injEq] at read
      rw [read] at total nonempty
      simp only at total nonempty
      omega
    · split at read <;> simp at read
  · simp at read

/-- The value of a shortcut: underscores of a `$` value stand for spaces. -/
def shortcutValue (shortcut : Char) (value : Text) : Text :=
  if shortcut = '$' then
    value.map fun character => if character = '_' then ' ' else character
  else value

def readShortcutValue (shortcut : Char) (source : Source) : Reading Text :=
  let value := source.readWhile isNameCharacter
  let next := value.2.peekChar
  if next.1 ∈ [some '\x22', some '\x27', some '\x60'] then
    .error (.parse source.lineNumber (.shortcutQuoted shortcut))
  else if next.1 = some '=' then
    .error (.parse source.lineNumber (.shortcutAssigned shortcut))
  else if value.1.isEmpty then
    .error (.parse source.lineNumber (.shortcutEmpty shortcut))
  else .ok (shortcutValue shortcut value.1, next.2)

theorem size_readShortcutValue_le {shortcut : Char} {source after : Source} {value : Text}
    (read : source.readShortcutValue shortcut = .ok (value, after)) :
    after.size ≤ source.size := by
  unfold readShortcutValue at read
  simp only at read
  split at read
  · simp at read
  · split at read
    · simp at read
    · split at read
      · simp at read
      · simp only [Except.ok.injEq, Prod.mk.injEq] at read
        have := size_readWhile isNameCharacter source
        rw [← read.2, size_peekChar]
        omega

def readShortcuts (source : Source) : Reading (List (Text × Text)) :=
  match _next : source.peekChar.1 with
  | none => .ok ([], source.peekChar.2)
  | some shortcut =>
      match shortcutAttribute shortcut with
      | none => .ok ([], source.peekChar.2)
      | some name =>
          match _read : source.readChar.2.readShortcutValue shortcut with
          | .error fault => .error fault
          | .ok (value, after) =>
              match readShortcuts after with
              | .error fault => .error fault
              | .ok (others, last) => .ok ((name, value) :: others, last)
termination_by source.size
decreasing_by
  have := @size_readChar source _ _next
  have := size_readShortcutValue_le _read
  omega

theorem size_readShortcuts_le {source after : Source} {attributes : List (Text × Text)}
    (read : source.readShortcuts = .ok (attributes, after)) :
    after.size ≤ source.size := by
  fun_induction readShortcuts source generalizing attributes after with
  | case1 source next =>
      simp only [Except.ok.injEq, Prod.mk.injEq] at read
      simp [← read.2]
  | case2 source shortcut next none =>
      simp only [Except.ok.injEq, Prod.mk.injEq] at read
      simp [← read.2]
  | case3 => simp at read
  | case4 => simp at read
  | case5 source shortcut next name named value middle valueRead others last othersRead ih =>
      simp only [Except.ok.injEq, Prod.mk.injEq] at read
      have := ih othersRead
      have := size_readChar_le source
      have := size_readShortcutValue_le valueRead
      rw [← read.2]
      omega

theorem size_readShortcuts_lt {source after : Source} {attributes : List (Text × Text)}
    {shortcut : Char} {name : Text} (next : source.readChar.1 = some shortcut)
    (named : shortcutAttribute shortcut = some name)
    (read : source.readShortcuts = .ok (attributes, after)) :
    after.size < source.size := by
  unfold readShortcuts at read
  split at read
  · rename_i ended
    have : source.readChar.1 = none := ended
    rw [this] at next
    contradiction
  · rename_i found same
    have : source.readChar.1 = some found := same
    rw [this] at next
    obtain rfl := Option.some.inj next
    rw [named] at read
    simp only at read
    split at read
    · simp at read
    · rename_i value middle valueRead
      split at read
      · simp at read
      · rename_i others last othersRead
        simp only [Except.ok.injEq, Prod.mk.injEq] at read
        have := size_readChar same
        have := size_readShortcutValue_le valueRead
        have := size_readShortcuts_le othersRead
        rw [← read.2]
        omega

/-! ### Quoted values -/

def mayFollowValue (character : Char) : Bool :=
  character ∈ [' ', '\n', '(', ')', ':', '/', '\\']

def skipSpaces (source : Source) : Source :=
  match _next : source.peekChar.1 with
  | none => source.peekChar.2
  | some character =>
      if character = ' ' then skipSpaces source.readChar.2 else source.peekChar.2
termination_by source.size
decreasing_by
  have := @size_readChar source _ _next
  omega

theorem size_skipSpaces_le (source : Source) : source.skipSpaces.size ≤ source.size := by
  fun_induction skipSpaces source with
  | case1 source next => simp
  | case2 source next ih => exact Nat.le_trans ih (size_readChar_le source)
  | case3 source character next other => simp

/-- Reads the characters of a quoted value after its opening quote.  A backslash
takes the next character as it is; a line break, which must be escaped or stand
in parentheses, reads as one space together with the spaces after it.  Faults are
reported for line `line`. -/
def readQuotation (quote : Char) (multiline : Bool) (line : Nat) (source : Source) :
    Reading Text :=
  match _next : source.readChar.1 with
  | none => .error (.parse line .unterminatedQuote)
  | some character =>
      if character = '\\' then
        match source.readChar.2.readChar.1 with
        | none => .error (.parse line .unterminatedQuote)
        | some escaped =>
            if escaped = '\n' then
              (readQuotation quote multiline line
                source.readChar.2.readChar.2.skipSpaces).map
                  fun (value, last) => (' ' :: value, last)
            else
              (readQuotation quote multiline line source.readChar.2.readChar.2).map
                fun (value, last) => (escaped :: value, last)
      else if character = '\n' then
        if multiline then
          (readQuotation quote multiline line source.readChar.2.skipSpaces).map
            fun (value, last) => (' ' :: value, last)
        else .error (.parse line .newlineInQuote)
      else if character = quote then .ok ([], source.readChar.2)
      else
        (readQuotation quote multiline line source.readChar.2).map
          fun (value, last) => (character :: value, last)
termination_by source.size
decreasing_by
  all_goals
    have := size_readChar _next
    have := size_readChar_le source.readChar.2
    have := size_skipSpaces_le source.readChar.2
    have := size_skipSpaces_le source.readChar.2.readChar.2
    omega

/-- Reads a quoted value after its opening quote and checks what follows it. -/
def readQuoted (quote : Char) (multiline : Bool) (line : Nat) (source : Source) :
    Reading Text :=
  match readQuotation quote multiline line source with
  | .error fault => .error fault
  | .ok (value, after) =>
      match after.peekChar.1 with
      | none => .ok (value, after.peekChar.2)
      | some character =>
          if character = quote then
            .error (.parse after.lineNumber (.unescapedQuote quote))
          else if mayFollowValue character then .ok (value, after.peekChar.2)
          else .error (.parse after.lineNumber (.characterAfterValue character))

theorem exists_of_map_eq_ok {α β : Type} {result : Except Fault α} {change : α → β}
    {value : β} (mapped : result.map change = .ok value) :
    ∃ inner, result = .ok inner ∧ change inner = value := by
  cases result with
  | error fault => contradiction
  | ok inner =>
      cases mapped
      exact ⟨inner, rfl, rfl⟩

theorem size_readQuotation_le {quote : Char} {multiline : Bool} {line : Nat}
    {source after : Source} {value : Text}
    (read : source.readQuotation quote multiline line = .ok (value, after)) :
    after.size ≤ source.size := by
  fun_induction readQuotation quote multiline line source generalizing value after with
  | case1 => simp at read
  | case2 => simp at read
  | case3 source _ _ ih =>
      obtain ⟨⟨inner, last⟩, innerRead, same⟩ := exists_of_map_eq_ok read
      simp only [Prod.mk.injEq] at same
      have := ih innerRead
      have := size_readChar_le source
      have := size_readChar_le source.readChar.2
      have := size_skipSpaces_le source.readChar.2.readChar.2
      rw [← same.2]
      omega
  | case4 source _ _ _ _ ih =>
      obtain ⟨⟨inner, last⟩, innerRead, same⟩ := exists_of_map_eq_ok read
      simp only [Prod.mk.injEq] at same
      have := ih innerRead
      have := size_readChar_le source
      have := size_readChar_le source.readChar.2
      rw [← same.2]
      omega
  | case5 source _ _ _ ih =>
      obtain ⟨⟨inner, last⟩, innerRead, same⟩ := exists_of_map_eq_ok read
      simp only [Prod.mk.injEq] at same
      have := ih innerRead
      have := size_readChar_le source
      have := size_skipSpaces_le source.readChar.2
      rw [← same.2]
      omega
  | case6 => simp at read
  | case7 source =>
      simp only [Except.ok.injEq, Prod.mk.injEq] at read
      rw [← read.2]
      exact size_readChar_le source
  | case8 source _ _ _ _ _ ih =>
      obtain ⟨⟨inner, last⟩, innerRead, same⟩ := exists_of_map_eq_ok read
      simp only [Prod.mk.injEq] at same
      have := ih innerRead
      have := size_readChar_le source
      rw [← same.2]
      omega

theorem size_readQuoted_le {quote : Char} {multiline : Bool} {line : Nat}
    {source after : Source} {value : Text}
    (read : source.readQuoted quote multiline line = .ok (value, after)) :
    after.size ≤ source.size := by
  unfold readQuoted at read
  split at read
  · simp at read
  · rename_i inner last innerRead
    have := size_readQuotation_le innerRead
    split at read
    · simp only [Except.ok.injEq, Prod.mk.injEq] at read
      rw [← read.2, size_peekChar]
      omega
    · split at read
      · simp at read
      · split at read
        · simp only [Except.ok.injEq, Prod.mk.injEq] at read
          rw [← read.2, size_peekChar]
          omega
        · simp at read

def isBare (character : Char) : Bool :=
  character ∉ [' ', '\n', '(', ')', ':', '/']

end Source

end Stencil
