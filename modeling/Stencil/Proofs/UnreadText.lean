import Stencil.Proofs.LineReading
import Stencil.Proofs.Names

/-! Reading from a source as reading from one text.

A source keeps the rest of the current line and the unread lines apart.  The readers of names
and quoted values go over line ends without looking at that: what they read, and what they
leave, is told from the characters that are still to be read. -/

namespace Stencil
namespace Source

/-- The characters that are still to be read: what is left of the current line and all the
unread lines, each with its newline. -/
def characters (source : Source) : Text :=
  (source.park.lines.map Prod.snd).flatMap fun line => line ++ ['\n']

variable {source : Source}

section Characters

variable {lines : List (Nat × Text)} {number next : Nat} {line rest : Text}

@[simp] theorem characters_next :
    (Source.mk ((next, line) :: lines) none number).characters =
      line ++ '\n' :: (Source.mk lines none number).characters := by
  simp [characters, park]

@[simp] theorem characters_inside :
    (Source.mk lines (some rest) number).characters =
      rest ++ '\n' :: (Source.mk lines none number).characters := by
  simp [characters, park]

end Characters

/-! ### Characters one by one -/

@[simp] theorem characters_fill (source : Source) : source.fill.characters = source.characters := by
  obtain ⟨lines, current, number⟩ := source
  match current, lines with
  | none, [] => rfl
  | none, (next, line) :: others => rfl
  | some rest, lines => rfl

theorem readChar_fst (source : Source) : source.readChar.1 = source.characters.head? := by
  obtain ⟨lines, current, number⟩ := source
  match current, lines with
  | none, [] => rfl
  | none, (next, []) :: others => rfl
  | none, (next, character :: rest) :: others => rfl
  | some [], lines => rfl
  | some (character :: rest), lines => rfl

theorem characters_readChar (source : Source) :
    source.readChar.2.characters = source.characters.tail := by
  obtain ⟨lines, current, number⟩ := source
  match current, lines with
  | none, [] => rfl
  | none, (next, []) :: others => rfl
  | none, (next, character :: rest) :: others => rfl
  | some [], lines => rfl
  | some (character :: rest), lines => rfl

theorem peekChar_fst (source : Source) : source.peekChar.1 = source.characters.head? :=
  readChar_fst source

theorem characters_peekChar (source : Source) :
    source.peekChar.2.characters = source.characters :=
  characters_fill source

theorem characters_unreadChar {character : Char} (next : source.readChar.1 = some character) :
    (source.readChar.2.unreadChar character).characters = source.characters := by
  rw [← characters_fill source]
  simp only [readChar] at next ⊢
  generalize source.fill = filled at next ⊢
  obtain ⟨lines, current, number⟩ := filled
  cases current with
  | none => contradiction
  | some unread =>
      cases unread with
      | nil =>
          cases next
          rfl
      | cons first rest =>
          cases next
          by_cases newline : character = '\n'
          · simp [tail, unreadChar, newline, park]
          · simp [tail, unreadChar, newline]

theorem peekLine_of_characters (ended : source.characters = []) : source.peekLine = none := by
  obtain ⟨lines, current, number⟩ := source
  match current, lines with
  | none, [] => rfl
  | none, (next, line) :: others => simp at ended
  | some rest, lines => simp at ended

/-! ### Loops -/

theorem readWhile_fst (test : Char → Bool) (source : Source) :
    (source.readWhile test).1 = source.characters.takeWhile test := by
  fun_induction readWhile test source with
  | case1 source next =>
      rw [readChar_fst, List.head?_eq_none_iff] at next
      rw [next]
      rfl
  | case2 source character next passes others ih =>
      rw [readChar_fst, List.head?_eq_some_iff] at next
      obtain ⟨rest, whole⟩ := next
      rw [characters_readChar, whole] at ih
      simp only [whole, List.takeWhile_cons, passes, if_true, others, ih, List.tail_cons]
  | case3 source character next fails =>
      rw [readChar_fst, List.head?_eq_some_iff] at next
      obtain ⟨rest, whole⟩ := next
      simp [whole, fails]

theorem characters_readWhile (test : Char → Bool) (source : Source) :
    (source.readWhile test).2.characters = source.characters.dropWhile test := by
  fun_induction readWhile test source with
  | case1 source next =>
      rw [readChar_fst, List.head?_eq_none_iff] at next
      rw [characters_readChar, next]
      rfl
  | case2 source character next passes others ih =>
      rw [readChar_fst, List.head?_eq_some_iff] at next
      obtain ⟨rest, whole⟩ := next
      rw [characters_readChar, whole] at ih
      simp only [whole, List.dropWhile_cons, passes, if_true, others, ih, List.tail_cons]
  | case3 source character next fails =>
      rw [characters_unreadChar next]
      rw [readChar_fst, List.head?_eq_some_iff] at next
      obtain ⟨rest, whole⟩ := next
      simp [whole, fails]

theorem characters_skipSpaces (source : Source) :
    source.skipSpaces.characters = source.characters.dropWhile (· = ' ') := by
  fun_induction skipSpaces source with
  | case1 source next =>
      rw [peekChar_fst, List.head?_eq_none_iff] at next
      rw [characters_peekChar, next]
      rfl
  | case2 source next ih =>
      rw [peekChar_fst, List.head?_eq_some_iff] at next
      obtain ⟨rest, whole⟩ := next
      rw [ih, characters_readChar, whole]
      simp
  | case3 source character next other =>
      rw [characters_peekChar]
      rw [peekChar_fst, List.head?_eq_some_iff] at next
      obtain ⟨rest, whole⟩ := next
      simp [whole, other]

/-! ### Readers -/

/-- A reader reads a value and leaves a text unread. -/
def Reads {α : Type} (result : Reading α) (value : α) (rest : Text) : Prop :=
  ∃ after, result = .ok (value, after) ∧ after.characters = rest

theorem Reads.map {α β : Type} {result : Reading α} {value : α} {rest : Text}
    (reads : Reads result value rest) (change : α → β) :
    Reads (result.map fun (value, after) => (change value, after)) (change value) rest := by
  obtain ⟨after, rfl, left⟩ := reads
  exact ⟨after, rfl, left⟩

theorem reads_readName {name rest : Text} {next : Char} (role : NameRole)
    (named : isName name = true) (stops : isNameCharacter next = false)
    (unread : source.characters = name ++ next :: rest) :
    Reads (source.readName role) name (next :: rest) := by
  obtain ⟨-, fits⟩ := isNameCharacter_of_isName named
  have taken : (source.readWhile isNameCharacter).1 = name := by
    rw [readWhile_fst, unread, List.takeWhile_append_of_pos fits]
    simp [stops]
  have left : (source.readWhile isNameCharacter).2.characters = next :: rest := by
    rw [characters_readWhile, unread, List.dropWhile_append_of_pos fits]
    simp [stops]
  refine ⟨(source.readWhile isNameCharacter).2, ?_, left⟩
  cases name with
  | nil => contradiction
  | cons first others =>
      rw [isName_cons, Bool.and_eq_true] at named
      simp only [readName, peekChar_fst, unread, List.cons_append, List.head?_cons, named.1, if_true]
      rw [← taken]

/-! ### Quoted values -/

/-- From a text, a quoted value is read up to its closing quote, and a rest is left. -/
def QuotationReads (quote : Char) (multiline : Bool) (text value rest : Text) : Prop :=
  ∀ (source : Source) (line : Nat), source.characters = text →
    Reads (source.readQuotation quote multiline line) value rest

theorem readQuotation_of_ne {quote character : Char} {multiline : Bool} {line : Nat}
    (next : source.readChar.1 = some character) (unescaped : character ≠ '\\') :
    source.readQuotation quote multiline line =
      if character = '\n' then
        if multiline then
          (source.readChar.2.skipSpaces.readQuotation quote multiline line).map
            fun (value, last) => (' ' :: value, last)
        else .error (.parse line .newlineInQuote)
      else if character = quote then .ok ([], source.readChar.2)
      else
        (source.readChar.2.readQuotation quote multiline line).map
          fun (value, last) => (character :: value, last) := by
  rw [readQuotation]
  split
  · rename_i ended
    rw [next] at ended
    contradiction
  · rename_i found same
    rw [next] at same
    cases same
    rw [if_neg unescaped]

namespace QuotationReads

variable {quote character : Char} {multiline : Bool} {text value rest : Text}

theorem close (rest : Text) (sign : quote ≠ '\\' ∧ quote ≠ '\n') :
    QuotationReads quote multiline (quote :: rest) [] rest := by
  intro source line unread
  have next : source.readChar.1 = some quote := by rw [readChar_fst, unread, List.head?_cons]
  have left : source.readChar.2.characters = rest := by
    rw [characters_readChar, unread, List.tail_cons]
  refine ⟨source.readChar.2, ?_, left⟩
  rw [readQuotation_of_ne next sign.1, if_neg sign.2, if_pos rfl]

theorem escape (later : QuotationReads quote multiline text value rest)
    (visible : character ≠ '\n') :
    QuotationReads quote multiline ('\\' :: character :: text) (character :: value) rest := by
  intro source line unread
  have next : source.readChar.1 = some '\\' := by rw [readChar_fst, unread, List.head?_cons]
  have escaped : source.readChar.2.readChar.1 = some character := by
    rw [readChar_fst, characters_readChar, unread, List.tail_cons, List.head?_cons]
  have left : source.readChar.2.readChar.2.characters = text := by
    rw [characters_readChar, characters_readChar, unread, List.tail_cons, List.tail_cons]
  rw [readQuotation]
  split
  · rename_i ended
    rw [next] at ended
    contradiction
  · rename_i found same
    rw [next] at same
    cases same
    simp only [if_true, escaped, if_neg visible]
    exact (later _ line left).map (character :: ·)

theorem plain (later : QuotationReads quote multiline text value rest) (visible : character ≠ '\n')
    (unescaped : character ≠ '\\') (inside : character ≠ quote) :
    QuotationReads quote multiline (character :: text) (character :: value) rest := by
  intro source line unread
  have next : source.readChar.1 = some character := by rw [readChar_fst, unread, List.head?_cons]
  have left : source.readChar.2.characters = text := by
    rw [characters_readChar, unread, List.tail_cons]
  rw [readQuotation_of_ne next unescaped, if_neg visible, if_neg inside]
  exact (later _ line left).map (character :: ·)

/-- In parentheses, a newline with all the spaces after it is read as one space. -/
theorem lineBreak (later : QuotationReads quote true text value rest) (width : Nat)
    (unspaced : text.head? ≠ some ' ') :
    QuotationReads quote true ('\n' :: (Text.spaces width ++ text)) (' ' :: value) rest := by
  intro source line unread
  have next : source.readChar.1 = some '\n' := by rw [readChar_fst, unread, List.head?_cons]
  have left : source.readChar.2.skipSpaces.characters = text := by
    rw [characters_skipSpaces, characters_readChar, unread, List.tail_cons, Text.dropWhile_space,
      Text.leadingSpaces_spaces_append width unspaced]
    exact List.drop_left' (by simp [Text.spaces])
  rw [readQuotation_of_ne next (by decide), if_pos rfl, if_pos rfl]
  exact (later _ line left).map (' ' :: ·)

end QuotationReads

theorem reads_readQuoted {quote next : Char} {multiline : Bool} {text value rest : Text}
    (reads : QuotationReads quote multiline text value (next :: rest))
    (follows : mayFollowValue next = true) (other : next ≠ quote) (line : Nat)
    (unread : source.characters = text) :
    Reads (source.readQuoted quote multiline line) value (next :: rest) := by
  obtain ⟨after, read, left⟩ := reads source line unread
  refine ⟨after.peekChar.2, ?_, by rw [characters_peekChar, left]⟩
  have peeked : after.peekChar.1 = some next := by rw [peekChar_fst, left, List.head?_cons]
  simp only [readQuoted, read, peeked, if_neg other, if_pos follows]

end Source
end Stencil
