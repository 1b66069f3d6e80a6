import Stencil.Proofs.DocumentScanning

/-! Quoted values in a directive, compared with those of an element.

In both places a value stands between double quotes, with a backslash in front of every
backslash and every double quote.  An element reads each value back.  A directive finds the
same end of the value, but then reads what is between the quotes as if it stood outside of
quotes, where a backslash is kept and a quote is dropped.  So it reads back exactly the values
that need no backslash. -/

namespace Stencil
namespace Markup
namespace Directive

open Document (quoted quoted_cons)

/-! ### Words -/

theorem words_cons {first : Char} {rest : Text} {word : Word} {taken : Nat}
    (visible : first ≠ ' ') (read : readWord first rest = (word, taken)) :
    words (first :: rest) = word :: words (rest.drop taken) := by
  rw [words, if_neg visible, read]

theorem words_space (rest : Text) : words (' ' :: rest) = words rest := by
  rw [words, if_pos rfl]

theorem words_name {first : Char} {rest after : Text} (start : isNameStart first = true)
    (named : ∀ character ∈ rest, isNameCharacter character = true)
    (stops : isNameCharacter (after.headD ' ') = false) :
    words (first :: (rest ++ after)) = .name (first :: rest) :: words after := by
  have other : first ≠ '!' ∧ first ≠ '=' ∧ first ≠ ' ' := by
    refine ⟨?_, ?_, ?_⟩ <;>
      · rintro rfl
        contradiction
  have taken : (rest ++ after).takeWhile isNameCharacter = rest := by
    rw [List.takeWhile_append_of_pos named]
    cases after with
    | nil => simp
    | cons character others =>
        have fails : isNameCharacter character = false := stops
        simp [fails]
  have read : readWord first (rest ++ after) = (.name (first :: rest), rest.length) := by
    rw [readWord, if_neg other.1, if_neg other.2.1, if_pos start, taken]
  rw [words_cons other.2.2 read, List.drop_left]

theorem isNameCharacter_of_element {character : Char}
    (named : Stencil.isNameCharacter character = true) : isNameCharacter character = true := by
  simp only [Stencil.isNameCharacter, isNameCharacter, Bool.or_eq_true, decide_eq_true_eq] at named ⊢
  rcases named with (letter | underscore) | hyphen
  · exact .inl (.inl (.inl (.inl letter)))
  · exact .inl (.inl (.inl (.inr underscore)))
  · exact .inr hyphen

theorem words_documentName (name : Document.Name) {after : Text}
    (stops : isNameCharacter (after.headD ' ') = false) :
    words (name.text ++ after) = .name name.text :: words after := by
  obtain ⟨first, rest, same, start⟩ := name.exists_start
  have named := (isNameCharacter_of_isName name.named).2
  rw [same] at named ⊢
  refine words_name start ?_ stops
  intro character member
  exact isNameCharacter_of_element (named character (List.mem_cons_of_mem _ member))

theorem quotation_quoted {value : Text} (after : Text) (unbroken : '\n' ∉ value) :
    quotation '\x22' (quoted value ++ '\x22' :: after) = (quoted value, true) := by
  induction value with
  | nil =>
      cases after with
      | nil => rfl
      | cons character others => rfl
  | cons character rest ih =>
      simp only [List.mem_cons, not_or] at unbroken
      have visible : character ≠ '\n' := Ne.symm unbroken.1
      have later := ih unbroken.2
      rw [quoted_cons]
      by_cases special : character = '\\' ∨ character = '\x22'
      · rw [if_pos special]
        simp [quotation, visible, later]
      · rw [if_neg special]
        obtain ⟨plain, unquoted⟩ := not_or.mp special
        -- Another character follows in any case, at the least the closing quote.
        cases following : quoted rest ++ '\x22' :: after with
        | nil => simp at following
        | cons second others =>
            rw [following] at later
            simp [quotation, following, plain, unquoted, later]

theorem words_assignment (name : Document.Name) (value : Document.Line) :
    words (Document.assignment (name, value)) =
      [.name name.text, .equals, .quoted '\x22' (quoted value.text)] := by
  have parts : Document.assignment (name, value) =
      name.text ++ ('=' :: '\x22' :: (quoted value.text ++ ['\x22'])) := by
    simp [Document.assignment]
  have assigns : readWord '=' ('\x22' :: (quoted value.text ++ ['\x22'])) = (.equals, 0) := rfl
  have quotes : readWord '\x22' (quoted value.text ++ ['\x22']) =
      (.quoted '\x22' (quoted value.text), (quoted value.text).length + 1) := by
    have unnamed : isNameStart '\x22' = false := by decide
    simp [readWord, unnamed, quotation_quoted [] value.newline_not_mem]
  have ended : words [] = [] := by rw [words]
  rw [parts, words_documentName name rfl, words_cons (by decide) assigns,
    List.drop_zero, words_cons (by decide) quotes]
  simp [ended]

/-! ### Reading as if outside of quotes -/

def isSpecial (character : Char) : Bool :=
  character = '\\' || character = '\x22'

theorem isSpecial_iff {character : Char} :
    isSpecial character = true ↔ character = '\\' ∨ character = '\x22' := by
  simp [isSpecial]

/-- What is read for a value with its backslashes if the value is read as if it stood outside
of quotes, or between single quotes that it opened itself.  Behind the first double quote that
stands outside of single quotes it is read as it was meant. -/
def readOutside (single : Bool) : Text → Text
  | [] => []
  | character :: rest =>
      if character = '\x27' then readOutside (!single) rest
      else if character = '\\' then '\\' :: '\\' :: readOutside single rest
      else if character = '\x22' then
        if single then '\\' :: '\x22' :: readOutside single rest else '\\' :: rest
      else character :: readOutside single rest

theorem unescape_double (value : Text) : unescape .double (quoted value) = some value := by
  induction value with
  | nil => rw [quoted, List.flatMap_nil, unescape]
  | cons character rest ih =>
      rw [quoted_cons]
      by_cases special : character = '\\' ∨ character = '\x22'
      · rw [if_pos special]
        rcases special with rfl | rfl
        · simp [unescape, escaped?, ih]
        · simp [unescape, escaped?, ih]
      · obtain ⟨plain, unquoted⟩ := not_or.mp special
        rw [if_neg special, List.cons_append, List.nil_append, unescape.eq_def]
        simp [plain, unquoted, ih]

theorem unescape_outside (single : Bool) (value : Text) :
    unescape (if single then .single else .plain) (quoted value) =
      some (readOutside single value) := by
  induction value generalizing single with
  | nil => rw [quoted, List.flatMap_nil, unescape, readOutside]
  | cons character rest ih =>
      have outside := ih false
      have inside := ih true
      simp only [Bool.false_eq_true, if_false, if_true] at outside inside
      rw [quoted_cons, readOutside]
      by_cases apostrophe : character = '\x27'
      · subst apostrophe
        cases single <;> simp [unescape, outside, inside]
      by_cases backslash : character = '\\'
      · subst backslash
        cases single <;> simp [unescape, outside, inside]
      by_cases quote : character = '\x22'
      · subst quote
        cases single <;> simp [unescape, unescape_double, inside]
      · cases single <;> simp [unescape, apostrophe, backslash, quote, outside, inside]

/-- A single quote outside of double quotes is never read as itself, so none is read first. -/
theorem head?_readOutside (single : Bool) (value : Text) :
    (readOutside single value).head? ≠ some '\x27' := by
  induction value generalizing single with
  | nil => simp [readOutside]
  | cons character rest ih =>
      rw [readOutside]
      split_ifs with apostrophe backslash quote inside
      · exact ih (!single)
      · simp
      · simp
      · simp
      · simpa using apostrophe

/-- Backslashes are doubled, so a value with a special character never equals what is read for
it, nor does it with further backslashes put in front of that. -/
theorem ne_readOutside {value : Text} (special : ∃ character ∈ value, isSpecial character = true)
    (count : Nat) : value ≠ List.replicate count '\\' ++ readOutside false value := by
  induction value generalizing count with
  | nil => simp at special
  | cons character rest ih =>
      intro same
      simp only [readOutside, Bool.not_false, Bool.false_eq_true, if_false] at same
      -- With backslashes in front, the value starts with one; without, with what is read first.
      split_ifs at same with apostrophe backslash quote
      · cases count with
        | zero =>
            apply head?_readOutside true rest
            rw [List.replicate_zero, List.nil_append] at same
            rw [← same, apostrophe]
            rfl
        | succ count =>
            rw [apostrophe, List.replicate_succ, List.cons_append] at same
            simp at same
      · have doubled : List.replicate count '\\' ++ '\\' :: '\\' :: readOutside false rest =
            '\\' :: (List.replicate (count + 1) '\\' ++ readOutside false rest) := by
          rw [List.append_cons, ← List.replicate_succ', List.append_cons, ← List.replicate_succ']
          rfl
        have further : rest = List.replicate (count + 1) '\\' ++ readOutside false rest :=
          (List.cons.inj (same.trans doubled)).2
        refine ih ⟨'\\', ?_, rfl⟩ (count + 1) further
        rw [further]
        simp
      · cases count with
        | zero => simp [quote] at same
        | succ count =>
            rw [quote, List.replicate_succ, List.cons_append] at same
            simp at same
      · cases count with
        | zero =>
            have plain : isSpecial character = false := by simp [isSpecial, backslash, quote]
            have later : ∃ other ∈ rest, isSpecial other = true := by
              simpa [plain] using special
            exact ih later 0 (List.cons.inj same).2
        | succ count =>
            rw [List.replicate_succ, List.cons_append] at same
            exact backslash (List.cons.inj same).1

def valueRead (value : Text) : Text :=
  if value.any isSpecial then readOutside false value else value

theorem backslash_mem_quoted_iff {value : Text} :
    '\\' ∈ quoted value ↔ value.any isSpecial = true := by
  induction value with
  | nil => simp [quoted]
  | cons character rest ih =>
      rw [quoted_cons, List.mem_append, ih, List.any_cons, Bool.or_eq_true]
      apply or_congr_left
      rw [isSpecial_iff]
      by_cases special : character = '\\' ∨ character = '\x22'
      · simp [special]
      · rw [if_neg special, List.mem_singleton]
        constructor
        · intro same
          exact .inl same.symm
        · intro needs
          contradiction

theorem quoted_of_plain {value : Text} (plain : value.any isSpecial = false) :
    quoted value = value := by
  induction value with
  | nil => rfl
  | cons character rest ih =>
      rw [List.any_cons, Bool.or_eq_false_iff] at plain
      have unescaped : ¬(character = '\\' ∨ character = '\x22') := by
        rw [← isSpecial_iff, plain.1]
        decide
      rw [quoted_cons, if_neg unescaped, ih plain.2]
      rfl

theorem decodeValue_quoted (value : Text) : decodeValue (quoted value) = .ok (valueRead value) := by
  unfold decodeValue valueRead
  by_cases special : value.any isSpecial = true
  · have read := unescape_outside false value
    simp only [Bool.false_eq_true, if_false] at read
    rw [if_pos (backslash_mem_quoted_iff.mpr special), if_pos special, read]
  · rw [if_neg (mt backslash_mem_quoted_iff.mp special), if_neg special,
      quoted_of_plain (by simpa using special)]

theorem valueRead_eq_iff {value : Text} :
    valueRead value = value ↔ '\\' ∉ value ∧ '\x22' ∉ value := by
  unfold valueRead
  by_cases special : value.any isSpecial = true
  · rw [if_pos special]
    obtain ⟨character, member, needs⟩ := List.any_eq_true.mp special
    constructor
    · intro same
      exact absurd same.symm (ne_readOutside ⟨character, member, needs⟩ 0)
    · rintro ⟨unescaped, unquoted⟩
      rcases isSpecial_iff.mp needs with rfl | rfl
      · contradiction
      · contradiction
  · rw [if_neg special]
    simp only [true_iff]
    constructor
    · intro member
      exact special (List.any_eq_true.mpr ⟨'\\', member, rfl⟩)
    · intro member
      exact special (List.any_eq_true.mpr ⟨'\x22', member, rfl⟩)

/-! ### Directives and elements -/

theorem parse_assignment (number : Nat) (kind name : Document.Name) (value : Document.Line) :
    parse number ("!!! ".toList ++ kind.text ++ ' ' :: Document.assignment (name, value)) =
      .ok ⟨kind.text, [(name.text, valueRead value.text)]⟩ := by
  have marks : readWord '!' ("!! ".toList ++ (kind.text ++
      ' ' :: Document.assignment (name, value))) = (.marker, 2) := rfl
  have cut : words ("!!! ".toList ++ (kind.text ++ ' ' :: Document.assignment (name, value))) =
      [.marker, .name kind.text, .name name.text, .equals, .quoted '\x22' (quoted value.text)] := by
    refine (words_cons (by decide) marks).trans (congrArg (Word.marker :: ·) ?_)
    refine (words_space _).trans ((words_documentName kind rfl).trans ?_)
    rw [words_space, words_assignment]
  rw [List.append_assoc]
  simp only [parse, cut, ofWords, attributesOf, valueOf, decodeValue_quoted]
  rfl

/-- An element reads every value back from between its double quotes; a directive reads back
the values without a backslash and a double quote, and no others. -/
theorem parse_assignment_iff (number : Nat) (kind tag name : Document.Name)
    (value : Document.Line) :
    (∃ lexemes, tokenize ('%' :: tag.text ++ '(' :: Document.assignment (name, value) ++ [')']) =
        .ok lexemes ∧
      lexemes.map Lexeme.token = [.element tag.text, .literalAttribute name.text value.text]) ∧
    ∃ read, parse number ("!!! ".toList ++ kind.text ++
          ' ' :: Document.assignment (name, value)) = .ok ⟨kind.text, [(name.text, read)]⟩ ∧
      (read = value.text ↔ '\\' ∉ value.text ∧ '\x22' ∉ value.text) := by
  constructor
  · let attributes : Document.Attributes := ⟨[(name, value)], by simp⟩
    have written : Document.source false 1 [.element tag attributes []] =
        '%' :: tag.text ++ '(' :: Document.assignment (name, value) ++ [')'] := by
      simp [Document.source, Document.sourceLines, Document.outlineAll, Document.outline,
        Document.sourceLine, Document.Node.source, Document.Attributes.source, attributes,
        Text.spaces]
    obtain ⟨lexemes, read, tokens⟩ :=
      Document.tokenize_source false [.element tag attributes []] Nat.one_pos
    exact ⟨lexemes, written ▸ read, tokens⟩
  · exact ⟨_, parse_assignment number kind name value, valueRead_eq_iff⟩

/-- A double quote is read as a backslash by a directive, and as itself by an element. -/
theorem parse_quote_lost :
    parse 1 "!!! xml a=\x22\\\x22\x22".toList = .ok ⟨"xml".toList, [("a".toList, "\\".toList)]⟩ ∧
      tokenize "%x(a=\x22\\\x22\x22)".toList =
        .ok [⟨.element "x".toList, 1⟩, ⟨.literalAttribute "a".toList "\x22".toList, 1⟩] := by
  constructor
  · decide +kernel
  · exact tokenize_of_runWithin 10 (by decide +kernel)

end Directive
end Markup
end Stencil
