import Mathlib.Data.List.Basic
import Stencil.Proofs.DocumentLoading
import Stencil.Proofs.JoinedTexts
import Stencil.Proofs.UnreadText

/-! Attribute lists and how they are laid out.

A list stands in parentheses, with spaces and newlines around its attributes, or behind the
tag on its line, which backslashes may continue.  In parentheses a value may go over line
ends.  The parts of a list carry what makes it readable, so that an element with any list is
loaded as a source that is in front of its whole text. -/

namespace Stencil

open Document (Name Line isInline)

namespace AttributeList

/-! ### Values -/

inductive Quote where
  | double
  | single
  | code
  deriving DecidableEq, Repr

def Quote.sign : Quote → Char
  | .double => '\x22'
  | .single => '\x27'
  | .code => '\x60'

/-- A value with a backslash in front of every backslash and every sign of its quotes. -/
def Quote.escape (quote : Quote) (value : Text) : Text :=
  value.flatMap fun character =>
    if character = '\\' ∨ character = quote.sign then ['\\', character] else [character]

/-- A value that may go over line ends: each further line stands behind a newline and some
spaces, and begins with no space itself. -/
structure Passage where
  first : Line
  later : List (Nat × { line : Line // line.text.head? ≠ some ' ' })

def Passage.written (quote : Quote) (passage : Passage) : Text :=
  quote.escape passage.first.text ++ passage.later.flatMap fun part =>
    '\n' :: (Text.spaces part.1 ++ quote.escape part.2.val.text)

/-- What is meant: every line end with its spaces is one space. -/
def Passage.text (passage : Passage) : Text :=
  passage.first.text ++ passage.later.flatMap fun part => ' ' :: part.2.val.text

/-! ### Attributes and their layout -/

inductive Entry where
  | flag (name : Name)
  | assigned (name : Name) (quote : Quote) (value : Passage)

def Entry.written : Entry → Text
  | .flag name => name.text
  | .assigned name quote value =>
      name.text ++ '=' :: quote.sign :: (value.written quote ++ [quote.sign])

def Entry.token : Entry → Token
  | .flag name => .literalAttribute name.text name.text
  | .assigned name .code value => .codeAttribute name.text value.text
  | .assigned name _ value => .literalAttribute name.text value.text

def Entry.isUnbroken : Entry → Bool
  | .flag _ => true
  | .assigned _ _ value => value.later.isEmpty

structure Gap where
  text : Text
  blank : text.all (fun character => character = ' ' || character = '\n') = true

/-- What may stand between attributes outside of parentheses. -/
inductive Skip where
  | space
  | continuation
  deriving DecidableEq, Repr

def Skip.text : Skip → Text
  | .space => [' ']
  | .continuation => ['\\', '\n']

/-- Spaces, at the least one, and line ends with a backslash before them. -/
structure Separator where
  skips : List Skip
  spaced : Skip.space ∈ skips

def Separator.text (separator : Separator) : Text :=
  separator.skips.flatMap Skip.text

end AttributeList

open AttributeList

/-- An attribute list with its layout.  In parentheses, each attribute has the gap behind it
and only the last gap may be empty; otherwise each has a separator in front of it. -/
inductive AttributeList where
  | parenthesised (before : Gap) (entries : List (Entry × Gap))
      (separated : ∀ entry ∈ entries.dropLast, entry.2.text ≠ [])
  | bare (entries : List (Separator × Entry))
      (unbroken : ∀ entry ∈ entries, entry.2.isUnbroken = true)

namespace AttributeList

def written : AttributeList → Text
  | .parenthesised before entries _ =>
      '(' :: (before.text ++ (entries.flatMap fun entry => entry.1.written ++ entry.2.text) ++ [')'])
  | .bare entries _ => entries.flatMap fun entry => entry.1.text ++ entry.2.written

def tokens : AttributeList → List Token
  | .parenthesised _ entries _ => entries.map fun entry => entry.1.token
  | .bare entries _ => entries.map fun entry => entry.2.token

theorem Quote.sign_ne (quote : Quote) : quote.sign ≠ '\\' ∧ quote.sign ≠ '\n' ∧ quote.sign ≠ ' ' := by
  cases quote <;> decide

theorem Quote.escape_cons (quote : Quote) (character : Char) (rest : Text) :
    quote.escape (character :: rest) =
      (if character = '\\' ∨ character = quote.sign then ['\\', character] else [character]) ++
        quote.escape rest :=
  List.flatMap_cons

/-! ### Loading -/

def isWritten (character : Char) : Bool :=
  isInline character || character = '\n'

theorem Quote.all_isWritten_escape (quote : Quote) (line : Line) :
    (quote.escape line.text).all isWritten = true := by
  obtain ⟨text, inline⟩ := line
  induction text with
  | nil => rfl
  | cons character others ih =>
      rw [List.all_cons, Bool.and_eq_true] at inline
      have backslash : isWritten '\\' = true := by decide
      have plain : isWritten character = true := by simp [isWritten, inline.1]
      rw [quote.escape_cons, List.all_append, ih inline.2, Bool.and_true]
      split
      · simp [backslash, plain]
      · simp [plain]

theorem all_isWritten_name (name : Name) : name.text.all isWritten = true := by
  apply List.all_eq_true.mpr
  intro character member
  have inline := List.all_eq_true.mp name.all_isInline character member
  simp [isWritten, inline]

theorem Passage.all_isWritten (passage : Passage) (quote : Quote) :
    (passage.written quote).all isWritten = true := by
  have newline : isWritten '\n' = true := by decide
  have spaced (width : Nat) : (Text.spaces width).all isWritten = true := by
    have space : isWritten ' ' = true := by decide
    simp [Text.spaces, space]
  rw [written, List.all_append, quote.all_isWritten_escape, Bool.true_and, List.all_flatMap]
  apply List.all_eq_true.mpr
  intro part member
  rw [List.all_cons, List.all_append, newline, spaced, quote.all_isWritten_escape]
  rfl

theorem Entry.all_isWritten (entry : Entry) : entry.written.all isWritten = true := by
  cases entry with
  | flag name => exact all_isWritten_name name
  | assigned name quote value =>
      have assigns : isWritten '=' = true := by decide
      have sign : isWritten quote.sign = true := by cases quote <;> decide
      simp [Entry.written, all_isWritten_name, value.all_isWritten, assigns, sign]

theorem Gap.all_isWritten (gap : Gap) : gap.text.all isWritten = true := by
  apply List.all_eq_true.mpr
  intro character member
  have blank := List.all_eq_true.mp gap.blank character member
  simp only [Bool.or_eq_true, decide_eq_true_eq] at blank
  rcases blank with rfl | rfl <;> decide

theorem Separator.all_isWritten (separator : Separator) :
    separator.text.all isWritten = true := by
  rw [Separator.text, List.all_flatMap]
  apply List.all_eq_true.mpr
  intro skip member
  cases skip <;> decide

theorem all_isWritten (list : AttributeList) : list.written.all isWritten = true := by
  have signs : isWritten '(' = true ∧ isWritten ')' = true := by decide
  cases list with
  | parenthesised before entries separated =>
      simp [written, signs, before.all_isWritten, List.all_flatMap, Entry.all_isWritten,
        Gap.all_isWritten]
  | bare entries unbroken =>
      simp [written, List.all_flatMap, Entry.all_isWritten, Separator.all_isWritten]

def Ended (text : Text) : Prop :=
  ∃ before last, text = before ++ [last] ∧ last ≠ '\n'

theorem Ended.append {text : Text} (ended : Ended text) (lead : Text) : Ended (lead ++ text) := by
  obtain ⟨before, last, rfl, visible⟩ := ended
  exact ⟨lead ++ before, last, by rw [List.append_assoc], visible⟩

theorem Ended.flatMap_lines {text : Text} (ended : Ended text) :
    (text.lines.flatMap fun line => line ++ ['\n']) = text ++ ['\n'] := by
  obtain ⟨before, last, same, visible⟩ := ended
  induction before using Text.line_induction generalizing text with
  | unbroken line free =>
      have unbroken : '\n' ∉ text := by simp [same, free, Ne.symm visible]
      rw [Text.lines_unbroken unbroken (by simp [same]), List.flatMap_singleton]
  | broken line rest free ih =>
      rw [List.append_assoc, List.cons_append] at same
      rw [same, Text.lines_newline _ free, List.flatMap_cons, ih rfl]
      simp

theorem ended_name (name : Name) : Ended name.text := by
  obtain ⟨given, -⟩ := isNameCharacter_of_isName name.named
  refine ⟨_, name.text.getLast given, (List.dropLast_append_getLast given).symm, ?_⟩
  intro newline
  exact newline_not_mem_of_isName name.named (newline ▸ List.getLast_mem given)

theorem Entry.ended (entry : Entry) : Ended entry.written := by
  cases entry with
  | flag name => exact ended_name name
  | assigned name quote value =>
      have closed : Ended [quote.sign] := ⟨[], quote.sign, rfl, quote.sign_ne.2.1⟩
      exact ((closed.append _).append ['=', quote.sign]).append name.text

theorem ended_element (tag : Name) (list : AttributeList) : Ended (tag.text ++ list.written) := by
  cases list with
  | parenthesised before entries separated =>
      have closed : Ended [')'] := ⟨[], ')', rfl, by decide⟩
      exact ((closed.append _).append ['(']).append tag.text
  | bare entries unbroken =>
      rcases List.eq_nil_or_concat entries with rfl | ⟨others, entry, rfl⟩
      · have ended := ended_name tag
        rwa [← List.append_nil tag.text] at ended
      · apply Ended.append
        rw [written, List.concat_eq_append, List.flatMap_append]
        apply Ended.append
        rw [List.flatMap_singleton]
        exact entry.2.ended.append _

theorem exists_ofLines {text : Text} (fits : text.all isWritten = true) (ended : Ended text) :
    ∃ next line others number,
      Source.ofLines 1 text = .ok ⟨(next, line) :: others, none, number⟩ ∧
      (Source.mk ((next, line) :: others) none number).characters = text ++ ['\n'] := by
  have joined := ended.flatMap_lines
  have allowed : ∀ line ∈ text.lines, ∀ character ∈ line,
      Source.isDisallowed character = false := by
    intro line among character member
    have visible : character ≠ '\n' := by
      rintro rfl
      exact Text.newline_not_mem_lines among member
    have inside : character ∈ text ++ ['\n'] := by
      rw [← joined, List.mem_flatMap]
      exact ⟨line, among, List.mem_append_left _ member⟩
    have given : character ∈ text := by simpa [visible] using inside
    have inline := List.all_eq_true.mp fits character given
    simp only [isWritten, isInline, Bool.or_eq_true, Bool.and_eq_true, decide_eq_true_eq, visible,
      or_false, Bool.not_eq_true'] at inline
    exact inline.2
  cases lines : text.lines with
  | nil =>
      rw [lines] at joined
      simp at joined
  | cons first others =>
      rw [lines] at joined allowed
      refine ⟨1, first, Source.numberFrom 2 others, 1, ?_, ?_⟩
      · rw [Source.ofLines_eq_ok_iff, lines]
        exact ⟨allowed, rfl⟩
      · rw [← joined, Source.characters]
        exact congrArg _ (Source.map_snd_numberFrom 1 (first :: others))

theorem ofText_element (tag : Name) (list : AttributeList) :
    ∃ next line others number,
      Source.ofText ('%' :: (tag.text ++ list.written)) =
        .ok ⟨(next, line) :: others, none, number⟩ ∧
      (Source.mk ((next, line) :: others) none number).characters =
        '%' :: (tag.text ++ (list.written ++ ['\n'])) := by
  have fits : ('%' :: (tag.text ++ list.written)).all isWritten = true := by
    have sign : isWritten '%' = true := by decide
    rw [List.all_cons, List.all_append, sign, all_isWritten_name, list.all_isWritten]
    rfl
  have free : '\r' ∉ '%' :: (tag.text ++ list.written) := by
    intro member
    have allowed := List.all_eq_true.mp fits '\r' member
    revert allowed
    decide
  obtain ⟨unmarked, -⟩ := @Source.ofText_sign ('%' :: (tag.text ++ list.written)) rfl
  rw [unmarked, Text.unifyBreaks_of_not_mem free, ← List.append_assoc, ← List.cons_append]
  exact exists_ofLines fits ((ended_element tag list).append ['%'])

end AttributeList

end Stencil
