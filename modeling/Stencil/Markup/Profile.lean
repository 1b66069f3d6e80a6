import Stencil.Text.Basic

/-! Markup profiles: how text, attribute values and comments are escaped in a
markup language, and the conventions of its header.

Text and attribute values are escaped character by character, from the first one
that needs it on, so escaping distributes over concatenation.  A comment may hold no
two hyphens in a row: the pairs are pulled apart again and again until none is left,
and each pass leaves fewer of them. -/

namespace Stencil
namespace Markup

/-! ### Character entities -/

def textReplacement (character : Char) : Option Text :=
  if character = '&' then some "&amp;".toList
  else if character = '<' then some "&lt;".toList
  else if character = '>' then some "&gt;".toList
  else none

def attributeReplacement (character : Char) : Option Text :=
  if character = '\x22' then some "&quot;".toList else textReplacement character

def textEntity (character : Char) : Text :=
  (textReplacement character).getD [character]

def attributeEntity (character : Char) : Text :=
  (attributeReplacement character).getD [character]

/-- Replaces characters.  A text in which nothing is replaced is given back, and any
other is gone through only from its first replaced character on. -/
def replaceCharacters (replacement : Char → Option Text) (text : Text) : Text :=
  match text.findIdx? fun character => (replacement character).isSome with
  | none => text
  | some first =>
      text.take first ++
        (text.drop first).flatMap fun character => (replacement character).getD [character]

def escapeText : Text → Text :=
  replaceCharacters textReplacement

def escapeAttribute : Text → Text :=
  replaceCharacters attributeReplacement

private theorem flatMap_of_kept {replacement : Char → Option Text} {text : Text}
    (kept : ∀ character ∈ text, (replacement character).isSome = false) :
    (text.flatMap fun character => (replacement character).getD [character]) = text := by
  induction text with
  | nil => rfl
  | cons character rest ih =>
      have unreplaced : replacement character = none := by
        simpa using kept character List.mem_cons_self
      have later := ih fun other member => kept other (List.mem_cons_of_mem _ member)
      rw [List.flatMap_cons, unreplaced, later]
      rfl

/-- Wherever the replacing starts, each character is replaced by itself or by its
entity. -/
theorem replaceCharacters_eq_flatMap (replacement : Char → Option Text) (text : Text) :
    replaceCharacters replacement text =
      text.flatMap fun character => (replacement character).getD [character] := by
  unfold replaceCharacters
  split
  · rename_i nowhere
    rw [List.findIdx?_eq_none_iff] at nowhere
    exact (flatMap_of_kept nowhere).symm
  · rename_i first found
    have kept : ∀ character ∈ text.take first, (replacement character).isSome = false := by
      intro character member
      obtain ⟨index, within, rfl⟩ := List.mem_take_iff_getElem.mp member
      have earlier := (List.findIdx?_eq_some_iff_getElem.mp found).2.2 index (by omega)
      simpa using earlier
    calc
      _ = ((text.take first).flatMap fun character => (replacement character).getD [character]) ++
          (text.drop first).flatMap fun character => (replacement character).getD [character] := by
        rw [flatMap_of_kept kept]
      _ = (text.take first ++ text.drop first).flatMap
          fun character => (replacement character).getD [character] := List.flatMap_append.symm
      _ = _ := by rw [List.take_append_drop]

theorem escapeText_eq_flatMap (text : Text) : escapeText text = text.flatMap textEntity :=
  replaceCharacters_eq_flatMap textReplacement text

theorem escapeAttribute_eq_flatMap (text : Text) :
    escapeAttribute text = text.flatMap attributeEntity :=
  replaceCharacters_eq_flatMap attributeReplacement text

@[simp] theorem escapeText_append (first second : Text) :
    escapeText (first ++ second) = escapeText first ++ escapeText second := by
  simp only [escapeText_eq_flatMap, List.flatMap_append]

@[simp] theorem escapeAttribute_append (first second : Text) :
    escapeAttribute (first ++ second) = escapeAttribute first ++ escapeAttribute second := by
  simp only [escapeAttribute_eq_flatMap, List.flatMap_append]

/-! ### Comments -/

/-- The number of places where two hyphens meet. -/
def hyphenPairs : Text → Nat
  | first :: second :: rest =>
      (if first = '-' ∧ second = '-' then 1 else 0) + hyphenPairs (second :: rest)
  | _ => 0

/-- Puts a space between the hyphens of every pair, from left to right; a hyphen
belongs to one pair at most. -/
def splitPairs : Text → Text
  | '-' :: '-' :: rest => '-' :: ' ' :: '-' :: splitPairs rest
  | character :: rest => character :: splitPairs rest
  | [] => []

theorem head?_splitPairs (text : Text) : (splitPairs text).head? = text.head? := by
  fun_cases splitPairs text <;> rfl

private theorem hyphenPairs_cons_le (character : Char) (first second : Text)
    (sameHead : first.head? = second.head?)
    (fewer : hyphenPairs first ≤ hyphenPairs second) :
    hyphenPairs (character :: first) ≤ hyphenPairs (character :: second) := by
  cases first with
  | nil => simp [hyphenPairs]
  | cons leading others =>
      cases second with
      | nil => simp at sameHead
      | cons same remaining =>
          obtain rfl : leading = same := by simpa using sameHead
          simpa [hyphenPairs] using fewer

/-- A pass leaves no more pairs than there were. -/
theorem hyphenPairs_splitPairs_le (text : Text) :
    hyphenPairs (splitPairs text) ≤ hyphenPairs text := by
  fun_induction splitPairs text with
  | case1 rest ih =>
      have tail := hyphenPairs_cons_le '-' _ _ (head?_splitPairs rest) ih
      simp only [hyphenPairs]
      simp
      omega
  | case2 character rest _ ih =>
      exact hyphenPairs_cons_le character _ _ (head?_splitPairs rest) ih
  | case3 => exact Nat.le_refl _

/-- A pass leaves fewer pairs if there is one. -/
theorem hyphenPairs_splitPairs_lt {text : Text} (paired : 0 < hyphenPairs text) :
    hyphenPairs (splitPairs text) < hyphenPairs text := by
  fun_induction splitPairs text with
  | case1 rest ih =>
      have tail := hyphenPairs_cons_le '-' _ _ (head?_splitPairs rest)
        (hyphenPairs_splitPairs_le rest)
      simp only [hyphenPairs]
      simp
      omega
  | case2 character rest unpaired ih =>
      cases rest with
      | nil => simp [hyphenPairs] at paired
      | cons second others =>
          have apart : ¬(character = '-' ∧ second = '-') := by
            rintro ⟨rfl, rfl⟩
            exact unpaired others rfl rfl
          have restPaired : 0 < hyphenPairs (second :: others) := by
            simpa [hyphenPairs, apart] using paired
          have fewer := ih restPaired
          have sameHead := head?_splitPairs (second :: others)
          cases passed : splitPairs (second :: others) with
          | nil => rw [passed] at sameHead; simp at sameHead
          | cons leading remaining =>
              rw [passed] at sameHead fewer
              obtain rfl : leading = second := by simpa using sameHead
              simpa [hyphenPairs, apart] using fewer
  | case3 => simp [hyphenPairs] at paired

/-- Makes a line safe inside a comment: pairs of hyphens are split until none is
left. -/
def escapeComment (text : Text) : Text :=
  if 0 < hyphenPairs text then escapeComment (splitPairs text) else text
termination_by hyphenPairs text
decreasing_by
  exact hyphenPairs_splitPairs_lt (by assumption)

/-! ### Profiles -/

structure Profile where
  kind : Text
  versionKey : Text
  defaultVersion : Text
  escapeText : Text → Text
  escapeAttribute : Text → Text
  escapeComment : Text → Text

namespace Profile

def xml : Profile where
  kind := "xml".toList
  versionKey := "version".toList
  defaultVersion := "1.0".toList
  escapeText := Markup.escapeText
  escapeAttribute := Markup.escapeAttribute
  escapeComment := Markup.escapeComment

def standard : Profile := xml

def all : List Profile := [xml]

/-- The profile for a header kind; the case of ASCII letters does not matter. -/
def ofKind? (kind : Text) : Option Profile :=
  all.find? fun profile => profile.kind.asciiLower = kind.asciiLower

end Profile

end Markup
end Stencil
