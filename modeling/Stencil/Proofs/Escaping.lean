import Stencil.Markup.Profile
import Stencil.Proofs.Placement

/-! What escaping promises.

Escaped text holds none of the characters that would read as markup, and each of
its ampersands begins one of the entities.  The promise is closed under appending,
so it holds of a text that is escaped character by character, and it survives the
spaces that placing puts in front of lines: no entity goes over a line break. -/

namespace Stencil
namespace Markup

/-! ### Escaped texts -/

/-- No character of `raw` occurs, and every ampersand begins an entity. -/
structure Escaped (raw : List Char) (entities : List Text) (text : Text) : Prop where
  clean : ∀ character ∈ raw, character ∉ text
  begins : ∀ before after, text = before ++ '&' :: after →
    ∃ entity ∈ entities, entity <+: '&' :: after

namespace Escaped

variable {raw : List Char} {entities : List Text} {first second text : Text}

theorem of_plain (plain : ∀ character ∈ text, character ∉ raw ∧ character ≠ '&') :
    Escaped raw entities text where
  clean := by
    intro character refused member
    exact (plain character member).1 refused
  begins := by
    intro before after split
    subst split
    exact absurd rfl (plain '&' (by simp)).2

theorem nil : Escaped raw entities [] :=
  of_plain (by simp)

theorem append (escapedFirst : Escaped raw entities first)
    (escapedSecond : Escaped raw entities second) : Escaped raw entities (first ++ second) where
  clean := by
    intro character refused member
    rcases List.mem_append.mp member with inFirst | inSecond
    · exact escapedFirst.clean character refused inFirst
    · exact escapedSecond.clean character refused inSecond
  begins := by
    intro before after split
    rcases List.append_eq_append_iff.mp split with
      ⟨skipped, rfl, inSecond⟩ | ⟨rest, inFirst, joined⟩
    · exact escapedSecond.begins skipped after inSecond
    · cases rest with
      | nil => exact escapedSecond.begins [] after joined.symm
      | cons ampersand remaining =>
          obtain ⟨rfl, rfl⟩ := List.cons.inj joined
          obtain ⟨entity, known, begun⟩ := escapedFirst.begins before remaining inFirst
          exact ⟨entity, known, begun.trans ⟨second, rfl⟩⟩

theorem entity {name : Text} (known : '&' :: name ∈ entities)
    (plain : (name.all fun character => character ∉ raw ∧ character ≠ '&') = true)
    (ampersand : '&' ∉ raw) : Escaped raw entities ('&' :: name) where
  clean := by
    intro character refused member
    rcases List.mem_cons.mp member with rfl | inName
    · exact ampersand refused
    · have allowed := of_decide_eq_true (List.all_eq_true.mp plain character inName)
      exact allowed.1 refused
  begins := by
    intro before after split
    cases before with
    | nil =>
        rw [List.nil_append] at split
        rw [← split]
        exact ⟨_, known, List.prefix_rfl⟩
    | cons other others =>
        obtain ⟨-, inName⟩ := List.cons.inj split
        have member : '&' ∈ name := by
          rw [inName]
          simp
        have other := of_decide_eq_true (List.all_eq_true.mp plain '&' member)
        exact absurd rfl other.2

end Escaped

/-! ### Entities of text and of attribute values -/

def textEntities : List Text := ["&amp;".toList, "&lt;".toList, "&gt;".toList]

def attributeEntities : List Text := "&quot;".toList :: textEntities

/-- Text that reads as nothing but text. -/
abbrev IsText : Text → Prop := Escaped ['<', '>'] textEntities

/-- Text that reads as nothing but the value of an attribute in double quotes. -/
abbrev IsValue : Text → Prop := Escaped ['<', '>', '\x22'] attributeEntities

theorem isText_textEntity (character : Char) : IsText (textEntity character) := by
  unfold textEntity textReplacement
  split
  · exact Escaped.entity (by decide) (by decide) (by decide)
  · split
    · exact Escaped.entity (by decide) (by decide) (by decide)
    · split
      · exact Escaped.entity (by decide) (by decide) (by decide)
      · apply Escaped.of_plain
        simp_all

theorem isValue_attributeEntity (character : Char) : IsValue (attributeEntity character) := by
  unfold attributeEntity attributeReplacement
  split
  · exact Escaped.entity (by decide) (by decide) (by decide)
  · unfold textReplacement
    split
    · exact Escaped.entity (by decide) (by decide) (by decide)
    · split
      · exact Escaped.entity (by decide) (by decide) (by decide)
      · split
        · exact Escaped.entity (by decide) (by decide) (by decide)
        · apply Escaped.of_plain
          simp_all

theorem newline_not_mem_attributeEntity {character : Char} (visible : character ≠ '\n') :
    '\n' ∉ attributeEntity character := by
  unfold attributeEntity attributeReplacement textReplacement
  repeat' split
  all_goals first | decide | simp [Ne.symm visible]

theorem newline_not_mem_textEntity {character : Char} (visible : character ≠ '\n') :
    '\n' ∉ textEntity character := by
  unfold textEntity textReplacement
  repeat' split
  all_goals first | decide | simp [Ne.symm visible]

private theorem newline_not_mem_flatMap {entity : Char → Text} {text : Text}
    (unbroken : '\n' ∉ text)
    (entities : ∀ character, character ≠ '\n' → '\n' ∉ entity character) :
    '\n' ∉ text.flatMap entity := by
  intro member
  obtain ⟨character, among, inside⟩ := List.mem_flatMap.mp member
  have visible : character ≠ '\n' := by
    rintro rfl
    exact unbroken among
  exact entities character visible inside

theorem newline_not_mem_escapeText {text : Text} (unbroken : '\n' ∉ text) :
    '\n' ∉ escapeText text := by
  rw [escapeText_eq_flatMap]
  exact newline_not_mem_flatMap unbroken fun _ visible => newline_not_mem_textEntity visible

theorem newline_not_mem_escapeAttribute {text : Text} (unbroken : '\n' ∉ text) :
    '\n' ∉ escapeAttribute text := by
  rw [escapeAttribute_eq_flatMap]
  exact newline_not_mem_flatMap unbroken fun _ visible => newline_not_mem_attributeEntity visible

theorem textEntity_ne_nil (character : Char) : textEntity character ≠ [] := by
  unfold textEntity textReplacement
  repeat' split
  all_goals simp

/-! ### Placed lines -/

section Placing

variable {raw : List Char} {entities : List Text} (column : Nat)

theorem Escaped.spaces (allowed : ' ' ∉ raw) :
    Escaped raw entities (Text.spaces column) := by
  apply Escaped.of_plain
  intro character member
  obtain rfl := List.eq_of_mem_replicate member
  exact ⟨allowed, by decide⟩

/-- Placing a part without line breaks puts at most spaces in front of it. -/
theorem Escaped.placed_unbroken {part : Text} (fresh : Bool) (allowed : ' ' ∉ raw)
    (escaped : Escaped raw entities part) (unbroken : '\n' ∉ part) :
    Escaped raw entities (Text.placed column fresh part) := by
  cases part with
  | nil => exact Escaped.nil
  | cons character rest =>
      simp only [List.mem_cons, not_or] at unbroken
      rw [Text.placed_cons column fresh rest (Ne.symm unbroken.1),
        Text.placed_inside column unbroken.2]
      refine Escaped.append ?_ escaped
      split
      · exact Escaped.spaces column allowed
      · exact Escaped.nil

/-- A text that is escaped character by character stays escaped when it is placed. -/
theorem Escaped.placed_flatMap {entity : Char → Text} (allowed : ' ' ∉ raw)
    (escaped : ∀ character, Escaped raw entities (entity character))
    (newline : entity '\n' = ['\n'])
    (unbroken : ∀ character, character ≠ '\n' → '\n' ∉ entity character)
    (fresh : Bool) (text : Text) :
    Escaped raw entities (Text.placed column fresh (text.flatMap entity)) := by
  induction text generalizing fresh with
  | nil => exact Escaped.nil
  | cons character rest ih =>
      -- Spaces are put in front of an entity, never inside one.
      rw [List.flatMap_cons, Text.placed_append]
      refine Escaped.append ?_ (ih _)
      by_cases visible : character = '\n'
      · have alone := escaped '\n'
        subst character
        rw [newline] at alone ⊢
        exact alone
      · exact Escaped.placed_unbroken column fresh allowed (escaped character)
          (unbroken character visible)

theorem isText_placed_escapeText (fresh : Bool) (text : Text) :
    IsText (Text.placed column fresh (escapeText text)) := by
  rw [escapeText_eq_flatMap]
  exact Escaped.placed_flatMap column (by decide) isText_textEntity rfl
    (fun _ visible => newline_not_mem_textEntity visible) fresh text

theorem Escaped.enclosed {text : Text} (allowed : ' ' ∉ raw)
    (escaped : Escaped raw entities (Text.placed column false text)) :
    Escaped raw entities (Text.enclosed column text) := by
  refine escaped.append ?_
  split
  · exact Escaped.spaces column allowed
  · exact Escaped.nil

theorem isValue_placed_escapeAttribute (fresh : Bool) (text : Text) :
    IsValue (Text.placed column fresh (escapeAttribute text)) := by
  rw [escapeAttribute_eq_flatMap]
  exact Escaped.placed_flatMap column (by decide) isValue_attributeEntity rfl
    (fun _ visible => newline_not_mem_attributeEntity visible) fresh text

end Placing

theorem dropFinalNewline_escapeText (text : Text) :
    (escapeText text).dropFinalNewline = escapeText text.dropFinalNewline := by
  rcases List.eq_nil_or_concat text with rfl | ⟨before, last, rfl⟩
  · rfl
  · simp only [List.concat_eq_append]
    by_cases newline : last = '\n'
    · subst last
      have newline : escapeText ['\n'] = ['\n'] := by decide
      simp [Text.dropFinalNewline, newline]
    · rw [Text.dropFinalNewline_concat _ newline, Text.dropFinalNewline, if_neg]
      -- The last character of an entity is no newline, so nothing is dropped either way.
      intro ends
      have escapedLast : escapeText [last] = textEntity last := by simp [escapeText_eq_flatMap]
      rw [escapeText_append, escapedLast, List.getLast?_append,
        List.getLast?_eq_some_getLast (textEntity_ne_nil last), Option.some_or] at ends
      have member := List.getLast_mem (textEntity_ne_nil last)
      rw [Option.some.inj ends] at member
      exact newline_not_mem_textEntity newline member

end Markup
end Stencil
