import Mathlib.Logic.Function.Defs
import Stencil.Proofs.Escaping

/-! Escaping loses nothing.

A reader that goes through an escaped text once, from left to right, and puts the
character of each entity in its place has the text back.  What it puts in place of
an entity is never read again, so a text that speaks of entities itself comes back
as it was. -/

namespace Stencil
namespace Markup

/-! ### Reading escaped text -/

/-- Puts the character of each entity in its place, from left to right. -/
def unescape : Text → Text
  | '&' :: 'a' :: 'm' :: 'p' :: ';' :: rest => '&' :: unescape rest
  | '&' :: 'l' :: 't' :: ';' :: rest => '<' :: unescape rest
  | '&' :: 'g' :: 't' :: ';' :: rest => '>' :: unescape rest
  | '&' :: 'q' :: 'u' :: 'o' :: 't' :: ';' :: rest => '\x22' :: unescape rest
  | character :: rest => character :: unescape rest
  | [] => []

theorem unescape_cons {character : Char} (plain : character ≠ '&') (rest : Text) :
    unescape (character :: rest) = character :: unescape rest := by
  rw [unescape.eq_def]
  simp [plain]

theorem unescape_textEntity (character : Char) (rest : Text) :
    unescape (textEntity character ++ rest) = character :: unescape rest := by
  unfold textEntity textReplacement
  split
  · subst character; rfl
  · rename_i plain
    split
    · subst character; rfl
    · split
      · subst character; rfl
      · exact unescape_cons plain rest

theorem unescape_attributeEntity (character : Char) (rest : Text) :
    unescape (attributeEntity character ++ rest) = character :: unescape rest := by
  unfold attributeEntity attributeReplacement
  split
  · subst character; rfl
  · exact unescape_textEntity character rest

/-- If each character comes back from its entity, whatever follows, then a text comes
back from its entities. -/
theorem unescape_flatMap {entity : Char → Text}
    (undone : ∀ character rest,
      unescape (entity character ++ rest) = character :: unescape rest) (text : Text) :
    unescape (text.flatMap entity) = text := by
  induction text with
  | nil => rfl
  | cons character rest ih => rw [List.flatMap_cons, undone, ih]

theorem Escaped.flatMap {raw : List Char} {entities : List Text} {entity : Char → Text}
    (escaped : ∀ character, Escaped raw entities (entity character)) (text : Text) :
    Escaped raw entities (text.flatMap entity) := by
  induction text with
  | nil => exact Escaped.nil
  | cons character rest ih =>
      rw [List.flatMap_cons]
      exact (escaped character).append ih

/-! ### Lossless escaping -/

/-- `escape` writes each character as itself or as an entity that stands for it, leaves
no character of `raw`, and can be undone. -/
structure Lossless (raw : List Char) (entities : List Text) (entity : Char → Text)
    (escape : Text → Text) : Prop where
  escaped : ∀ text, Escaped raw entities (escape text)
  undone : ∀ text, unescape (escape text) = text
  injective : Function.Injective escape
  append : ∀ first second, escape (first ++ second) = escape first ++ escape second
  /-- However the work is shared out, it comes to a map over the characters. -/
  characterwise : ∀ text, escape text = text.flatMap entity

theorem Lossless.of_characterwise {raw : List Char} {entities : List Text}
    {entity : Char → Text} {escape : Text → Text}
    (characterwise : ∀ text, escape text = text.flatMap entity)
    (escaped : ∀ character, Escaped raw entities (entity character))
    (undone : ∀ character rest,
      unescape (entity character ++ rest) = character :: unescape rest) :
    Lossless raw entities entity escape where
  escaped := by
    intro text
    rw [characterwise]
    exact Escaped.flatMap escaped text
  undone := by
    intro text
    rw [characterwise]
    exact unescape_flatMap undone text
  injective := by
    intro first second same
    rw [characterwise, characterwise] at same
    rw [← unescape_flatMap undone first, same, unescape_flatMap undone second]
  append := by
    intro first second
    simp only [characterwise, List.flatMap_append]
  characterwise := characterwise

/-- Text content and attribute values are escaped without loss. -/
theorem escaping_lossless :
    Lossless ['<', '>'] textEntities textEntity Profile.xml.escapeText ∧
      Lossless ['<', '>', '\x22'] attributeEntities attributeEntity
        Profile.xml.escapeAttribute := by
  constructor
  · exact Lossless.of_characterwise escapeText_eq_flatMap isText_textEntity
      unescape_textEntity
  · exact Lossless.of_characterwise escapeAttribute_eq_flatMap isValue_attributeEntity
      unescape_attributeEntity

example : unescape "&amp;lt; &amp;amp; &quot;&bogus;".toList = "&lt; &amp; \x22&bogus;".toList := by
  decide

end Markup
end Stencil
