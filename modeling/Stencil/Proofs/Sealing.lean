import Stencil.Program.Element

/-! What a sealed attribute list is made of.

Sealing joins literal classes, refuses repeated names and escapes literal values.
So no name occurs twice in the result, every name was given, and literal values are
escaped literal values. -/

namespace Stencil
namespace PendingElement

def IsLiteral (entry : Attribute) : Prop :=
  ∃ text, entry.value = .literal text

theorem firstRepeated_eq_none_iff (seen : List Text) (entries : List Attribute) :
    firstRepeated seen entries = none ↔
      (entries.map Attribute.name).Nodup ∧ ∀ entry ∈ entries, entry.name ∉ seen := by
  induction entries generalizing seen with
  | nil => simp [firstRepeated]
  | cons entry others ih =>
      unfold firstRepeated
      by_cases repeated : entry.name ∈ seen
      · rw [if_pos repeated]
        constructor
        · intro impossible
          cases impossible
        · rintro ⟨-, unseen⟩
          exact absurd repeated (unseen entry (by simp))
      · rw [if_neg repeated, ih]
        simp only [List.map_cons, List.nodup_cons, List.mem_map, List.mem_cons, not_or]
        constructor
        · rintro ⟨distinct, unseen⟩
          refine ⟨⟨?_, distinct⟩, ?_⟩
          · rintro ⟨other, member, same⟩
            exact (unseen other member).1 same
          · rintro other (rfl | member)
            · exact repeated
            · exact (unseen other member).2
        · rintro ⟨⟨fresh, distinct⟩, unseen⟩
          refine ⟨distinct, fun other member => ⟨?_, unseen other (.inr member)⟩⟩
          intro same
          exact fresh ⟨other, member, same⟩

theorem mem_joinClasses {entry : Attribute} {entries : List Attribute}
    (member : entry ∈ joinClasses entries) :
    ∃ given ∈ entries, given.name = entry.name ∧ (IsLiteral given → IsLiteral entry) := by
  induction entries with
  | nil => cases member
  | cons first others ih =>
      unfold joinClasses at member
      split at member
      · rename_i text literal
        rcases List.mem_cons.mp member with rfl | kept
        · exact ⟨first, by simp, rfl, fun _ => ⟨_, rfl⟩⟩
        · exact ⟨entry, by simp [(List.mem_filter.mp kept).1], rfl, id⟩
      · rcases List.mem_cons.mp member with rfl | later
        · exact ⟨entry, by simp, rfl, id⟩
        · obtain ⟨given, among, same, literal⟩ := ih later
          exact ⟨given, by simp [among], same, literal⟩

@[simp] theorem name_escapeLiteral (profile : Markup.Profile) (entry : Attribute) :
    (escapeLiteral profile entry).name = entry.name := by
  unfold escapeLiteral
  split <;> rfl

/-- A sealed list has each name once, and each of its attributes was given under that
name; a literal one has an escaped value. -/
theorem sealed_cases {profile : Markup.Profile} {element : PendingElement}
    {attributes : List Attribute} (complete : element.sealed profile = .ok attributes) :
    (attributes.map Attribute.name).Nodup ∧
      ∀ entry ∈ attributes, ∃ given ∈ element.attributes,
        given.name = entry.name ∧
        (IsLiteral given → ∃ text, entry.value = .literal (profile.escapeAttribute text)) := by
  unfold PendingElement.sealed at complete
  simp only at complete
  split at complete
  · contradiction
  · rename_i distinct
    cases complete
    constructor
    · rw [List.map_map]
      have sameNames : Attribute.name ∘ escapeLiteral profile = Attribute.name := by
        funext entry
        exact name_escapeLiteral profile entry
      rw [sameNames]
      exact ((firstRepeated_eq_none_iff [] _).mp distinct).1
    · intro entry member
      obtain ⟨joined, among, rfl⟩ := List.mem_map.mp member
      obtain ⟨given, wasGiven, same, literal⟩ := mem_joinClasses among
      refine ⟨given, wasGiven, by rw [same, name_escapeLiteral], ?_⟩
      intro givenLiteral
      obtain ⟨text, value⟩ := literal givenLiteral
      exact ⟨text, by simp [escapeLiteral, value]⟩

end PendingElement
end Stencil
