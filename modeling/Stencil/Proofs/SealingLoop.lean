import Stencil.Proofs.SealedLists

/-! Sealing an attribute list in one pass.

The pass goes over the attributes once.  It escapes what it keeps and refuses a name that it has
kept before.  At the first literal class it remembers the place where that one will stand; a
later literal class is only noted, and the pass goes on with the next attribute.  If more than one
was noted, the value at the remembered place is written anew in the end.

This gives what `sealed` gives, which joins the classes first, looks for a repeated name then and
escapes last: the same list, or the same fault. -/

namespace Stencil
namespace PendingElement

/-- The attributes kept so far; the place of the literal class among them, and the literal
classes seen so far. -/
structure Pass where
  kept : List Attribute
  noted : Option (Nat × List Text)

namespace Pass

def keep (profile : Markup.Profile) (element : PendingElement) (entry : Attribute) (pass : Pass) :
    Except Fault Pass :=
  if pass.kept.any fun other => other.name = entry.name then
    .error (.parse element.line (.duplicateAttribute entry.name element.tag))
  else
    .ok { pass with kept := pass.kept ++ [escapeLiteral profile entry] }

def step (profile : Markup.Profile) (element : PendingElement) (pass : Pass) (entry : Attribute) :
    Except Fault Pass :=
  match literalClass? entry with
  | some text =>
      match pass.noted with
      | some (place, texts) => .ok { pass with noted := some (place, texts ++ [text]) }
      | none => { pass with noted := some (pass.kept.length, [text]) }.keep profile element entry
  | none => pass.keep profile element entry

/-- The attributes kept, with several literal classes written at the place of the first. -/
def finish (profile : Markup.Profile) (pass : Pass) : List Attribute :=
  match pass.noted with
  | some (place, texts) =>
      if 1 < texts.length then
        pass.kept.modify place fun entry =>
          { entry with value := .literal (profile.escapeAttribute ([' '].intercalate texts)) }
      else
        pass.kept
  | none => pass.kept

end Pass

def sealedInOnePass (profile : Markup.Profile) (element : PendingElement) :
    Except Fault (List Attribute) :=
  (element.attributes.foldlM (Pass.step profile element) ⟨[], none⟩).map (Pass.finish profile)

/-! ### Repeated names -/

def unlessRepeated {α : Type} (element : PendingElement) (repeated : Option Text) (value : α) :
    Except Fault α :=
  match repeated with
  | some name => .error (.parse element.line (.duplicateAttribute name element.tag))
  | none => .ok value

theorem sealed_eq_unlessRepeated (profile : Markup.Profile) (element : PendingElement) :
    element.sealed profile =
      element.unlessRepeated (firstRepeated [] (joinClasses element.attributes))
        ((joinClasses element.attributes).map (escapeLiteral profile)) :=
  rfl

theorem map_unlessRepeated {α β : Type} (element : PendingElement) (repeated : Option Text)
    (value : α) (change : α → β) :
    (element.unlessRepeated repeated value).map change =
      element.unlessRepeated repeated (change value) := by
  cases repeated with
  | some name => rfl
  | none => rfl

theorem firstRepeated_congr {seen known : List Text} (same : ∀ name, name ∈ seen ↔ name ∈ known)
    (entries : List Attribute) : firstRepeated seen entries = firstRepeated known entries := by
  induction entries generalizing seen known with
  | nil => rfl
  | cons entry others ih =>
      have extended : ∀ name, name ∈ entry.name :: seen ↔ name ∈ entry.name :: known := by
        intro name
        rw [List.mem_cons, List.mem_cons, same name]
      unfold firstRepeated
      rw [ih extended]
      simp only [same]

theorem firstRepeated_of_mem {seen : List Text} {entry : Attribute} (others : List Attribute)
    (repeated : entry.name ∈ seen) : firstRepeated seen (entry :: others) = some entry.name :=
  if_pos repeated

theorem firstRepeated_of_not_mem {seen : List Text} {entry : Attribute} (others : List Attribute)
    (fresh : entry.name ∉ seen) :
    firstRepeated seen (entry :: others) = firstRepeated (seen ++ [entry.name]) others := by
  have same : ∀ name, name ∈ entry.name :: seen ↔ name ∈ seen ++ [entry.name] := by
    intro name
    simp only [List.mem_cons, List.mem_append, List.not_mem_nil, or_false]
    exact or_comm
  exact (if_neg fresh).trans (firstRepeated_congr same others)

/-! ### The pass from any state on -/

section Rounds

variable {profile : Markup.Profile} {element : PendingElement} {entry : Attribute}
  {kept : List Attribute} {noted : Option (Nat × List Text)}

theorem Pass.keep_of_mem (repeated : entry.name ∈ kept.map Attribute.name) :
    Pass.keep profile element entry ⟨kept, noted⟩ =
      .error (.parse element.line (.duplicateAttribute entry.name element.tag)) := by
  obtain ⟨other, member, same⟩ := List.mem_map.mp repeated
  apply if_pos
  exact List.any_eq_true.mpr ⟨other, member, decide_eq_true same⟩

theorem Pass.keep_of_not_mem (fresh : entry.name ∉ kept.map Attribute.name) :
    Pass.keep profile element entry ⟨kept, noted⟩ =
      .ok ⟨kept ++ [escapeLiteral profile entry], noted⟩ := by
  apply if_neg
  intro repeated
  obtain ⟨other, member, same⟩ := List.any_eq_true.mp repeated
  exact fresh (List.mem_map.mpr ⟨other, member, of_decide_eq_true same⟩)

theorem Pass.step_of_none (pass : Pass) (plain : literalClass? entry = none) :
    pass.step profile element entry = pass.keep profile element entry := by
  rw [step, plain]

theorem Pass.step_of_noted {text : Text} {place : Nat} {texts : List Text}
    (found : literalClass? entry = some text) :
    Pass.step profile element ⟨kept, some (place, texts)⟩ entry =
      .ok ⟨kept, some (place, texts ++ [text])⟩ := by
  rw [step, found]

theorem Pass.step_of_unnoted {text : Text} (found : literalClass? entry = some text) :
    Pass.step profile element ⟨kept, none⟩ entry =
      Pass.keep profile element entry ⟨kept, some (kept.length, [text])⟩ := by
  rw [step, found]

theorem names_keep (profile : Markup.Profile) (kept : List Attribute) (entry : Attribute) :
    (kept ++ [escapeLiteral profile entry]).map Attribute.name =
      kept.map Attribute.name ++ [entry.name] := by
  rw [List.map_append, List.map_singleton, name_escapeLiteral]

/-- After the first literal class the others are noted and every other attribute is kept. -/
theorem foldlM_step_of_noted (profile : Markup.Profile) (element : PendingElement)
    (kept : List Attribute) (place : Nat) (texts : List Text) (given : List Attribute) :
    given.foldlM (Pass.step profile element) ⟨kept, some (place, texts)⟩ =
      element.unlessRepeated
        (firstRepeated (kept.map Attribute.name)
          (given.filter fun other => (literalClass? other).isNone))
        ⟨kept ++ (given.filter fun other => (literalClass? other).isNone).map
            (escapeLiteral profile),
          some (place, texts ++ classes given)⟩ := by
  induction given generalizing kept texts with
  | nil =>
      rw [classes, List.filterMap_nil, List.filter_nil, List.map_nil, List.append_nil,
        List.append_nil]
      rfl
  | cons entry others ih =>
      rw [List.foldlM_cons]
      cases found : literalClass? entry with
      | some text =>
          have noted := ih kept (texts ++ [text])
          rw [List.append_assoc] at noted
          rw [Pass.step_of_noted found, classes_of_some others found,
            List.filter_cons_of_neg (by simp [found])]
          exact noted
      | none =>
          rw [Pass.step_of_none _ found, classes_of_none others found,
            List.filter_cons_of_pos (by simp [found])]
          by_cases repeated : entry.name ∈ kept.map Attribute.name
          · rw [Pass.keep_of_mem repeated, firstRepeated_of_mem _ repeated]
            rfl
          · have resumed := ih (kept ++ [escapeLiteral profile entry]) texts
            rw [names_keep, List.append_assoc] at resumed
            rw [Pass.keep_of_not_mem repeated, firstRepeated_of_not_mem _ repeated]
            exact resumed

/-- The remembered place is that of the first literal class, whatever is kept behind it. -/
theorem Pass.finish_of_noted {text : Text} (found : literalClass? entry = some text)
    (behind : List Attribute) (texts : List Text) :
    Pass.finish profile
        ⟨kept ++ escapeLiteral profile entry :: behind, some (kept.length, text :: texts)⟩ =
      kept ++ escapeLiteral profile
        ⟨classKey, .literal ([' '].intercalate (text :: texts))⟩ :: behind := by
  obtain ⟨named, literal⟩ := literalClass?_eq_some_iff.mp found
  cases texts with
  | nil =>
      have alone : entry = ⟨classKey, .literal ([' '].intercalate [text])⟩ := by
        rw [List.intercalate_singleton, ← named, ← literal]
      rw [← alone]
      rfl
  | cons second others =>
      have several : 1 < (text :: second :: others).length := by simp
      rw [finish]
      simp only [if_pos several]
      rw [List.modify_eq_take_drop, List.take_left, List.drop_left, List.modifyHead_cons,
        name_escapeLiteral, named]
      rfl

/-- Before the first literal class every attribute is kept. -/
theorem map_foldlM_step (profile : Markup.Profile) (element : PendingElement)
    (kept given : List Attribute) :
    (given.foldlM (Pass.step profile element) ⟨kept, none⟩).map (Pass.finish profile) =
      element.unlessRepeated (firstRepeated (kept.map Attribute.name) (joinClasses given))
        (kept ++ (joinClasses given).map (escapeLiteral profile)) := by
  induction given generalizing kept with
  | nil =>
      rw [joinClasses, List.map_nil, List.append_nil]
      rfl
  | cons entry others ih =>
      rw [List.foldlM_cons]
      cases found : literalClass? entry with
      | none =>
          rw [Pass.step_of_none _ found, joinClasses_of_none others found]
          by_cases repeated : entry.name ∈ kept.map Attribute.name
          · rw [Pass.keep_of_mem repeated, firstRepeated_of_mem _ repeated]
            rfl
          · have resumed := ih (kept ++ [escapeLiteral profile entry])
            rw [names_keep, List.append_assoc] at resumed
            rw [Pass.keep_of_not_mem repeated, firstRepeated_of_not_mem _ repeated]
            exact resumed
      | some text =>
          have named := (literalClass?_eq_some_iff.mp found).1
          rw [Pass.step_of_unnoted found, joinClasses_of_some others found]
          by_cases repeated : entry.name ∈ kept.map Attribute.name
          · rw [Pass.keep_of_mem repeated, named, firstRepeated_of_mem _ (named ▸ repeated)]
            rfl
          · have resumed := congrArg (Except.map (Pass.finish profile))
              (foldlM_step_of_noted profile element (kept ++ [escapeLiteral profile entry])
                kept.length [text] others)
            rw [map_unlessRepeated, names_keep, List.append_assoc, List.singleton_append,
              List.singleton_append, Pass.finish_of_noted found, named] at resumed
            rw [Pass.keep_of_not_mem repeated, firstRepeated_of_not_mem _ (named ▸ repeated)]
            exact resumed

end Rounds

/-- One pass over the attributes seals them. -/
theorem sealedInOnePass_eq_sealed (profile : Markup.Profile) (element : PendingElement) :
    element.sealedInOnePass profile = element.sealed profile := by
  rw [sealed_eq_unlessRepeated]
  exact map_foldlM_step profile element [] element.attributes

end PendingElement
end Stencil
