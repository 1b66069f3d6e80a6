import Stencil.Proofs.Document
import Stencil.Proofs.Loading
import Stencil.Proofs.Placement

/-! Loading the template of a document.

A template holds no carriage return and no disallowed character, it has no pragma on
its first line, and its lines are the lines it was put together from.  So it is
loaded as those lines, numbered from one. -/

namespace Stencil

/-! ### Lines of a text -/

namespace Text

theorem lines_flatMap {parts : List Text} (unbroken : ∀ line ∈ parts, '\n' ∉ line) :
    lines (parts.flatMap fun line => line ++ ['\n']) = parts := by
  induction parts with
  | nil => rfl
  | cons line others ih =>
      rw [List.flatMap_cons, List.append_assoc, List.cons_append, List.nil_append,
        lines_newline _ (unbroken line (by simp)),
        ih (fun other member => unbroken other (by simp [member]))]

theorem lines_intercalate {parts : List Text} (unbroken : ∀ line ∈ parts, '\n' ∉ line)
    (given : ∀ line ∈ parts, line ≠ []) : lines (['\n'].intercalate parts) = parts := by
  induction parts with
  | nil => rfl
  | cons line others ih =>
      have later := ih (fun other member => unbroken other (by simp [member]))
        (fun other member => given other (by simp [member]))
      cases others with
      | nil => simpa using lines_unbroken (unbroken line (by simp)) (given line (by simp))
      | cons second others =>
          rw [List.intercalate_cons_cons, List.append_assoc, List.cons_append, List.nil_append,
            lines_newline _ (unbroken line (by simp)), later]

end Text

namespace Document

/-! ### Characters of a template -/

theorem isInline_of_isNameCharacter {character : Char}
    (fits : isNameCharacter character = true) : isInline character = true := by
  have code : 45 ≤ character.toNat ∧ character.toNat ≤ 122 := by
    have classes : isNameCharacter character =
        ((((decide (65 ≤ character.val ∧ character.val ≤ 90) ||
          (decide (97 ≤ character.val) && decide (character.val ≤ 122))) ||
          (decide (48 ≤ character.val) && decide (character.val ≤ 57))) ||
          decide (character = '_')) || decide (character = '-')) := rfl
    have same : character.toNat = character.val.toNat := rfl
    simp only [classes, Bool.or_eq_true, Bool.and_eq_true, decide_eq_true_eq,
      UInt32.le_iff_toNat_le, UInt32.toNat_ofNat] at fits
    rcases fits with (((letter | letter) | digit) | rfl) | rfl
    · omega
    · omega
    · omega
    · decide
    · decide
  have different (other : Char) (outside : other.toNat < 45) : character ≠ other := by
    rintro rfl
    omega
  have notReturn := different '\r' (by decide)
  have notNewline := different '\n' (by decide)
  simp only [isInline, Source.isDisallowed, ne_eq, notReturn, notNewline, not_false_eq_true,
    decide_true, Bool.true_and, Bool.not_eq_true', Bool.or_eq_false_iff, Bool.and_eq_false_iff,
    decide_eq_false_iff_not, beq_eq_false_iff_ne]
  omega

theorem Name.all_isInline (name : Name) : name.text.all isInline = true :=
  List.all_eq_true.mpr fun character member =>
    isInline_of_isNameCharacter ((isNameCharacter_of_isName name.named).2 character member)

theorem all_isInline_quoted {value : Text} (inline : value.all isInline = true) :
    (quoted value).all isInline = true := by
  induction value with
  | nil => rfl
  | cons character rest ih =>
      rw [List.all_cons, Bool.and_eq_true] at inline
      rw [quoted_cons, List.all_append, ih inline.2, Bool.and_true]
      have backslash : isInline '\\' = true := by decide
      split
      · simp [inline.1, backslash]
      · simp [inline.1]

theorem all_isInline_assignment (entry : Name × Line) :
    (assignment entry).all isInline = true := by
  have signs : "=\x22".toList.all isInline = true := by decide
  have quote : ['\x22'].all isInline = true := by decide
  rw [assignment, List.all_append, List.all_append, List.all_append, entry.1.all_isInline, signs,
    all_isInline_quoted entry.2.inline, quote]
  rfl

theorem all_isInline_entries (entries : List (Name × Line)) :
    ([' '].intercalate (entries.map assignment)).all isInline = true := by
  have space : isInline ' ' = true := by decide
  induction entries with
  | nil => rfl
  | cons entry others ih =>
      cases others with
      | nil => simpa using all_isInline_assignment entry
      | cons second others =>
          rw [List.map_cons] at ih ⊢
          rw [List.map_cons, List.intercalate_cons_cons, List.all_append, List.all_append,
            all_isInline_assignment, ih]
          simp [space]

theorem Attributes.all_isInline_source (attributes : Attributes) :
    attributes.source.all isInline = true := by
  have signs : isInline '(' = true ∧ isInline ')' = true := by decide
  unfold Attributes.source
  split
  · rfl
  · simp [all_isInline_entries, signs]

theorem all_isInline_spaces (width : Nat) : (Text.spaces width).all isInline = true := by
  have space : isInline ' ' = true := by decide
  simp [Text.spaces, space]

theorem all_isInline_sourceLine (step : Nat) (entry : Nat × Node) :
    (sourceLine step entry).all isInline = true := by
  have signs : isInline '%' = true ∧ isInline '\\' = true := by decide
  rw [sourceLine, List.all_append, all_isInline_spaces, Bool.true_and]
  cases entry.2 with
  | element tag attributes =>
      simp [Node.source, signs, tag.all_isInline, attributes.all_isInline_source]
  | text content => simp [Node.source, signs, content.inline]

theorem sourceLine_ne_nil (step : Nat) (entry : Nat × Node) : sourceLine step entry ≠ [] := by
  obtain ⟨depth, node⟩ := entry
  cases node with
  | element tag attributes => simp [sourceLine, Node.source]
  | text content => simp [sourceLine, Node.source]

/-! ### Loading -/

section Loading

variable (terminated : Bool) (step : Nat) (forest : List Tree)

theorem isInline_of_mem {line : Text} (member : line ∈ sourceLines step forest) {character : Char}
    (inside : character ∈ line) : isInline character = true := by
  obtain ⟨entry, -, rfl⟩ := List.mem_map.mp member
  exact List.all_eq_true.mp (all_isInline_sourceLine step entry) character inside

theorem newline_not_mem_sourceLines : ∀ line ∈ sourceLines step forest, '\n' ∉ line := by
  intro line member inside
  have inline := isInline_of_mem step forest member inside
  revert inline
  decide

theorem lines_source : (source terminated step forest).lines = sourceLines step forest := by
  have unbroken := newline_not_mem_sourceLines step forest
  unfold source
  split
  · exact Text.lines_flatMap unbroken
  · refine Text.lines_intercalate unbroken ?_
    intro line member
    obtain ⟨entry, -, rfl⟩ := List.mem_map.mp member
    exact sourceLine_ne_nil step entry

theorem return_not_mem_source : '\r' ∉ source terminated step forest := by
  have absent : ∀ line ∈ sourceLines step forest, '\r' ∉ line := by
    intro line member inside
    have inline := isInline_of_mem step forest member inside
    revert inline
    decide
  unfold source
  split
  · intro member
    obtain ⟨line, among, inside⟩ := List.mem_flatMap.mp member
    simp [absent line among] at inside
  · cases lines : sourceLines step forest with
    | nil => simp
    | cons first others =>
        rw [lines] at absent
        rw [Text.intercalate_cons]
        simp only [List.mem_append, List.mem_flatMap, List.mem_cons, not_or, not_exists, not_and]
        refine ⟨absent first (by simp), ?_⟩
        intro line among
        exact ⟨by decide, absent line (by simp [among])⟩

theorem pragma_sourceLines : Encoding.pragma ((sourceLines step forest).headD []) = none := by
  cases forest with
  | nil => rfl
  | cons tree others =>
      cases tree with
      | element tag attributes children =>
          simp [sourceLines, outlineAll, outline, sourceLine, Node.source, Text.spaces,
            Encoding.pragma, Encoding.isGap, Text.afterLead]
      | text content =>
          simp [sourceLines, outlineAll, outline, sourceLine, Node.source, Text.spaces,
            Encoding.pragma, Encoding.isGap, Text.afterLead]

theorem ofText_source :
    Source.ofText (source terminated step forest) =
      .ok ⟨Source.numberFrom 1 (sourceLines step forest), none, 1⟩ := by
  have allowed : Source.firstDisallowed (Source.numberFrom 1 (sourceLines step forest)) = none := by
    refine Source.firstDisallowed_numberFrom.mpr ?_
    intro line member character inside
    have inline := isInline_of_mem step forest member inside
    simp only [isInline, Bool.and_eq_true, Bool.not_eq_true'] at inline
    exact inline.2
  have unified := Text.unifyBreaks_of_not_mem (return_not_mem_source terminated step forest)
  simp only [Source.ofText, unified, lines_source, pragma_sourceLines, Source.ofLines, allowed]

end Loading

end Document
end Stencil
