import Mathlib.Data.List.Chain
import Stencil.Source.Load

/-! The lines that a source is loaded with.

A text is a line, or a line with its newline before a text; its lines, their breaks and its
first line are told from that.  Loaded lines are numbered one by one, and none of them holds
a newline. -/

namespace Stencil

/-! ### Lines of a text -/

namespace Text

theorem lines_newline {line : Text} (rest : Text) (unbroken : '\n' ∉ line) :
    lines (line ++ '\n' :: rest) = line :: lines rest := by
  induction line with
  | nil => simp [lines]
  | cons character others ih =>
      simp only [List.mem_cons, not_or] at unbroken
      simp [lines, Ne.symm unbroken.1, ih unbroken.2]

theorem lines_unbroken {line : Text} (unbroken : '\n' ∉ line) (given : line ≠ []) :
    lines line = [line] := by
  induction line with
  | nil => contradiction
  | cons character others ih =>
      simp only [List.mem_cons, not_or] at unbroken
      by_cases more : others = []
      · subst more
        simp [lines, Ne.symm unbroken.1]
      · simp [lines, Ne.symm unbroken.1, ih unbroken.2 more]

/-- A text is one line, or a line with its newline before a text. -/
theorem line_induction {motive : Text → Prop}
    (unbroken : ∀ line, '\n' ∉ line → motive line)
    (broken : ∀ line rest, '\n' ∉ line → motive rest → motive (line ++ '\n' :: rest))
    (text : Text) : motive text := by
  have behind (lead : Text) (free : '\n' ∉ lead) : motive (lead ++ text) := by
    induction text generalizing lead with
    | nil =>
        rw [List.append_nil]
        exact unbroken lead free
    | cons character rest ih =>
        by_cases newline : character = '\n'
        · subst newline
          exact broken lead rest free (ih [] List.not_mem_nil)
        · have longer : '\n' ∉ lead ++ [character] := by
            simp [free, Ne.symm newline]
          have later := ih (lead ++ [character]) longer
          rwa [List.append_assoc] at later
  exact behind [] List.not_mem_nil

theorem lines_append {lead : Text} (rest : Text) (given : lead ≠ []) (unbroken : '\n' ∉ lead) :
    lines (lead ++ rest) = (lead ++ rest.lines.headD []) :: rest.lines.tail := by
  have whole {line : Text} (free : '\n' ∉ line) : '\n' ∉ lead ++ line := by
    rw [List.mem_append, not_or]
    exact ⟨unbroken, free⟩
  induction rest using line_induction with
  | unbroken line free =>
      rw [lines_unbroken (whole free) (by simp [given])]
      by_cases empty : line = []
      · subst empty
        rfl
      · rw [lines_unbroken free empty]
        rfl
  | broken line later free ih =>
      rw [← List.append_assoc, lines_newline later (whole free), lines_newline later free]
      rfl

theorem pieces_newline {line : Text} (rest : Text) (unbroken : '\n' ∉ line) :
    pieces (line ++ '\n' :: rest) = line :: pieces rest := by
  induction line with
  | nil => simp [pieces]
  | cons character others ih =>
      simp only [List.mem_cons, not_or] at unbroken
      simp [pieces, Ne.symm unbroken.1, ih unbroken.2]

theorem afterFirstLine_newline {line : Text} (rest : Text) (unbroken : '\n' ∉ line) :
    afterFirstLine (line ++ '\n' :: rest) = rest := by
  induction line with
  | nil => simp [afterFirstLine]
  | cons character others ih =>
      simp only [List.mem_cons, not_or] at unbroken
      simp [afterFirstLine, Ne.symm unbroken.1, ih unbroken.2]

theorem afterFirstLine_unbroken {line : Text} (unbroken : '\n' ∉ line) :
    afterFirstLine line = [] := by
  induction line with
  | nil => rfl
  | cons character others ih =>
      simp only [List.mem_cons, not_or] at unbroken
      simp [afterFirstLine, Ne.symm unbroken.1, ih unbroken.2]

theorem lines_afterFirstLine (text : Text) : text.afterFirstLine.lines = text.lines.tail := by
  induction text using line_induction with
  | unbroken line free =>
      rw [afterFirstLine_unbroken free]
      by_cases given : line = []
      · subst given
        rfl
      · rw [lines_unbroken free given]
        rfl
  | broken line rest free ih =>
      rw [afterFirstLine_newline rest free, lines_newline rest free, List.tail_cons]

theorem newline_not_mem_lines {text line : Text} (member : line ∈ text.lines) :
    '\n' ∉ line := by
  induction text using line_induction with
  | unbroken only free =>
      by_cases given : only = []
      · subst given
        contradiction
      · rw [lines_unbroken free given, List.mem_singleton] at member
        rwa [member]
  | broken first rest free ih =>
      rw [lines_newline rest free] at member
      rcases List.mem_cons.mp member with rfl | later
      · exact free
      · exact ih later

theorem joinReturns_append {lead : Text} (rest : Text) (free : '\r' ∉ lead) :
    joinReturns (lead ++ rest) = lead ++ joinReturns rest := by
  induction lead with
  | nil => rfl
  | cons character others ih =>
      simp only [List.mem_cons, not_or] at free
      rw [List.cons_append, joinReturns, ih free.2, List.cons_append]
      intro _ same
      exact absurd same.symm free.1

theorem unifyBreaks_append {lead : Text} (rest : Text) (free : '\r' ∉ lead) :
    unifyBreaks (lead ++ rest) = lead ++ unifyBreaks rest := by
  have same : ∀ character ∈ lead, (if character = '\r' then '\n' else character) = character := by
    intro character member
    rw [if_neg]
    rintro rfl
    exact free member
  rw [unifyBreaks, joinReturns_append rest free, List.map_append, List.map_congr_left same,
    List.map_id', unifyBreaks]

theorem unifyBreaks_of_not_mem {text : Text} (free : '\r' ∉ text) : unifyBreaks text = text := by
  have nothing : unifyBreaks [] = [] := rfl
  have unified := unifyBreaks_append [] free
  rwa [nothing, List.append_nil] at unified

theorem return_not_mem_unifyBreaks (text : Text) : '\r' ∉ text.unifyBreaks := by
  unfold unifyBreaks
  rw [List.mem_map]
  rintro ⟨character, -, same⟩
  split at same
  · contradiction
  · contradiction

end Text

/-- Behind its indentation a pragma starts with a slash or a hyphen. -/
theorem Encoding.pragma_indented (width : Nat) {character : Char} (rest : Text)
    (visible : isGap character = false) (other : character ≠ '/' ∧ character ≠ '-') :
    pragma (Text.spaces width ++ character :: rest) = none := by
  have spaced : ∀ space ∈ Text.spaces width, isGap space = true := by
    intro space member
    rw [List.eq_of_mem_replicate member]
    rfl
  have body : (Text.spaces width ++ character :: rest).dropWhile isGap = character :: rest := by
    rw [List.dropWhile_append_of_pos spaced, List.dropWhile_cons_of_neg (by simp [visible])]
  simp [pragma, body, Text.afterLead, Ne.symm other.1, Ne.symm other.2]

/-! ### Loaded lines -/

namespace Source

theorem numberFrom_map (first : Nat) (lines : List Text) (change : Text → Text) :
    numberFrom first (lines.map change) =
      (numberFrom first lines).map fun entry => (entry.1, change entry.2) := by
  induction lines generalizing first with
  | nil => rfl
  | cons line others ih => simp [numberFrom, ih]

theorem firstDisallowed_numberFrom {first : Nat} {lines : List Text} :
    firstDisallowed (numberFrom first lines) = none ↔
      ∀ line ∈ lines, ∀ character ∈ line, isDisallowed character = false := by
  induction lines generalizing first with
  | nil => simp [numberFrom, firstDisallowed]
  | cons line others ih =>
      rw [List.forall_mem_cons, ← @ih (first + 1), numberFrom, firstDisallowed]
      cases found : line.find? isDisallowed with
      | none =>
          have allowed : ∀ character ∈ line, isDisallowed character = false := by
            simpa using List.find?_eq_none.mp found
          exact ⟨fun later => ⟨allowed, later⟩, fun both => both.2⟩
      | some character =>
          have refused := List.find?_some found
          have member := List.mem_of_find?_eq_some found
          simp only [reduceCtorEq, false_iff, not_and]
          intro allowed
          rw [allowed character member] at refused
          contradiction

theorem firstDisallowed_append {number : Nat} {lead line : Text} {others : List (Nat × Text)}
    (allowed : ∀ character ∈ lead, isDisallowed character = false) :
    firstDisallowed ((number, lead ++ line) :: others) =
      firstDisallowed ((number, line) :: others) := by
  have clean : lead.find? isDisallowed = none := by
    rw [List.find?_eq_none]
    intro character member
    simp [allowed character member]
  rw [firstDisallowed, firstDisallowed, List.find?_append, clean, Option.none_or]

theorem ofLines_eq_ok_iff {first : Nat} {text : Text} {source : Source} :
    ofLines first text = .ok source ↔
      (∀ line ∈ text.lines, ∀ character ∈ line, isDisallowed character = false) ∧
        source = ⟨numberFrom first text.lines, none, first⟩ := by
  rw [← @firstDisallowed_numberFrom first]
  unfold ofLines
  simp only
  split
  · rename_i found
    simp [found]
  · rename_i clean
    simp [clean, eq_comm]

/-- Lines as they are loaded: numbered one by one, and each without a newline. -/
structure Loaded (lines : List (Nat × Text)) : Prop where
  numbered : lines.IsChain fun first second => second.1 = first.1 + 1
  positive : ∀ entry ∈ lines, 0 < entry.1
  unbroken : ∀ entry ∈ lines, '\n' ∉ entry.2

theorem loaded_numberFrom {first : Nat} {lines : List Text} (positive : 0 < first)
    (unbroken : ∀ line ∈ lines, '\n' ∉ line) : Loaded (numberFrom first lines) := by
  induction lines generalizing first with
  | nil => exact ⟨.nil, by simp [numberFrom], by simp [numberFrom]⟩
  | cons line others ih =>
      have later := ih (Nat.succ_pos first) (fun other member => unbroken other (by simp [member]))
      refine ⟨?_, ?_, ?_⟩
      · cases others with
        | nil => exact .singleton _
        | cons second others => exact .cons_cons rfl later.numbered
      · exact List.forall_mem_cons.mpr ⟨positive, later.positive⟩
      · exact List.forall_mem_cons.mpr ⟨unbroken line List.mem_cons_self, later.unbroken⟩

theorem Loaded.suffix {lines unread : List (Nat × Text)} (loaded : Loaded lines)
    (ending : unread <:+ lines) : Loaded unread where
  numbered := loaded.numbered.suffix ending
  positive := fun entry member => loaded.positive entry (ending.subset member)
  unbroken := fun entry member => loaded.unbroken entry (ending.subset member)

/-- The sources over a text or over bytes. -/
def IsLoaded (source : Source) : Prop :=
  (∃ text, ofText text = .ok source) ∨ ∃ bytes, ofBytes bytes = .ok source

theorem IsLoaded.exists_ofLines {source : Source} (loads : IsLoaded source) :
    ∃ first text, 0 < first ∧ ofLines first text = .ok source := by
  rcases loads with ⟨text, loads⟩ | ⟨bytes, loads⟩
  · simp only [ofText] at loads
    split at loads
    · exact ⟨1, _, by decide, loads⟩
    · split at loads
      · contradiction
      · exact ⟨2, _, by decide, loads⟩
  · have decoded {encoding : Encoding} {first : Nat} {bytes : Utf8.Bytes}
        (loads : decodeLines encoding first bytes = .ok source) :
        ∃ text, ofLines first text = .ok source := by
      unfold decodeLines at loads
      split at loads
      · contradiction
      · exact ⟨_, loads⟩
    simp only [ofBytes] at loads
    split at loads
    · obtain ⟨text, loads⟩ := decoded loads
      exact ⟨1, text, by decide, loads⟩
    · split at loads
      · contradiction
      · obtain ⟨text, loads⟩ := decoded loads
        exact ⟨2, text, by decide, loads⟩

theorem IsLoaded.loaded {source : Source} (loads : IsLoaded source) :
    source.current = none ∧ Loaded source.lines := by
  obtain ⟨first, text, positive, loads⟩ := loads.exists_ofLines
  obtain ⟨-, rfl⟩ := ofLines_eq_ok_iff.mp loads
  exact ⟨rfl, loaded_numberFrom positive (fun line => Text.newline_not_mem_lines)⟩

end Source

end Stencil
