import Stencil.Proofs.ByteSources
import Stencil.Proofs.Operations

/-! Sources over texts, told from the characters of the text.

A text is loaded line by line.  Here its line breaks are unified in one pass, its lines are what
stands between newlines, and a disallowed character is looked for in the text as a whole; its line
is told from the newlines before it. -/

namespace Stencil

/-! ### Breaks and lines -/

namespace Text

/-- Turns every line break, of whichever style, into a newline, from left to right. -/
def breakOnce : Text → Text
  | [] => []
  | '\r' :: '\n' :: rest => '\n' :: breakOnce rest
  | '\r' :: rest => '\n' :: breakOnce rest
  | character :: rest => character :: breakOnce rest

theorem unifyBreaks_eq_breakOnce (text : Text) : text.unifyBreaks = text.breakOnce := by
  fun_induction breakOnce text with
  | case1 => rfl
  | case2 rest ih => rw [← ih]; rfl
  | case3 rest alone ih =>
      have kept : joinReturns ('\r' :: rest) = '\r' :: joinReturns rest := by
        rw [joinReturns]
        rintro others - rfl
        exact alone others rfl
      rw [← ih, unifyBreaks, kept]
      rfl
  | case4 character rest _ other ih =>
      rw [← ih]
      exact @unifyBreaks_append [character] rest (by simpa using Ne.symm other)

def openingLine (text : Text) : Text :=
  text.takeWhile fun character => character ≠ '\n' && character ≠ '\r'

theorem firstLine_breakOnce (text : Text) : text.breakOnce.firstLine = text.openingLine := by
  fun_induction breakOnce text with
  | case1 => rfl
  | case2 rest ih => rfl
  | case3 rest alone ih => rfl
  | case4 character rest _ other ih =>
      by_cases newline : character = '\n'
      · subst newline
        rfl
      · have visible : character ≠ '\r' := other
        have first : firstLine (character :: breakOnce rest) =
            character :: firstLine (breakOnce rest) :=
          List.takeWhile_cons_of_pos (by simpa using newline)
        have opening : openingLine (character :: rest) = character :: openingLine rest :=
          List.takeWhile_cons_of_pos (by simp [newline, visible])
        rw [first, ih, opening]

theorem afterFirstLine_eq_drop (text : Text) :
    text.afterFirstLine = text.drop (text.firstLine.length + 1) := by
  induction text using line_induction with
  | unbroken line free =>
      rw [afterFirstLine_unbroken free, firstLine_unbroken free, List.drop_of_length_le (by omega)]
  | broken line rest free ih =>
      have length : (line ++ ['\n']).length = line.length + 1 := List.length_append
      rw [afterFirstLine_newline rest free, firstLine_newline rest free, List.append_cons, ← length,
        List.drop_left]

/-- What stands between the newlines of a text, without the empty end behind a final one. -/
def splitLines (text : Text) : List Text :=
  if (text.splitOn '\n').getLast? = some [] then (text.splitOn '\n').dropLast
  else text.splitOn '\n'

theorem lines_eq_splitLines (text : Text) : text.lines = text.splitLines := by
  induction text using line_induction with
  | unbroken line free =>
      have whole : line.splitOn '\n' = [line] := List.splitOn_eq_singleton free
      rw [splitLines, whole]
      by_cases given : line = []
      · subst given
        rfl
      · rw [lines_unbroken free given, if_neg (by simpa using given)]
  | broken line rest free ih =>
      have parts : (line ++ '\n' :: rest).splitOn '\n' = line :: rest.splitOn '\n' := by
        apply List.splitOnP_append_cons_of_forall_mem
        · intro character member
          rw [beq_eq_false_iff_ne]
          rintro rfl
          exact free member
        · rfl
      have more := List.splitOn_ne_nil '\n' rest
      rw [lines_newline rest free, ih, splitLines, splitLines, parts,
        List.getLast?_cons_of_ne_nil more, List.dropLast_cons_of_ne_nil more]
      split
      · rfl
      · rfl

theorem mem_of_mem_lines {text line : Text} {character : Char} (member : line ∈ text.lines)
    (inside : character ∈ line) : character ∈ text := by
  induction text using line_induction with
  | unbroken only free =>
      by_cases given : only = []
      · subst given
        contradiction
      · rw [lines_unbroken free given, List.mem_singleton] at member
        exact member ▸ inside
  | broken first rest free ih =>
      rw [lines_newline rest free] at member
      rw [List.mem_append]
      rcases List.mem_cons.mp member with rfl | later
      · exact .inl inside
      · exact .inr (List.mem_cons_of_mem _ (ih later))

def body (text : Text) : Text :=
  if (Encoding.pragma text.openingLine).isSome then
    text.breakOnce.drop (text.openingLine.length + 1)
  else text.breakOnce

def bodyNumber (text : Text) : Nat :=
  if (Encoding.pragma text.openingLine).isSome then 2 else 1

end Text

/-! ### Loading -/

namespace Source

theorem numberFrom_eq_mapIdx (first : Nat) (lines : List Text) :
    numberFrom first lines = lines.mapIdx fun index line => (first + index, line) := by
  induction lines generalizing first with
  | nil => rfl
  | cons line others ih =>
      rw [numberFrom, ih, List.mapIdx_cons]
      simp only [Nat.add_zero, Nat.add_assoc, Nat.add_comm 1]

/-- The line of the first disallowed character is told from the newlines before it. -/
theorem firstDisallowed_lines {before : Text} {character : Char} (after : Text) (first : Nat)
    (allowed : ∀ other ∈ before, isDisallowed other = false)
    (refused : isDisallowed character = true) :
    firstDisallowed (numberFrom first (before ++ character :: after).lines) =
      some (first + before.count '\n', character) := by
  induction before using Text.line_induction generalizing first with
  | unbroken line free =>
      have visible : character ≠ '\n' := by
        rintro rfl
        contradiction
      have unbroken : '\n' ∉ line ++ [character] := by
        simp [free, Ne.symm visible]
      rw [List.append_cons, Text.lines_append after (by simp) unbroken, numberFrom,
        List.append_assoc, firstDisallowed_append allowed, List.count_eq_zero.mpr free]
      simp [firstDisallowed, refused]
  | broken line rest free ih =>
      obtain ⟨clean, later⟩ := List.forall_mem_append.mp allowed
      have passed := @firstDisallowed_append first line []
        (numberFrom (first + 1) (rest ++ character :: after).lines) clean
      have count : first + (line ++ '\n' :: rest).count '\n' = first + 1 + rest.count '\n' := by
        rw [List.count_append, List.count_eq_zero.mpr free, List.count_cons_self]
        omega
      rw [List.append_nil] at passed
      rw [List.append_assoc, List.cons_append, Text.lines_newline _ free, numberFrom, passed, count]
      exact ih (first + 1) (List.forall_mem_cons.mp later).2

theorem ofText_eq_ofLines {text : Text}
    (obeyed : ∀ label, Encoding.pragma text.openingLine = some label →
      Encoding.ofLabel? label ≠ none) :
    ofText text = ofLines text.bodyNumber text.body := by
  unfold ofText Text.body Text.bodyNumber
  simp only [Text.headD_lines, Text.afterFirstLine_eq_drop, Text.unifyBreaks_eq_breakOnce,
    Text.firstLine_breakOnce]
  cases found : Encoding.pragma text.openingLine with
  | none => rfl
  | some label =>
      cases named : Encoding.ofLabel? label with
      | none => exact absurd named (obeyed label found)
      | some encoding => simp [Encoding.ofLabel, named]

/-- Unless the pragma of its first line is refused, a text is refused exactly if it has a
disallowed character behind the pragma.  The first one is reported, for the line that the
newlines before it tell; without one, the lines of the text are there to be read, numbered one by
one. -/
theorem ofText_exact {text : Text}
    (obeyed : ∀ label, Encoding.pragma text.openingLine = some label →
      Encoding.ofLabel? label ≠ none) :
    text.unifyBreaks = text.breakOnce ∧
      ((∃ fault, ofText text = .error fault) ↔
        ∃ character ∈ text.body, isDisallowed character = true) ∧
      (∀ before character after, text.body = before ++ character :: after →
        (∀ other ∈ before, isDisallowed other = false) → isDisallowed character = true →
          ofText text =
            .error (.invalidCharacter (text.bodyNumber + before.count '\n') character)) ∧
      ((∀ character ∈ text.body, isDisallowed character = false) →
        ∃ source, ofText text = .ok source ∧
          source.drain.1 =
            text.body.splitLines.mapIdx fun index line => (text.bodyNumber + index, line)) := by
  have refuses : ∀ before character after, text.body = before ++ character :: after →
      (∀ other ∈ before, isDisallowed other = false) → isDisallowed character = true →
        ofText text =
          .error (.invalidCharacter (text.bodyNumber + before.count '\n') character) := by
    intro before character after parts allowed refused
    rw [ofText_eq_ofLines obeyed, parts]
    simp only [ofLines, firstDisallowed_lines after _ allowed refused]
  have loads : (∀ character ∈ text.body, isDisallowed character = false) →
      ofText text = .ok ⟨numberFrom text.bodyNumber text.body.lines, none, text.bodyNumber⟩ := by
    intro allowed
    rw [ofText_eq_ofLines obeyed, ofLines_eq_ok_iff]
    exact ⟨fun line member character inside =>
      allowed character (Text.mem_of_mem_lines member inside), rfl⟩
  refine ⟨Text.unifyBreaks_eq_breakOnce text, ⟨?_, ?_⟩, refuses, ?_⟩
  · rintro ⟨fault, failed⟩
    by_contra clean
    have allowed : ∀ character ∈ text.body, isDisallowed character = false := by
      intro character member
      rw [← Bool.not_eq_true]
      exact fun refused => clean ⟨character, member, refused⟩
    rw [loads allowed] at failed
    contradiction
  · rintro ⟨character, member, refused⟩
    cases found : text.body.find? isDisallowed with
    | none => exact absurd refused (List.find?_eq_none.mp found character member)
    | some first =>
        obtain ⟨refused, before, after, parts, allowed⟩ := List.find?_eq_some_iff_append.mp found
        exact ⟨_, refuses before first after parts (by simpa using allowed) refused⟩
  · intro allowed
    refine ⟨_, loads allowed, ?_⟩
    rw [drain_fst, ← Text.lines_eq_splitLines, ← numberFrom_eq_mapIdx]
    rfl

/-- Behind a pragma and breaks of all three styles, a tab is refused for the line that it is on, and
without it the lines are numbered from two. -/
theorem ofText_exact_tab :
    ofText "-# coding: utf8\r\n%a\r\r\n\n\tb".toList = .error (.invalidCharacter 5 '\t') ∧
      ∃ source, ofText "-# coding: utf8\r\n%a\r\r\nb\n".toList = .ok source ∧
        source.drain.1 = [(2, "%a".toList), (3, []), (4, "b".toList)] := by
  have label {text : Text} (given : Encoding.pragma text.openingLine = some "utf8".toList) :
      ∀ label, Encoding.pragma text.openingLine = some label → Encoding.ofLabel? label ≠ none := by
    intro label same
    rw [given, Option.some.injEq] at same
    subst same
    decide
  have clean {text : Text} (allowed : text.all (fun character => !isDisallowed character) = true) :
      ∀ character ∈ text, isDisallowed character = false := by
    simpa using allowed
  have refused := ofText_exact (label (by decide +kernel :
    Encoding.pragma (Text.openingLine "-# coding: utf8\r\n%a\r\r\n\n\tb".toList) = _))
  have loaded := ofText_exact (label (by decide +kernel :
    Encoding.pragma (Text.openingLine "-# coding: utf8\r\n%a\r\r\nb\n".toList) = _))
  have body : Text.body "-# coding: utf8\r\n%a\r\r\nb\n".toList = "%a\n\nb\n".toList := by
    decide +kernel
  constructor
  · exact refused.2.2.1 "%a\n\n\n".toList '\t' "b".toList (by decide +kernel)
      (clean (by decide)) (by decide)
  · obtain ⟨source, loads, drains⟩ := loaded.2.2.2 (clean (by rw [body]; decide))
    rw [body] at drains
    exact ⟨source, loads, drains⟩

end Source
end Stencil
