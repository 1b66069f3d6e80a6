import Stencil.Proofs.Scanning

/-! Levels whose widths go up from the base.

Closing the levels above a width stops at the first one that is not wider.  If the widths go
up, this counts and closes all the wider levels and leaves the others.  The innermost of them
has the given width exactly when some open level had it; so a line whose indentation goes back
is refused exactly when it meets no open level. -/

namespace Stencil

namespace Levels

/-- The widths go up from the base to the innermost level. -/
def Increasing (levels : Levels) : Prop :=
  levels.widths.Pairwise (· < ·)

theorem increasing_iff {levels : Levels} :
    levels.Increasing ↔
      levels.inner.Pairwise (· > ·) ∧ ∀ width ∈ levels.inner, levels.base < width := by
  unfold Increasing widths
  rw [List.pairwise_cons, List.pairwise_reverse]
  simp only [List.mem_reverse, gt_iff_lt]
  exact and_comm

theorem mem_widths {levels : Levels} {width : Nat} :
    width ∈ levels.widths ↔ width = levels.base ∨ width ∈ levels.inner := by
  simp [widths]

theorem current_mem_widths (levels : Levels) : levels.current ∈ levels.widths := by
  rw [mem_widths]
  unfold current
  cases levels.inner with
  | nil => exact .inl rfl
  | cons innermost others => exact .inr List.mem_cons_self

theorem le_current {levels : Levels} {width : Nat} (increasing : levels.Increasing)
    (member : width ∈ levels.widths) : width ≤ levels.current := by
  obtain ⟨sorted, above⟩ := increasing_iff.mp increasing
  rw [mem_widths] at member
  unfold current
  cases opened : levels.inner with
  | nil =>
      rw [opened] at member
      simp at member
      exact Nat.le_of_eq member
  | cons innermost others =>
      rw [opened] at sorted above member
      rcases member with rfl | inside
      · exact Nat.le_of_lt (above innermost List.mem_cons_self)
      · rcases List.mem_cons.mp inside with rfl | further
        · exact Nat.le_refl _
        · exact Nat.le_of_lt ((List.pairwise_cons.mp sorted).1 width further)

theorem Increasing.push {levels : Levels} {width : Nat} (increasing : levels.Increasing)
    (wider : levels.current < width) : (levels.push width).Increasing := by
  obtain ⟨sorted, above⟩ := increasing_iff.mp increasing
  have widest (other : Nat) (member : other ∈ levels.widths) : other < width :=
    Nat.lt_of_le_of_lt (le_current increasing member) wider
  rw [increasing_iff]
  constructor
  · refine List.pairwise_cons.mpr ⟨?_, sorted⟩
    intro other member
    exact widest other (mem_widths.mpr (.inr member))
  · intro other member
    rcases List.mem_cons.mp member with rfl | earlier
    · exact widest _ (mem_widths.mpr (.inl rfl))
    · exact above other earlier

/-! ### Closing levels -/

theorem length_closeAbove (width : Nat) (inner : List Nat) :
    (closeAbove width inner).2.length + (closeAbove width inner).1 = inner.length := by
  fun_induction closeAbove width inner with
  | case1 => rfl
  | case2 innermost others wider closed remaining same ih =>
      rw [same] at ih
      simp only [List.length_cons] at ih ⊢
      omega
  | case3 innermost others notWider => rfl

theorem closeAbove_sublist (width : Nat) (inner : List Nat) :
    (closeAbove width inner).2.Sublist inner := by
  fun_induction closeAbove width inner with
  | case1 => exact List.Sublist.refl _
  | case2 innermost others wider closed remaining same ih =>
      rw [same] at ih
      exact ih.cons innermost
  | case3 innermost others notWider => exact List.Sublist.refl _

/-- Of widths that go down, the wider ones are counted and closed and the others stay. -/
theorem closeAbove_eq {inner : List Nat} (sorted : inner.Pairwise (· > ·)) (width : Nat) :
    closeAbove width inner = (inner.countP (width < ·), inner.filter (· ≤ width)) := by
  fun_induction closeAbove width inner with
  | case1 => rfl
  | case2 innermost others wider closed remaining same ih =>
      have rest := ih (List.pairwise_cons.mp sorted).2
      rw [same, Prod.mk.injEq] at rest
      obtain ⟨rfl, rfl⟩ := rest
      simp [wider]
  | case3 innermost others notWider =>
      -- the innermost width is the widest, so no other one is wider either
      have narrow : ∀ other ∈ innermost :: others, other ≤ width := by
        intro other member
        rcases List.mem_cons.mp member with rfl | further
        · omega
        · have below := (List.pairwise_cons.mp sorted).1 other further
          omega
      have none_wider : (innermost :: others).countP (width < ·) = 0 := by
        rw [List.countP_eq_zero]
        intro other member
        simpa using narrow other member
      have all_stay : (innermost :: others).filter (· ≤ width) = innermost :: others := by
        rw [List.filter_eq_self]
        intro other member
        simpa using narrow other member
      rw [none_wider, all_stay]

theorem mem_closeAbove_iff {width other : Nat} {inner : List Nat}
    (sorted : inner.Pairwise (· > ·)) :
    other ∈ (closeAbove width inner).2 ↔ other ∈ inner ∧ other ≤ width := by
  rw [closeAbove_eq sorted, List.mem_filter, decide_eq_true_iff]

section Dedenting

variable {levels left : Levels} {width closed : Nat}

theorem base_dedentTo (width : Nat) (levels : Levels) :
    (levels.dedentTo width).2.base = levels.base := rfl

theorem depth_dedentTo (dedents : levels.dedentTo width = (some closed, left)) :
    left.depth + closed = levels.depth := by
  have counted := length_closeAbove width levels.inner
  unfold dedentTo at dedents
  simp only [Prod.mk.injEq] at dedents
  obtain ⟨count, rfl⟩ := dedents
  rw [Option.ite_none_right_eq_some] at count
  obtain ⟨-, same⟩ := count
  cases same
  exact counted

theorem current_dedentTo (dedents : levels.dedentTo width = (some closed, left)) :
    left.current = width := by
  unfold dedentTo at dedents
  simp only [Prod.mk.injEq] at dedents
  obtain ⟨count, rfl⟩ := dedents
  rw [Option.ite_none_right_eq_some] at count
  exact count.1

theorem Increasing.dedentTo (increasing : levels.Increasing) (width : Nat) :
    (levels.dedentTo width).2.Increasing := by
  obtain ⟨sorted, above⟩ := increasing_iff.mp increasing
  have fewer := closeAbove_sublist width levels.inner
  rw [increasing_iff]
  exact ⟨sorted.sublist fewer, fun other member => above other (fewer.subset member)⟩

theorem pos_of_dedentTo (narrower : width < levels.current)
    (dedents : levels.dedentTo width = (some closed, left)) : 0 < closed := by
  rcases Nat.eq_zero_or_pos closed with rfl | positive
  · have reached := current_dedentTo dedents
    have same : left = levels := by
      have fewer := closeAbove_sublist width levels.inner
      have counted := depth_dedentTo dedents
      have inner : left = { levels with inner := (closeAbove width levels.inner).2 } :=
        (congrArg Prod.snd dedents).symm
      rw [inner] at counted ⊢
      rw [fewer.eq_of_length counted]
    rw [same] at reached
    omega
  · exact positive

theorem base_le {other : Nat} (increasing : levels.Increasing) (member : other ∈ levels.widths) :
    levels.base ≤ other := by
  rcases mem_widths.mp member with rfl | inside
  · exact Nat.le_refl _
  · exact Nat.le_of_lt ((increasing_iff.mp increasing).2 other inside)

/-- A width is met exactly when it is open. -/
theorem current_dedentTo_eq_iff (increasing : levels.Increasing) :
    (levels.dedentTo width).2.current = width ↔ width ∈ levels.widths := by
  obtain ⟨sorted, -⟩ := increasing_iff.mp increasing
  constructor
  · intro same
    rw [← same]
    rcases mem_widths.mp (current_mem_widths (levels.dedentTo width).2) with base | inside
    · exact mem_widths.mpr (.inl base)
    · exact mem_widths.mpr (.inr ((closeAbove_sublist width levels.inner).subset inside))
  · intro member
    have stays : width ∈ (levels.dedentTo width).2.widths := by
      rcases mem_widths.mp member with same | inside
      · exact mem_widths.mpr (.inl same)
      · exact mem_widths.mpr
          (.inr ((mem_closeAbove_iff sorted).mpr ⟨inside, Nat.le_refl _⟩))
    apply Nat.le_antisymm
    · -- what is left is not wider, or it is the base
      rcases mem_widths.mp (current_mem_widths (levels.dedentTo width).2) with base | inside
      · rw [base, base_dedentTo]
        exact base_le increasing member
      · exact ((mem_closeAbove_iff sorted).mp inside).2
    · exact le_current (increasing.dedentTo width) stays

theorem dedentTo_eq_none_iff (increasing : levels.Increasing) :
    (levels.dedentTo width).1 = none ↔ width ∉ levels.widths := by
  rw [← current_dedentTo_eq_iff increasing]
  unfold dedentTo
  simp

theorem dedentTo_eq_some_iff (increasing : levels.Increasing) :
    (levels.dedentTo width).1 = some closed ↔
      width ∈ levels.widths ∧ closed = levels.widths.countP (width < ·) := by
  have counted (met : width ∈ levels.widths) :
      (closeAbove width levels.inner).1 = levels.widths.countP (width < ·) := by
    have reached := base_le increasing met
    rw [closeAbove_eq (increasing_iff.mp increasing).1, widths, List.countP_cons_of_neg (by simpa),
      List.countP_reverse]
  have given : (levels.dedentTo width).1 = some closed ↔
      (levels.dedentTo width).2.current = width ∧ (closeAbove width levels.inner).1 = closed := by
    unfold dedentTo
    simp
  rw [given, current_dedentTo_eq_iff increasing]
  constructor
  · rintro ⟨met, rfl⟩
    exact ⟨met, counted met⟩
  · rintro ⟨met, rfl⟩
    exact ⟨met, counted met⟩

/-- What is left are the levels that are not wider, in their order; the base always stays. -/
theorem widths_dedentTo (increasing : levels.Increasing) (width : Nat) :
    (levels.dedentTo width).2.widths =
      if width < levels.base then [levels.base] else levels.widths.filter (· ≤ width) := by
  obtain ⟨sorted, above⟩ := increasing_iff.mp increasing
  have left : (levels.dedentTo width).2.widths =
      levels.base :: (levels.inner.filter (· ≤ width)).reverse := by
    unfold dedentTo
    rw [closeAbove_eq sorted]
    rfl
  rw [left]
  split
  · rename_i below
    have none_stays : levels.inner.filter (· ≤ width) = [] := by
      rw [List.filter_eq_nil_iff]
      intro other member
      have wider := Nat.lt_trans below (above other member)
      simpa using wider
    rw [none_stays]
    rfl
  · rename_i reached
    rw [widths, List.filter_cons_of_pos (by simpa using reached), List.filter_reverse]

/-- Going back to a width, over levels whose widths go up: it succeeds exactly when the width is
open, and then gives the number of wider levels.  In either case the levels that are not wider
are left in their order, or the base alone if even the base is wider; so there still is a level,
the widths still go up and the base is the same. -/
theorem dedentTo_of_increasing {levels : Levels} (increasing : levels.Increasing) (width : Nat) :
    (∀ closed, (levels.dedentTo width).1 = some closed ↔
        width ∈ levels.widths ∧ closed = levels.widths.countP (width < ·)) ∧
      (levels.dedentTo width).2.widths =
        (if width < levels.base then [levels.base] else levels.widths.filter (· ≤ width)) ∧
      (levels.dedentTo width).2.widths ≠ [] ∧
      (levels.dedentTo width).2.widths.Pairwise (· < ·) ∧
      (levels.dedentTo width).2.widths.head? = levels.widths.head? :=
  ⟨fun _ => dedentTo_eq_some_iff increasing, widths_dedentTo increasing width,
    List.cons_ne_nil _ _, increasing.dedentTo width, rfl⟩

/-- Two levels are closed to meet an open width.  A width between two levels is not met, and
below the base only the base is left. -/
theorem dedentTo_of_increasing_three :
    (⟨1, [7, 5, 3]⟩ : Levels).Increasing ∧
      (∀ closed, ((⟨1, [7, 5, 3]⟩ : Levels).dedentTo 3).1 = some closed ↔ closed = 2) ∧
      (∀ closed, ((⟨1, [7, 5, 3]⟩ : Levels).dedentTo 6).1 ≠ some closed) ∧
      ((⟨1, [7, 5, 3]⟩ : Levels).dedentTo 6).2.widths = [1, 3, 5] ∧
      ((⟨1, [7, 5, 3]⟩ : Levels).dedentTo 0).2.widths = [1] := by
  have increasing : (⟨1, [7, 5, 3]⟩ : Levels).Increasing := by
    unfold Increasing
    decide
  refine ⟨increasing, ?_, ?_, ?_, ?_⟩
  · intro closed
    rw [(dedentTo_of_increasing increasing 3).1 closed]
    simp [widths]
  · intro closed
    rw [ne_eq, (dedentTo_of_increasing increasing 6).1 closed]
    simp [widths]
  · exact (dedentTo_of_increasing increasing 6).2.1
  · exact (dedentTo_of_increasing increasing 0).2.1

end Dedenting

end Levels

/-! ### Entering a level -/

namespace Scanner

/-- The ways in which a line of a width opens and closes levels. -/
inductive Entered (width line : Nat) (levels : Levels) : Levels → List Lexeme → Prop
  | opens (wider : levels.current < width) :
      Entered width line levels (levels.push width) (onLine line [.indent])
  | stays (same : levels.current = width) : Entered width line levels levels []
  | closes {closed : Nat} {left : Levels} (narrower : width < levels.current)
      (dedents : levels.dedentTo width = (some closed, left)) :
      Entered width line levels left (onLine line (List.replicate closed .dedent))

theorem entered_of_enterLevel {width line : Nat} {levels left : Levels} {lexemes : List Lexeme}
    (entered : enterLevel width line levels = .ok (left, lexemes)) :
    Entered width line levels left lexemes := by
  unfold enterLevel at entered
  split at entered
  · rename_i wider
    cases entered
    exact .opens (Nat.compare_eq_gt.mp wider)
  · rename_i same
    cases entered
    exact .stays (Nat.compare_eq_eq.mp same).symm
  · rename_i narrower
    split at entered
    · rename_i closed remaining dedents
      cases entered
      exact .closes (Nat.compare_eq_lt.mp narrower) dedents
    · contradiction

theorem enterLevel_eq_error_iff {width line : Nat} {levels : Levels} {fault : Fault}
    (increasing : levels.Increasing) :
    enterLevel width line levels = .error fault ↔
      fault = .parse line (.unalignedIndent width) ∧
        width < levels.current ∧ width ∉ levels.widths := by
  rw [← Levels.dedentTo_eq_none_iff increasing]
  unfold enterLevel
  split
  · rename_i wider
    have bound := Nat.compare_eq_gt.mp wider
    simp only [reduceCtorEq, false_iff]
    omega
  · rename_i same
    have bound := Nat.compare_eq_eq.mp same
    simp only [reduceCtorEq, false_iff]
    omega
  · rename_i narrower
    have bound := Nat.compare_eq_lt.mp narrower
    split
    · rename_i closed left dedents
      simp [dedents]
    · rename_i left dedents
      simp [dedents, bound, eq_comm]

theorem current_of_entered {width line : Nat} {levels left : Levels} {lexemes : List Lexeme}
    (entered : Entered width line levels left lexemes) : left.current = width := by
  cases entered with
  | opens wider => rfl
  | stays same => exact same
  | closes narrower dedents => exact Levels.current_dedentTo dedents

end Scanner

end Stencil
