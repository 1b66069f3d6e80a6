import Mathlib.Logic.Function.Iterate
import Stencil.Proofs.Comments

/-! Comment lines whose hyphens are kept apart.

What the passes over a comment line end with can be told without them: one space stands
between any two hyphens that met, and nothing else is changed.  A pass does not change what is
told of a line in this way, and of a line without a pair the line itself is told, so this is
where the passes stop.  A first pass leaves no three hyphens in a row; a third one is
therefore never needed.  No shorter line keeps the characters in their order and their hyphens
apart. -/

namespace Stencil
namespace Markup

/-- A line with one space between any two hyphens that meet. -/
def separateHyphens : Text → Text
  | [] => []
  | character :: rest =>
      if character = '-' ∧ rest.head? = some '-' then '-' :: ' ' :: separateHyphens rest
      else character :: separateHyphens rest

theorem separateHyphens_pair (rest : Text) :
    separateHyphens ('-' :: '-' :: rest) = '-' :: ' ' :: separateHyphens ('-' :: rest) := by
  simp [separateHyphens]

theorem separateHyphens_cons_of_apart {character : Char} {rest : Text}
    (apart : ¬(character = '-' ∧ rest.head? = some '-')) :
    separateHyphens (character :: rest) = character :: separateHyphens rest := by
  rw [separateHyphens, if_neg apart]

theorem length_separateHyphens (text : Text) :
    (separateHyphens text).length = text.length + hyphenPairs text := by
  induction text with
  | nil => rfl
  | cons character rest ih =>
      rw [hyphenPairs_cons, separateHyphens]
      split
      · simp only [List.length_cons, ih]
        omega
      · simp only [List.length_cons, ih]
        omega

theorem separateHyphens_of_unpaired {text : Text} (unpaired : hyphenPairs text = 0) :
    separateHyphens text = text := by
  induction text with
  | nil => rfl
  | cons character rest ih =>
      rw [hyphenPairs_cons] at unpaired
      have apart : ¬(character = '-' ∧ rest.head? = some '-') := by
        intro both
        rw [if_pos both] at unpaired
        omega
      rw [separateHyphens_cons_of_apart apart, ih (by omega)]

/-! ### One pass -/

private theorem apart_of_unpaired {character : Char} {rest : Text}
    (unpaired : ∀ others, character = '-' → rest = '-' :: others → False) :
    ¬(character = '-' ∧ rest.head? = some '-') := by
  rintro ⟨isHyphen, met⟩
  obtain ⟨others, begins⟩ := List.head?_eq_some_iff.mp met
  exact unpaired others isHyphen begins

theorem splitPairs_cons_of_apart {character : Char} {rest : Text}
    (apart : ¬(character = '-' ∧ rest.head? = some '-')) :
    splitPairs (character :: rest) = character :: splitPairs rest := by
  rw [splitPairs]
  rintro others rfl rfl
  exact apart ⟨rfl, rfl⟩

private theorem separateHyphens_cons_congr (character : Char) {first second : Text}
    (sameHead : first.head? = second.head?)
    (same : separateHyphens first = separateHyphens second) :
    separateHyphens (character :: first) = separateHyphens (character :: second) := by
  rw [separateHyphens, separateHyphens, sameHead, same]

theorem separateHyphens_splitPairs (text : Text) :
    separateHyphens (splitPairs text) = separateHyphens text := by
  fun_induction splitPairs text with
  | case1 rest ih =>
      rw [separateHyphens_pair, separateHyphens_cons_of_apart (by simp),
        separateHyphens_cons_of_apart (by simp),
        separateHyphens_cons_congr '-' (head?_splitPairs rest) ih]
  | case2 character rest _ ih =>
      exact separateHyphens_cons_congr character (head?_splitPairs rest) ih
  | case3 => rfl

/-! ### All passes -/

/-- The passes end with one space between any two hyphens that met. -/
theorem escapeComment_eq_separateHyphens (text : Text) :
    escapeComment text = separateHyphens text := by
  -- each pass keeps what is told of the line, and the last line has no pair
  fun_induction escapeComment text with
  | case1 text paired ih => rw [ih, separateHyphens_splitPairs]
  | case2 text unpaired => exact (separateHyphens_of_unpaired (by omega)).symm

theorem escapeComment_of_unpaired {text : Text} (unpaired : hyphenPairs text = 0) :
    escapeComment text = text := by
  rw [escapeComment_eq_separateHyphens, separateHyphens_of_unpaired unpaired]

theorem escapeComment_reached (text : Text) :
    ∃ passes, escapeComment text = splitPairs^[passes] text ∧
      ∀ earlier < passes, 0 < hyphenPairs (splitPairs^[earlier] text) := by
  fun_induction escapeComment text with
  | case1 text paired ih =>
      obtain ⟨passes, reached, before⟩ := ih
      refine ⟨passes + 1, reached, ?_⟩
      intro earlier bound
      cases earlier with
      | zero => exact paired
      | succ earlier => exact before earlier (by omega)
  | case2 text unpaired => exact ⟨0, rfl, by simp⟩

/-! ### The number of passes -/

private theorem head?_after_hyphen {text later : Text} (passed : splitPairs text = '-' :: later) :
    later.head? ≠ some '-' := by
  fun_cases splitPairs text with
  | case1 rest =>
      cases passed
      simp
  | case2 character rest unpaired =>
      have apart := apart_of_unpaired unpaired
      rw [splitPairs_cons_of_apart apart] at passed
      cases passed
      rw [head?_splitPairs]
      exact fun met => apart ⟨rfl, met⟩
  | case3 => contradiction

/-- Two passes separate all hyphens. -/
theorem splitPairs_splitPairs (text : Text) :
    splitPairs (splitPairs text) = separateHyphens text := by
  fun_induction splitPairs text with
  | case1 rest ih =>
      have spaced : splitPairs ('-' :: ' ' :: '-' :: splitPairs rest) =
          '-' :: ' ' :: splitPairs ('-' :: splitPairs rest) := by
        rw [splitPairs_cons_of_apart (by simp), splitPairs_cons_of_apart (by simp)]
      rw [spaced, separateHyphens_pair]
      by_cases met : rest.head? = some '-'
      · -- the next hyphen stands alone behind the first pass, and is split off by the second
        obtain ⟨later, passed⟩ := List.head?_eq_some_iff.mp ((head?_splitPairs rest).trans met)
        have alone := splitPairs_cons_of_apart
          (fun both : '-' = '-' ∧ later.head? = some '-' => head?_after_hyphen passed both.2)
        rw [separateHyphens, if_pos ⟨rfl, met⟩, ← ih, passed, alone, splitPairs]
      · rw [separateHyphens_cons_of_apart (fun both => met both.2), ← ih,
          splitPairs_cons_of_apart (fun both => met ((head?_splitPairs rest).symm.trans both.2))]
  | case2 character rest unpaired ih =>
      have apart := apart_of_unpaired unpaired
      rw [separateHyphens_cons_of_apart apart,
        splitPairs_cons_of_apart (by rwa [head?_splitPairs]), ih]
  | case3 => rfl

theorem hyphenPairs_second_pass (text : Text) : hyphenPairs (splitPairs (splitPairs text)) = 0 := by
  rw [splitPairs_splitPairs, ← escapeComment_eq_separateHyphens, hyphenPairs_escapeComment]

/-! ### Lines with the same characters -/

/-- Hyphens that meet have to be kept apart by another character: a line that has the
characters of `text` in their order and no pair is longer by the number of pairs, and by one
more if it has to put something in front of a first hyphen. -/
private theorem length_add_hyphenPairs_add_le {text safe : Text} (within : text.Sublist safe)
    (unpaired : hyphenPairs safe = 0) :
    text.length + hyphenPairs text +
        (if text.head? = some '-' ∧ safe.head? ≠ some '-' then 1 else 0) ≤ safe.length := by
  induction within with
  | slnil => simp [hyphenPairs]
  | @cons text safe character within ih =>
      rw [hyphenPairs_cons] at unpaired
      have shorter := ih (by omega)
      simp only [List.length_cons]
      split
      · omega
      · omega
  | @cons_cons text safe character within ih =>
      have sameFront : ¬((character :: text).head? = some '-' ∧
          (character :: safe).head? ≠ some '-') := by
        simp
      rw [hyphenPairs_cons] at unpaired
      have shorter := ih (by omega)
      rw [if_neg sameFront, hyphenPairs_cons, List.length_cons, List.length_cons]
      by_cases paired : character = '-' ∧ text.head? = some '-'
      · -- the second hyphen of the pair cannot stand right behind the first one
        have separated : safe.head? ≠ some '-' := by
          intro met
          rw [if_pos ⟨paired.1, met⟩] at unpaired
          omega
        rw [if_pos ⟨paired.2, separated⟩] at shorter
        rw [if_pos paired]
        omega
      · rw [if_neg paired]
        omega

/-- No shorter line has the characters of `text` in their order and no two hyphens in a row. -/
theorem length_escapeComment_le {text safe : Text} (within : text.Sublist safe)
    (unpaired : hyphenPairs safe = 0) : (escapeComment text).length ≤ safe.length := by
  rw [escapeComment_eq_separateHyphens, length_separateHyphens]
  exact Nat.le_trans (Nat.le_add_right _ _) (length_add_hyphenPairs_add_le within unpaired)

/-! ### Escaping -/

/-- Escaping a comment line ends, after two passes at most, and is minimal.  The result has no
two hyphens in a row; it is the line with one space between any two hyphens that meet, it is
not changed by escaping it again, and a line is left as it is exactly when it has no two hyphens
in a row.  No shorter line would do. -/
theorem escapeComment_minimal (text : Text) :
    (∃ passes ≤ 2, escapeComment text = splitPairs^[passes] text ∧
        ∀ earlier < passes, doubleHyphen <:+: splitPairs^[earlier] text) ∧
      ¬ doubleHyphen <:+: escapeComment text ∧
      escapeComment text = separateHyphens text ∧
      escapeComment (escapeComment text) = escapeComment text ∧
      (escapeComment text = text ↔ ¬ doubleHyphen <:+: text) ∧
      ∀ safe : Text, text.Sublist safe → ¬ doubleHyphen <:+: safe →
        (escapeComment text).length ≤ safe.length := by
  have unpaired := hyphenPairs_escapeComment text
  refine ⟨?_, (hyphenPairs_eq_zero_iff _).mp unpaired, escapeComment_eq_separateHyphens text,
    escapeComment_of_unpaired unpaired, ⟨?_, ?_⟩, ?_⟩
  · obtain ⟨passes, reached, before⟩ := escapeComment_reached text
    refine ⟨passes, ?_, reached, ?_⟩
    · by_contra more
      have third : 0 < hyphenPairs (splitPairs (splitPairs text)) := before 2 (by omega)
      rw [hyphenPairs_second_pass] at third
      exact Nat.lt_irrefl 0 third
    · intro earlier bound
      by_contra free
      have positive := before earlier bound
      rw [(hyphenPairs_eq_zero_iff _).mpr free] at positive
      exact Nat.lt_irrefl 0 positive
  · intro same
    rw [← hyphenPairs_eq_zero_iff, ← same]
    exact unpaired
  · intro free
    exact escapeComment_of_unpaired ((hyphenPairs_eq_zero_iff text).mpr free)
  · intro safe within free
    exact length_escapeComment_le within ((hyphenPairs_eq_zero_iff safe).mpr free)

/-- Three hyphens in a row take two spaces. -/
theorem escapeComment_minimal_triple :
    escapeComment ['a', '-', '-', '-', 'b'] = ['a', '-', ' ', '-', ' ', '-', 'b'] ∧
      escapeComment ['a', '-', ' ', '-', ' ', '-', 'b'] = ['a', '-', ' ', '-', ' ', '-', 'b'] ∧
      (escapeComment ['a', '-', '-', '-', 'b']).length ≤ ['a', '-', '+', '-', '+', '-', 'b'].length := by
  obtain ⟨-, -, separated, again, -, shortest⟩ := escapeComment_minimal ['a', '-', '-', '-', 'b']
  have result : escapeComment ['a', '-', '-', '-', 'b'] = ['a', '-', ' ', '-', ' ', '-', 'b'] :=
    separated.trans (by decide)
  refine ⟨result, ?_, shortest ['a', '-', '+', '-', '+', '-', 'b'] (by decide) (by decide)⟩
  rwa [result] at again

end Markup
end Stencil
