import Mathlib.Algebra.BigOperators.Group.Finset.Basic
import Mathlib.Algebra.Order.BigOperators.Group.Finset
import Stencil.Proofs.Scanning

/-! Every feed hands out finitely many items and then nothing.

`Call` is the loop of one call as it is run, step by step and with no bound: a call comes
back only if it has a course.  What is left to hand out is the rest of the scanner's run, so
that every call takes the first item off a list; and the measure that the steps lower bounds
the steps of all calls together. -/

namespace Stencil
namespace Feed

open Finset

/-- The course of a call: the number of its steps, what it hands out, and the feed then. -/
inductive Call : Feed → Nat → Option (Except Fault Lexeme) → Feed → Prop
  | ready {scanner : Scanner} {lexeme : Lexeme} {others : List Lexeme} :
      Call ⟨scanner, lexeme :: others⟩ 0 (some (.ok lexeme)) ⟨scanner, others⟩
  | ended {scanner : Scanner} (finished : scanner.mode = .done) :
      Call ⟨scanner, []⟩ 0 none ⟨scanner, []⟩
  | failed {scanner : Scanner} {fault : Fault} (active : scanner.mode ≠ .done)
      (fails : scanner.step = .error fault) :
      Call ⟨scanner, []⟩ 1 (some (.error fault)) (exhausted scanner)
  | step {scanner next : Scanner} {lexemes : List Lexeme} {steps : Nat}
      {item : Option (Except Fault Lexeme)} {last : Feed} (active : scanner.mode ≠ .done)
      (stepped : scanner.step = .ok (next, lexemes))
      (later : Call ⟨next, lexemes⟩ steps item last) :
      Call ⟨scanner, []⟩ (steps + 1) item last

def after (feed : Feed) : Nat → Feed
  | 0 => feed
  | calls + 1 => (feed.after calls).next.2

def handed (feed : Feed) (index : Nat) : Option (Except Fault Lexeme) :=
  (feed.after index).next.1

/-! ### The course of a call -/

theorem exists_call (feed : Feed) : ∃ steps, Call feed steps feed.next.1 feed.next.2 := by
  fun_induction next feed with
  | case1 feed lexeme others ready =>
      obtain ⟨scanner, lexemes⟩ := feed
      obtain rfl : lexemes = lexeme :: others := ready
      exact ⟨0, .ready⟩
  | case2 feed ready finished =>
      obtain ⟨scanner, lexemes⟩ := feed
      obtain rfl : lexemes = [] := ready
      exact ⟨0, .ended finished⟩
  | case3 feed ready active fault fails =>
      obtain ⟨scanner, lexemes⟩ := feed
      obtain rfl : lexemes = [] := ready
      exact ⟨1, .failed active fails⟩
  | case4 feed ready active scanner lexemes stepped ih =>
      obtain ⟨before, queued⟩ := feed
      obtain rfl : queued = [] := ready
      obtain ⟨steps, later⟩ := ih
      exact ⟨steps + 1, .step active stepped later⟩

theorem Call.unique {feed last other : Feed} {steps count : Nat}
    {item result : Option (Except Fault Lexeme)} (call : Call feed steps item last)
    (again : Call feed count result other) : count = steps ∧ result = item ∧ other = last := by
  induction call generalizing count with
  | ready =>
      cases again
      exact ⟨rfl, rfl, rfl⟩
  | ended finished =>
      cases again with
      | ended _ => exact ⟨rfl, rfl, rfl⟩
      | failed active _ => exact absurd finished active
      | step active _ _ => exact absurd finished active
  | failed active fails =>
      cases again with
      | ended finished => exact absurd finished active
      | failed _ same =>
          rw [fails] at same
          cases same
          exact ⟨rfl, rfl, rfl⟩
      | step _ stepped _ =>
          rw [fails] at stepped
          contradiction
  | step active stepped later ih =>
      cases again with
      | ended finished => exact absurd finished active
      | failed _ fails =>
          rw [stepped] at fails
          contradiction
      | step _ same further =>
          rw [stepped] at same
          cases same
          obtain ⟨rfl, rfl, rfl⟩ := ih further
          exact ⟨rfl, rfl, rfl⟩

/-! ### The steps of all calls -/

/-- The steps that a feed can still take: the measure of its scanner, and a last step that
fails. -/
def budget (feed : Feed) : Nat :=
  if feed.scanner.mode = .done then 0 else feed.scanner.remaining + 1

theorem budget_of_active {scanner : Scanner} {lexemes : List Lexeme}
    (active : scanner.mode ≠ .done) : budget ⟨scanner, lexemes⟩ = scanner.remaining + 1 :=
  if_neg active

theorem budget_le (scanner : Scanner) (lexemes : List Lexeme) :
    budget ⟨scanner, lexemes⟩ ≤ scanner.remaining + 1 := by
  by_cases finished : scanner.mode = .done
  · have nothing : budget ⟨scanner, lexemes⟩ = 0 := if_pos finished
    omega
  · exact Nat.le_of_eq (budget_of_active finished)

theorem Call.steps_add_budget_le {feed last : Feed} {steps : Nat}
    {item : Option (Except Fault Lexeme)} (call : Call feed steps item last) :
    steps + last.budget ≤ feed.budget := by
  induction call with
  | ready =>
      rw [Nat.zero_add]
      exact Nat.le_refl _
  | ended finished =>
      rw [Nat.zero_add]
  | @failed scanner fault active fails =>
      have spent : (exhausted scanner).budget = 0 := if_pos rfl
      rw [spent, budget_of_active active]
      omega
  | @step scanner next lexemes steps item last active stepped later ih =>
      have lower := Scanner.remaining_step_lt active stepped
      have bounded := budget_le next lexemes
      rw [budget_of_active active]
      omega

theorem sum_steps_add_budget_le {feed : Feed} {steps : Nat → Nat}
    (course : ∀ index,
      Call (feed.after index) (steps index) (feed.handed index) (feed.after (index + 1)))
    (calls : Nat) :
    ∑ index ∈ range calls, steps index + (feed.after calls).budget ≤ feed.budget := by
  induction calls with
  | zero => exact Nat.le_of_eq (Nat.zero_add _)
  | succ calls ih =>
      have last := (course calls).steps_add_budget_le
      rw [sum_range_succ]
      omega

theorem budget_ofSource (source : Source) : (ofSource source).budget = 3 * source.size + 2 :=
  budget_of_active (by simp [Scanner.ofSource])

/-! ### What is left to hand out -/

/-- What is ready, and what the rest of the run yields, with the fault that ends it. -/
def items (feed : Feed) : List (Except Fault Lexeme) :=
  feed.ready.map .ok ++
    (feed.scanner.run.1.map .ok ++ feed.scanner.run.2.toList.map .error)

theorem next_items (feed : Feed) :
    feed.next.1 = feed.items.head? ∧ feed.next.2.items = feed.items.tail := by
  obtain ⟨steps, call⟩ := exists_call feed
  generalize feed.next.1 = item at call
  generalize feed.next.2 = last at call
  induction call with
  | ready => exact ⟨rfl, rfl⟩
  | ended finished => simp [items, Scanner.run_of_done finished]
  | @failed scanner fault active fails =>
      have ended : { scanner with mode := .done }.run = ([], none) := Scanner.run_of_done rfl
      simp [items, exhausted, Scanner.run_of_step_error active fails, ended]
  | @step scanner next lexemes steps item last active stepped later ih =>
      have same : items ⟨scanner, []⟩ = items ⟨next, lexemes⟩ := by
        simp [items, Scanner.run_of_step active stepped]
      rw [same]
      exact ih

theorem items_after (feed : Feed) (calls : Nat) :
    (feed.after calls).items = feed.items.drop calls := by
  induction calls with
  | zero => rfl
  | succ calls ih => rw [after, (next_items _).2, ih, List.tail_drop]

theorem handed_eq (feed : Feed) (index : Nat) : feed.handed index = feed.items[index]? := by
  rw [handed, (next_items _).1, items_after, List.head?_drop]

theorem length_items_of_fault {feed : Feed} {index : Nat} {fault : Fault}
    (found : feed.items[index]? = some (.error fault)) : feed.items.length = index + 1 := by
  unfold items at found ⊢
  rw [← List.append_assoc, ← List.map_append] at found ⊢
  -- before the end of the lexemes no item is a fault, and behind them there is at most one
  rcases Nat.lt_or_ge index (feed.ready ++ feed.scanner.run.1).length with early | late
  · rw [List.getElem?_append_left (by simpa using early), List.getElem?_map] at found
    obtain ⟨lexeme, -, impossible⟩ := Option.map_eq_some_iff.mp found
    contradiction
  · rw [List.getElem?_append_right (by simpa using late), List.getElem?_map] at found
    cases ending : feed.scanner.run.2 with
    | none => simp [ending] at found
    | some last =>
        obtain ⟨same, given, -⟩ := Option.map_eq_some_iff.mp found
        rw [ending, Option.toList_some] at given
        have bound := (List.getElem?_eq_some_iff.mp given).1
        rw [List.length_map, List.length_singleton] at bound
        rw [List.length_append, List.length_map, List.length_map, Option.toList_some,
          List.length_singleton]
        omega

/-- The calls of a feed hand out the lexemes of its source, each with a course of its own, then
the fault if there is one, and from then on nothing; a source of `size` characters takes no
more than `3 * size + 2` steps however often the feed is called. -/
theorem hands_out_finitely (source : Source) :
    ∃ (items : List (Except Fault Lexeme)) (steps : Nat → Nat),
      items = source.lexemes.1.map .ok ++ source.lexemes.2.toList.map .error ∧
      (∀ index count item last,
        Call ((ofSource source).after index) count item last ↔
          count = steps index ∧ item = items[index]? ∧ last = (ofSource source).after (index + 1)) ∧
      (∀ calls, ∑ index ∈ range calls, steps index ≤ 3 * source.size + 2) ∧
      (∀ index, (ofSource source).handed index = items[index]?) ∧
      (∀ index, (ofSource source).handed index = none →
        ∀ later, index ≤ later → (ofSource source).handed later = none) ∧
      (∀ index fault, (ofSource source).handed index = some (.error fault) →
        ∀ later, index < later → (ofSource source).handed later = none) := by
  choose steps course using fun index => exists_call ((ofSource source).after index)
  refine ⟨(ofSource source).items, steps, rfl, ?_, ?_, handed_eq _, ?_, ?_⟩
  · intro index count item last
    rw [← handed_eq]
    constructor
    · exact fun call => (course index).unique call
    · rintro ⟨rfl, rfl, rfl⟩
      exact course index
  · intro calls
    have spent := sum_steps_add_budget_le course calls
    rw [budget_ofSource] at spent
    omega
  · intro index nothing later since
    rw [handed_eq, List.getElem?_eq_none_iff] at nothing ⊢
    omega
  · intro index fault failed later since
    rw [handed_eq] at failed ⊢
    have length := length_items_of_fault failed
    rw [List.getElem?_eq_none_iff]
    omega

end Feed
end Stencil
