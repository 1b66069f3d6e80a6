import Stencil.Template

/-! The faults of rendering.

A program has its codes in the order in which a render comes to them: those of the
instructions one after the other, and in an element those of the attributes before
that of the data.  Each part of a render stops at the first of its own codes that
fails and gives that fault on as it is, so a render fails with the first code of the
program that fails, and for no other reason. -/

namespace Stencil

/-! ### The codes of a program -/

def Fragment.codes : Fragment → List Text
  | .text _ => []
  | .code source _ => [source]

def AttributeValue.codes : AttributeValue → List Text
  | .literal _ => []
  | .code source => [source]

def Attribute.codes (attributes : List Attribute) : List Text :=
  attributes.flatMap fun entry => entry.value.codes

/-- The codes of an instruction in the order in which they are run. -/
def Instruction.codes : Instruction → List Text
  | .element _ attributes body =>
      Attribute.codes attributes ++ body.toList.flatMap Fragment.codes
  | .openElement _ attributes => Attribute.codes attributes
  | .content fragment => fragment.codes
  | .rawCode code => [code]
  | .closeElement _ | .comment _ | .blank => []

def Program.codes (program : Program) : List Text :=
  program.instructions.flatMap Instruction.codes

/-! ### First failures -/

def faultOf {α : Type} : Except Fault α → Option Fault
  | .error fault => some fault
  | .ok _ => none

theorem faultOf_eq_some_iff {α : Type} {result : Except Fault α} {fault : Fault} :
    faultOf result = some fault ↔ result = .error fault := by
  cases result with
  | error other => simp [faultOf]
  | ok value => simp [faultOf]

theorem faultOf_eq_none_iff {α : Type} {result : Except Fault α} :
    faultOf result = none ↔ ∃ value, result = .ok value := by
  cases result with
  | error fault => simp [faultOf]
  | ok value => simp [faultOf]

@[simp] theorem faultOf_map {α β : Type} (function : α → β) (result : Except Fault α) :
    faultOf (result.map function) = faultOf result := by
  cases result with
  | error fault => rfl
  | ok value => rfl

section Failures

variable (evaluate : Text → Parameters → Except Fault Value) (parameters : Parameters)

def firstFailure (codes : List Text) : Option Fault :=
  codes.findSome? fun code => faultOf (evaluate code parameters)

@[simp] theorem firstFailure_nil : firstFailure evaluate parameters [] = none := rfl

@[simp] theorem firstFailure_singleton (code : Text) :
    firstFailure evaluate parameters [code] = faultOf (evaluate code parameters) := by
  simp [firstFailure]

@[simp] theorem firstFailure_append (first second : List Text) :
    firstFailure evaluate parameters (first ++ second) =
      (firstFailure evaluate parameters first).or (firstFailure evaluate parameters second) := by
  simp [firstFailure, List.findSome?_append]

/-- `fault` is what `evaluate` gives for one of the codes, and all codes in front of it
have values. -/
def FailsFirst (codes : List Text) (fault : Fault) : Prop :=
  ∃ before code after, codes = before ++ code :: after ∧
    (∀ earlier ∈ before, ∃ value, evaluate earlier parameters = .ok value) ∧
    evaluate code parameters = .error fault

theorem firstFailure_eq_some_iff {codes : List Text} {fault : Fault} :
    firstFailure evaluate parameters codes = some fault ↔
      FailsFirst evaluate parameters codes fault := by
  rw [firstFailure, List.findSome?_eq_some_iff]
  constructor
  · rintro ⟨before, code, after, split, failed, succeeded⟩
    refine ⟨before, code, after, split, ?_, faultOf_eq_some_iff.mp failed⟩
    intro earlier member
    exact faultOf_eq_none_iff.mp (succeeded earlier member)
  · rintro ⟨before, code, after, split, succeeded, failed⟩
    refine ⟨before, code, after, split, faultOf_eq_some_iff.mpr failed, ?_⟩
    intro earlier member
    exact faultOf_eq_none_iff.mpr (succeeded earlier member)

theorem firstFailure_isSome_iff {codes : List Text} :
    (firstFailure evaluate parameters codes).isSome ↔
      ∃ code ∈ codes, ∃ fault, evaluate code parameters = .error fault := by
  simp only [firstFailure, List.isSome_findSome?, List.any_eq_true, Option.isSome_iff_exists,
    faultOf_eq_some_iff]

variable {evaluate parameters}

theorem firstFailure_congr {other : Text → Parameters → Except Fault Value} {codes : List Text}
    (agree : ∀ code ∈ codes, other code parameters = evaluate code parameters) :
    firstFailure other parameters codes = firstFailure evaluate parameters codes := by
  induction codes with
  | nil => rfl
  | cons code rest ih =>
      have later := ih fun next member => agree next (List.mem_cons_of_mem _ member)
      rw [← List.singleton_append, firstFailure_append, firstFailure_append,
        firstFailure_singleton, firstFailure_singleton, agree code List.mem_cons_self, later]

end Failures

/-! ### What rendering reports -/

namespace Template

variable {evaluate : Text → Parameters → Except Fault Value} {template : Template}
  (evaluator : template.evaluator = Evaluator.ofEvaluate evaluate) (parameters : Parameters)

include evaluator

omit parameters in
theorem evaluate_eq_of_default : template.evaluator.evaluate = evaluate := by
  rw [evaluator]
  rfl

theorem faultOf_renderFragment (fragment : Fragment) :
    faultOf (template.renderFragment parameters fragment) =
      firstFailure evaluate parameters fragment.codes := by
  cases fragment with
  | text text => rfl
  | code code escape =>
      rw [Fragment.codes, firstFailure_singleton, renderFragment,
        evaluate_eq_of_default evaluator]
      cases evaluate code parameters with
      | error fault => rfl
      | ok value => rfl

theorem faultOf_renderBody (body : Option Fragment) :
    faultOf (template.renderBody parameters body) =
      firstFailure evaluate parameters (body.toList.flatMap Fragment.codes) := by
  cases body with
  | none => rfl
  | some fragment =>
      rw [renderBody, faultOf_map, faultOf_renderFragment evaluator]
      simp

theorem faultOf_renderValue (entry : Attribute) :
    faultOf (template.renderValue parameters entry) =
      firstFailure evaluate parameters entry.value.codes := by
  rw [renderValue, evaluate_eq_of_default evaluator]
  cases entry.value with
  | literal text => rfl
  | code code =>
      simp only [AttributeValue.codes, firstFailure_singleton]
      cases evaluate code parameters with
      | error fault => rfl
      | ok value =>
          -- Null and false leave the attribute out, true stands for its name.
          cases value with
          | bool truth => cases truth <;> rfl
          | _ => rfl

theorem faultOf_renderAttributes (attributes : List Attribute) :
    faultOf (template.renderAttributes parameters attributes) =
      firstFailure evaluate parameters (Attribute.codes attributes) := by
  induction attributes with
  | nil => rfl
  | cons entry others ih =>
      rw [Attribute.codes, List.flatMap_cons, firstFailure_append, ← Attribute.codes, ← ih,
        ← faultOf_renderValue evaluator, renderAttributes]
      cases template.renderValue parameters entry with
      | error fault => rfl
      | ok value =>
          cases template.renderAttributes parameters others with
          | error fault => rfl
          | ok rest => rfl

/-- An instruction fails with the first of its codes that fails, whatever has been
written before it. -/
theorem faultOf_execute (instruction : Instruction) (output : Output) :
    faultOf (template.execute parameters instruction output) =
      firstFailure evaluate parameters instruction.codes := by
  cases instruction with
  | element tag attributes body =>
      rw [Instruction.codes, firstFailure_append, ← faultOf_renderAttributes evaluator,
        ← faultOf_renderBody evaluator, execute]
      cases template.renderAttributes parameters attributes with
      | error fault => rfl
      | ok written =>
          cases template.renderBody parameters body with
          | error fault => rfl
          | ok data => rfl
  | openElement tag attributes =>
      rw [Instruction.codes, ← faultOf_renderAttributes evaluator, execute]
      cases template.renderAttributes parameters attributes with
      | error fault => rfl
      | ok written => rfl
  | content fragment =>
      rw [Instruction.codes, ← faultOf_renderFragment evaluator, execute]
      cases template.renderFragment parameters fragment with
      | error fault => rfl
      | ok text => rfl
  | rawCode code =>
      simp only [Instruction.codes, firstFailure_singleton, execute, evaluator,
        Evaluator.ofEvaluate, Evaluator.writeValue]
      cases evaluate code parameters with
      | error fault => rfl
      | ok value => rfl
  | closeElement tag => rfl
  | comment lines => rfl
  | blank => rfl

theorem faultOf_executeAll (instructions : List Instruction) (output : Output) :
    faultOf (template.executeAll parameters instructions output) =
      firstFailure evaluate parameters (instructions.flatMap Instruction.codes) := by
  induction instructions generalizing output with
  | nil => rfl
  | cons instruction others ih =>
      rw [List.flatMap_cons, firstFailure_append, ← faultOf_execute evaluator _ _ output,
        executeAll]
      cases template.execute parameters instruction output with
      | error fault => rfl
      | ok written => exact ih written

theorem faultOf_render :
    faultOf (template.render parameters) =
      firstFailure evaluate parameters template.program.codes := by
  rw [render, faultOf_map, run, faultOf_executeAll evaluator, Program.codes]

omit evaluator

/-- A render fails if and only if one of the codes of its program fails, it then gives
the fault of the first one that does, and evaluators that agree up to a code that
fails lead to the same fault. -/
theorem render_reports_first_failure (program : Program) (layout : Layout)
    (evaluate : Text → Parameters → Except Fault Value) (parameters : Parameters) :
    ((∃ fault, render ⟨program, .ofEvaluate evaluate, layout⟩ parameters = .error fault) ↔
        ∃ code ∈ program.codes, ∃ fault, evaluate code parameters = .error fault) ∧
      (∀ fault, render ⟨program, .ofEvaluate evaluate, layout⟩ parameters = .error fault ↔
        FailsFirst evaluate parameters program.codes fault) ∧
      ∀ (other : Text → Parameters → Except Fault Value) (before after : List Text)
        (code : Text) (failure : Fault), program.codes = before ++ code :: after →
        (∀ earlier ∈ before ++ [code], other earlier parameters = evaluate earlier parameters) →
        evaluate code parameters = .error failure →
        ∃ fault, render ⟨program, .ofEvaluate evaluate, layout⟩ parameters = .error fault ∧
          render ⟨program, .ofEvaluate other, layout⟩ parameters = .error fault := by
  have reported : ∀ chosen : Text → Parameters → Except Fault Value,
      faultOf (render ⟨program, .ofEvaluate chosen, layout⟩ parameters) =
        firstFailure chosen parameters program.codes :=
    fun _ => faultOf_render rfl parameters
  refine ⟨?_, ?_, ?_⟩
  · rw [← firstFailure_isSome_iff, ← reported, Option.isSome_iff_exists]
    simp only [faultOf_eq_some_iff]
  · intro fault
    rw [← firstFailure_eq_some_iff, ← reported, faultOf_eq_some_iff]
  · intro other before after code failure split agree failed
    -- The codes up to the failing one already hold the first failure.
    have decided : (firstFailure evaluate parameters (before ++ [code])).isSome :=
      (firstFailure_isSome_iff evaluate parameters).mpr ⟨code, by simp, failure, failed⟩
    obtain ⟨fault, first⟩ := Option.isSome_iff_exists.mp decided
    have codes : program.codes = (before ++ [code]) ++ after := by rw [split]; simp
    refine ⟨fault, faultOf_eq_some_iff.mp ?_, faultOf_eq_some_iff.mp ?_⟩
    · rw [reported, codes, firstFailure_append, first, Option.some_or]
    · rw [reported, codes, firstFailure_append, firstFailure_congr agree, first, Option.some_or]

/-- The attribute is left out, the data fails, and what the last line does is not seen. -/
theorem render_reports_first_failure_data :
    ∃ fault,
      render ⟨⟨none, .standard,
          [.element ['p'] [⟨['k'], .code ['a']⟩] (some (.code ['b'] true)), .rawCode ['c']]⟩,
        .ofEvaluate fun code _ =>
          if code = ['a'] then .ok .null else .error (.evaluation code .undefined),
        {}⟩ [] = .error fault ∧
      render ⟨⟨none, .standard,
          [.element ['p'] [⟨['k'], .code ['a']⟩] (some (.code ['b'] true)), .rawCode ['c']]⟩,
        .ofEvaluate fun code _ =>
          if code = ['a'] then .ok .null
          else if code = ['b'] then .error (.evaluation code .undefined)
          else .ok (.string ['d']),
        {}⟩ [] = .error fault := by
  refine (render_reports_first_failure _ {} _ []).2.2 _ [['a']] [['c']] ['b']
    (.evaluation ['b'] .undefined) rfl ?_ rfl
  intro earlier member
  simp only [List.cons_append, List.nil_append, List.mem_cons, List.not_mem_nil,
    or_false] at member
  rcases member with rfl | rfl
  · rfl
  · rfl

end Template

end Stencil
