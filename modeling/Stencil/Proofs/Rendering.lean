import Stencil.Proofs.Escaping
import Stencil.Proofs.Guarded
import Stencil.Template

/-! Rendering guarded instructions.

Literal attributes are written without running any code, so they are the same in
every render.  The text of a guarded fragment is escaped text, whatever the
evaluator gives. -/

namespace Stencil

def AttributeValue.written : AttributeValue → Text
  | .literal text => text
  | .code _ => []

def Attribute.written (attributes : List Attribute) : Text :=
  attributes.flatMap fun entry => Markup.Header.assignment entry.name entry.value.written

namespace Template

variable {template : Template} {parameters : Parameters} {Named : Text → Prop}

theorem renderAttributes_of_isLiteral {attributes : List Attribute}
    (literals : ∀ entry ∈ attributes, PendingElement.IsLiteral entry) :
    template.renderAttributes parameters attributes = .ok (Attribute.written attributes) := by
  induction attributes with
  | nil => rfl
  | cons entry others ih =>
      obtain ⟨text, literal⟩ := literals entry (by simp)
      have rest := ih (fun other member => literals other (by simp [member]))
      simp [renderAttributes, renderValue, literal, rest, Attribute.written,
        AttributeValue.written]

theorem renderAttributes_of_guarded {attributes : List Attribute}
    (guarded : Attribute.Guarded Named attributes) :
    template.renderAttributes parameters attributes = .ok (Attribute.written attributes) := by
  refine renderAttributes_of_isLiteral ?_
  intro entry member
  obtain ⟨-, original, literal⟩ := guarded.2 entry member
  exact ⟨_, literal⟩

theorem escaped_renderFragment {fragment : Fragment} {text : Text}
    (profile : template.program.profile = Markup.Profile.xml) (guarded : fragment.Guarded)
    (rendered : template.renderFragment parameters fragment = .ok text) :
    ∃ original, text = Markup.escapeText original := by
  cases fragment with
  | text literal =>
      cases rendered
      exact guarded
  | code code escape =>
      simp only [renderFragment] at rendered
      split at rendered
      · contradiction
      · rename_i value _
        -- Here, and only here, the value of an evaluator enters the text.
        have escapes : escape = true := guarded
        cases rendered
        rw [if_pos escapes, profile]
        exact ⟨value.toText, rfl⟩

theorem escaped_renderBody {body : Option Fragment} {data : Option Text}
    (profile : template.program.profile = Markup.Profile.xml)
    (guarded : ∀ fragment ∈ body, fragment.Guarded)
    (rendered : template.renderBody parameters body = .ok data) :
    (body = none ∧ data = none) ∨
      (body.isSome ∧ ∃ original, data = some (Markup.escapeText original)) := by
  cases body with
  | none =>
      cases rendered
      exact .inl ⟨rfl, rfl⟩
  | some fragment =>
      simp only [renderBody] at rendered
      cases fragmentRendered : template.renderFragment parameters fragment with
      | error fault =>
          rw [fragmentRendered] at rendered
          contradiction
      | ok text =>
          rw [fragmentRendered] at rendered
          cases rendered
          obtain ⟨original, rfl⟩ :=
            escaped_renderFragment profile (guarded fragment rfl) fragmentRendered
          exact .inr ⟨rfl, original, rfl⟩

/-- The ways in which a guarded instruction writes. -/
inductive Wrote (output : Output) : Instruction → Output → Prop
  | empty {tag : Text} {attributes : List Attribute} :
      Wrote output (.element tag attributes none)
        (output.emit (elementLine tag (Attribute.written attributes) none))
  | inline {tag : Text} {attributes : List Attribute} {fragment : Fragment} (original : Text) :
      Wrote output (.element tag attributes (some fragment))
        (output.emit (elementLine tag (Attribute.written attributes)
          (some (Markup.escapeText original))))
  | opened {tag : Text} {attributes : List Attribute} :
      Wrote output (.openElement tag attributes)
        (output.emit ('<' :: tag ++ Attribute.written attributes ++ ['>'])).indent
  | closed {tag : Text} :
      Wrote output (.closeElement tag) (output.dedent.emit ("</".toList ++ tag ++ ['>']))
  | content {fragment : Fragment} (original : Text) :
      Wrote output (.content fragment) (output.emit (Markup.escapeText original))
  | comment {lines : List Text} : Wrote output (.comment lines) (writeComment lines output)
  | blank : Wrote output .blank output.blank

theorem wrote_of_execute {instruction : Instruction} {output written : Output}
    (profile : template.program.profile = Markup.Profile.xml)
    (guarded : instruction.Guarded Named)
    (executed : template.execute parameters instruction output = .ok written) :
    Wrote output instruction written := by
  cases instruction with
  | element tag attributes body =>
      simp only [execute, renderAttributes_of_guarded guarded.2.1] at executed
      split at executed
      · contradiction
      · rename_i data bodyRendered
        cases executed
        rcases escaped_renderBody profile guarded.2.2 bodyRendered with
          ⟨rfl, rfl⟩ | ⟨given, original, rfl⟩
        · exact .empty
        · obtain ⟨fragment, rfl⟩ := Option.isSome_iff_exists.mp given
          exact .inline original
  | openElement tag attributes =>
      simp only [execute, renderAttributes_of_guarded guarded.2] at executed
      cases executed
      exact .opened
  | closeElement tag =>
      cases executed
      exact .closed
  | content fragment =>
      simp only [execute] at executed
      split at executed
      · contradiction
      · rename_i text fragmentRendered
        cases executed
        obtain ⟨original, rfl⟩ := escaped_renderFragment profile guarded fragmentRendered
        exact .content original
  | comment lines =>
      cases executed
      exact .comment
  | blank =>
      cases executed
      exact .blank
  | rawCode code => exact False.elim guarded

theorem executeAll_cons {instruction : Instruction} {others : List Instruction}
    {output last : Output}
    (executed : template.executeAll parameters (instruction :: others) output = .ok last) :
    ∃ written, template.execute parameters instruction output = .ok written ∧
      template.executeAll parameters others written = .ok last := by
  simp only [executeAll] at executed
  split at executed
  · contradiction
  · rename_i written first
    exact ⟨written, first, executed⟩

theorem executeAll_of_render {text : Text}
    (rendered : template.render parameters = .ok text) :
    ∃ output, template.executeAll parameters template.program.instructions template.opening =
      .ok output ∧ text = output.text := by
  unfold render run at rendered
  cases ran : template.executeAll parameters template.program.instructions template.opening with
  | error fault =>
      rw [ran] at rendered
      contradiction
  | ok output =>
      rw [ran] at rendered
      cases rendered
      exact ⟨output, rfl, rfl⟩

end Template

end Stencil
