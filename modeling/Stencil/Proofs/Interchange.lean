import Stencil.Proofs.AssemblyAfter
import Stencil.Proofs.Rendering

/-! Programs that differ in one lexeme.

An assembler never looks at what it has emitted: with other instructions in front it does
the same, and faults are the same too.  So if two tokens are of one kind and stand for
instructions with the same effect, then one can take the place of the other, whatever
comes before and after it. -/

namespace Stencil

/-! ### Instructions in front -/

def Program.behind (instructions : List Instruction) (program : Program) : Program :=
  { program with instructions := instructions ++ program.instructions }

namespace Assembler

def behind (instructions : List Instruction) (assembler : Assembler) : Assembler :=
  { assembler with instructions := instructions ++ assembler.instructions }

variable (instructions : List Instruction) (assembler : Assembler)

@[simp] theorem depth_behind : (assembler.behind instructions).depth = assembler.depth := rfl

@[simp] theorem profile_behind : (assembler.behind instructions).profile = assembler.profile := rfl

@[simp] theorem previous_behind :
    (assembler.behind instructions).previous = assembler.previous := rfl

@[simp] theorem withDepth_behind (depth : List Construct) :
    (assembler.behind instructions).withDepth depth =
      (assembler.withDepth depth).behind instructions := rfl

@[simp] theorem emit_behind (emitted : List Instruction) :
    (assembler.behind instructions).emit emitted =
      (assembler.emit emitted).behind instructions := by
  simp only [behind, emit, List.append_assoc]

theorem settle_behind :
    (assembler.behind instructions).settle = assembler.settle.map (behind instructions) := by
  unfold settle
  simp only [depth_behind, profile_behind, withDepth_behind, emit_behind]
  cases assembler.depth with
  | nil => rfl
  | cons construct outer =>
      cases construct with
      | element element =>
          simp only
          cases element.sealed assembler.profile with
          | error fault => rfl
          | ok attributes => rfl
      | directive kind attributes line =>
          simp only
          cases Markup.Header.ofDirective line { kind := kind, attributes := attributes } with
          | error fault => rfl
          | ok declared => rfl
      | _ => rfl

theorem placeAttribute_behind (entry : Attribute) (line : Nat) :
    (assembler.behind instructions).placeAttribute entry line =
      (assembler.placeAttribute entry line).map (behind instructions) := by
  unfold placeAttribute
  simp only [depth_behind, withDepth_behind]
  cases assembler.depth with
  | nil => rfl
  | cons construct outer =>
      cases construct with
      | element element =>
          simp only
          split
          · rfl
          · rfl
      | directive kind attributes begun =>
          simp only
          split
          · rfl
          · rfl
      | _ => rfl

theorem placeData_behind (fragment : Fragment) (line : Nat) :
    (assembler.behind instructions).placeData fragment line =
      (assembler.placeData fragment line).map (behind instructions) := by
  unfold placeData
  simp only [depth_behind, withDepth_behind, settle_behind]
  cases assembler.depth with
  | nil => rfl
  | cons construct outer => cases construct <;> rfl

theorem placeIndent_behind (line : Nat) :
    (assembler.behind instructions).placeIndent line =
      (assembler.placeIndent line).map (behind instructions) := by
  unfold placeIndent
  simp only [depth_behind, profile_behind, previous_behind, withDepth_behind, emit_behind]
  cases assembler.depth with
  | nil => rfl
  | cons construct outer =>
      cases construct with
      | element element =>
          simp only
          split
          · rfl
          · cases element.sealed assembler.profile with
            | error fault => rfl
            | ok attributes => rfl
      | _ => rfl

theorem placeBlank_behind :
    (assembler.behind instructions).placeBlank = assembler.placeBlank.behind instructions := by
  unfold placeBlank
  simp only [depth_behind, previous_behind, withDepth_behind, emit_behind]
  split
  · rfl
  · rfl

theorem place_behind (lexeme : Lexeme) :
    (assembler.behind instructions).place lexeme =
      (assembler.place lexeme).map (behind instructions) := by
  obtain ⟨token, line⟩ := lexeme
  cases token with
  | literalAttribute name text => exact placeAttribute_behind instructions assembler _ line
  | codeAttribute name code => exact placeAttribute_behind instructions assembler _ line
  | selfClose =>
      simp only [place, placeSelfClose, depth_behind, withDepth_behind]
      split
      · rfl
      · rfl
  | data text => exact placeData_behind instructions assembler _ line
  | codeData code escape => exact placeData_behind instructions assembler _ line
  | comment lines =>
      simp only [place, placeComment, depth_behind, withDepth_behind]
      split
      · rfl
      · rfl
  | filter name lines =>
      simp only [place, placeFilter, emit_behind]
      split
      · rfl
      · rfl
  | indent => exact placeIndent_behind instructions assembler line
  | dedent =>
      simp only [place, placeDedent, depth_behind, withDepth_behind, emit_behind]
      split
      · rfl
      · rfl
  | blankLine => exact congrArg Except.ok (placeBlank_behind instructions assembler)
  | element tag => rfl
  | directive kind => rfl
  | content text => exact congrArg Except.ok (emit_behind instructions assembler _)
  | codeContent code escape => exact congrArg Except.ok (emit_behind instructions assembler _)
  | rawCode code => exact congrArg Except.ok (emit_behind instructions assembler _)

theorem push_behind (lexeme : Lexeme) :
    (assembler.behind instructions).push lexeme =
      (assembler.push lexeme).map (behind instructions) := by
  have sameAllow : (assembler.behind instructions).allow lexeme = assembler.allow lexeme := rfl
  have sameSettles : (assembler.behind instructions).settlesFor lexeme.token =
      assembler.settlesFor lexeme.token := rfl
  have prepares : (assembler.behind instructions).prepare lexeme =
      (assembler.prepare lexeme).map (behind instructions) := by
    unfold prepare
    rw [sameAllow, sameSettles, settle_behind]
    cases assembler.allow lexeme with
    | error fault => rfl
    | ok allowed =>
        simp only
        split
        · rfl
        · rfl
  unfold push
  rw [prepares]
  cases assembler.prepare lexeme with
  | error fault => rfl
  | ok prepared =>
      simp only [Except.map, place_behind]
      cases prepared.place lexeme with
      | error fault => rfl
      | ok placed => rfl

theorem pushAll_behind (items : List (Except Fault Lexeme)) :
    (assembler.behind instructions).pushAll items =
      (assembler.pushAll items).map (behind instructions) := by
  induction items generalizing assembler with
  | nil => rfl
  | cons item others ih =>
      cases item with
      | error fault => rfl
      | ok lexeme =>
          simp only [pushAll, push_behind]
          cases assembler.push lexeme with
          | error fault => rfl
          | ok next => exact ih next

theorem withoutBlank_behind :
    (assembler.behind instructions).withoutBlank = assembler.withoutBlank.behind instructions := by
  unfold withoutBlank
  simp only [depth_behind, withDepth_behind]
  cases assembler.depth with
  | nil => rfl
  | cons construct outer => cases construct <;> rfl

theorem finish_behind :
    (assembler.behind instructions).finish =
      assembler.finish.map (Program.behind instructions) := by
  rw [finish_eq, finish_eq, withoutBlank_behind, settle_behind]
  cases assembler.withoutBlank.settle with
  | error fault => rfl
  | ok settled => simp only [Except.map, ended, behind, Program.behind, List.append_assoc]

end Assembler

/-! ### One lexeme in place of another -/

/-- Two instructions that differ only in the fragment they write. -/
inductive Interchanged (first second : Fragment) : Instruction → Instruction → Prop
  | element (tag : Text) (attributes : List Attribute) :
      Interchanged first second (.element tag attributes (some first))
        (.element tag attributes (some second))
  | content : Interchanged first second (.content first) (.content second)

/-- A token for literal text and the token for escaped code in its place. -/
inductive Counterparts (text code : Text) : Token → Token → Prop
  | data : Counterparts text code (.data text) (.codeData code true)
  | content : Counterparts text code (.content text) (.codeContent code true)

variable {text code : Text} {literal escaped : Token}

namespace Assembler

variable (assembler : Assembler) (line : Nat)

variable {assembler} in
theorem placeData_of_element (fragment : Fragment) {element : PendingElement}
    {outer : List Construct} (top : assembler.depth = .element element :: outer) :
    assembler.placeData fragment line =
      (element.sealed assembler.profile).map fun attributes =>
        (assembler.withDepth outer).emit [.element element.tag attributes (some fragment)] := by
  have sealed : ({ element with data := some fragment } : PendingElement).sealed
      assembler.profile = element.sealed assembler.profile := rfl
  simp only [placeData, top, settle, depth_withDepth, profile_withDepth, sealed]
  cases element.sealed assembler.profile with
  | error fault => rfl
  | ok attributes => rfl

variable {assembler} in
theorem placeData_of_ne (fragment : Fragment)
    (other : ∀ element outer, assembler.depth ≠ .element element :: outer) :
    assembler.placeData fragment line = .error (.parse line .dataOutsideElement) := by
  unfold placeData
  split
  · rename_i element outer top
    exact absurd top (other element outer)
  · rfl

def recorded (kind : Token.Kind) (assembler : Assembler) : Assembler :=
  { assembler with begun := true, previous := some kind }

theorem push_eq_bind {lexeme : Lexeme} (visible : lexeme.token.isStructural = false) :
    assembler.push lexeme = (assembler.prepare lexeme).bind fun prepared =>
      (prepared.place lexeme).map (recorded lexeme.token.kind) := by
  unfold push
  cases assembler.prepare lexeme with
  | error fault => rfl
  | ok prepared =>
      simp only [Except.bind]
      cases prepared.place lexeme with
      | error fault => rfl
      | ok placed => simp [Except.map, recorded, visible]

/-- Both tokens are refused with one fault, or both are taken, and what is emitted last is
all in which the assemblers differ then. -/
theorem push_counterparts (counterparts : Counterparts text code literal escaped) :
    (∃ fault, assembler.push ⟨literal, line⟩ = .error fault ∧
        assembler.push ⟨escaped, line⟩ = .error fault) ∨
      ∃ (next : Assembler) (first second : Instruction),
        Interchanged (.text (next.profile.escapeText text)) (.code code true) first second ∧
        assembler.push ⟨literal, line⟩ = .ok (next.emit [first]) ∧
        assembler.push ⟨escaped, line⟩ = .ok (next.emit [second]) := by
  cases counterparts with
  | data =>
      have literalData : assembler.push ⟨.data text, line⟩ =
          (assembler.placeData (.text (assembler.profile.escapeText text)) line).map
            (recorded .data) := push_eq_bind assembler rfl
      have codeData : assembler.push ⟨.codeData code true, line⟩ =
          (assembler.placeData (.code code true) line).map (recorded .data) :=
        push_eq_bind assembler rfl
      rw [literalData, codeData]
      by_cases inside : ∃ element outer, assembler.depth = .element element :: outer
      · obtain ⟨element, outer, top⟩ := inside
        rw [placeData_of_element line _ top, placeData_of_element line _ top]
        cases element.sealed assembler.profile with
        | error fault => exact .inl ⟨fault, rfl, rfl⟩
        | ok attributes =>
            exact .inr ⟨(assembler.withDepth outer).recorded .data, _, _,
              .element element.tag attributes, rfl, rfl⟩
      · have other : ∀ element outer, assembler.depth ≠ .element element :: outer :=
          fun element outer top => inside ⟨element, outer, top⟩
        rw [placeData_of_ne line _ other, placeData_of_ne line _ other]
        exact .inl ⟨_, rfl, rfl⟩
  | content =>
      have literalContent : assembler.push ⟨.content text, line⟩ =
          assembler.settle.bind fun settled =>
            .ok ((settled.recorded .content).emit
              [.content (.text (settled.profile.escapeText text))]) :=
        push_eq_bind assembler rfl
      have codeContent : assembler.push ⟨.codeContent code true, line⟩ =
          assembler.settle.bind fun settled =>
            .ok ((settled.recorded .content).emit [.content (.code code true)]) :=
        push_eq_bind assembler rfl
      rw [literalContent, codeContent]
      cases assembler.settle with
      | error fault => exact .inl ⟨fault, rfl, rfl⟩
      | ok settled => exact .inr ⟨settled.recorded .content, _, _, .content, rfl, rfl⟩

end Assembler

namespace Program

open Markup (Profile)

/-- With one token or the other, whatever comes before and after, there is the same fault or
there are programs that differ in one instruction. -/
theorem ofItems_counterparts (counterparts : Counterparts text code literal escaped)
    (front rest : List (Except Fault Lexeme)) (line : Nat) :
    (∃ fault, ofItems (front ++ .ok ⟨literal, line⟩ :: rest) = .error fault ∧
        ofItems (front ++ .ok ⟨escaped, line⟩ :: rest) = .error fault) ∨
      ∃ (program : Program) (before : List Instruction) (first second : Instruction),
        Interchanged (.text (Profile.xml.escapeText text)) (.code code true) first second ∧
        program.profile = Profile.xml ∧
        ofItems (front ++ .ok ⟨literal, line⟩ :: rest) = .ok (program.behind (before ++ [first])) ∧
        ofItems (front ++ .ok ⟨escaped, line⟩ :: rest) =
          .ok (program.behind (before ++ [second])) := by
  unfold ofItems
  rw [Assembler.pushAll_append, Assembler.pushAll_append]
  cases pushedFront : Assembler.start.pushAll front with
  | error fault => exact .inl ⟨fault, rfl, rfl⟩
  | ok middle =>
      simp only [Except.bind, Assembler.pushAll]
      rcases middle.push_counterparts line counterparts with
        ⟨fault, refusedFirst, refusedSecond⟩ |
        ⟨next, first, second, interchanged, pushedFirst, pushedSecond⟩
      · rw [refusedFirst, refusedSecond]
        exact .inl ⟨fault, rfl, rfl⟩
      · have profile : next.profile = Profile.xml := by
          have isXml := Assembler.profile_pushAll pushedFront
          have taken := Assembler.kept_profile.push trivial isXml pushedFirst
          exact taken
        -- From here on both do what an assembler does that has emitted nothing yet.
        have emptied (last : Instruction) : next.emit [last] =
            ({ next with instructions := [] } : Assembler).behind
              (next.instructions ++ [last]) := by
          simp [Assembler.emit, Assembler.behind]
        rw [pushedFirst, pushedSecond, emptied, emptied]
        simp only [Assembler.pushAll_behind]
        cases pushedRest : ({ next with instructions := [] } : Assembler).pushAll rest with
        | error fault => exact .inl ⟨fault, rfl, rfl⟩
        | ok last =>
            simp only [Except.map, Assembler.finish_behind]
            cases finished : last.finish with
            | error fault => exact .inl ⟨fault, rfl, rfl⟩
            | ok program =>
                rw [profile] at interchanged
                refine .inr ⟨program, next.instructions, first, second, interchanged, ?_, rfl, rfl⟩
                have emptiedProfile : ({ next with instructions := [] } : Assembler).profile =
                    Profile.xml := profile
                have lastProfile := Assembler.kept_profile.pushAll (fun _ _ => trivial)
                  emptiedProfile pushedRest
                obtain ⟨settled, isXml, rfl⟩ := Assembler.kept_profile.finish lastProfile finished
                exact isXml

end Program

/-! ### Rendering -/

namespace Template

variable {template other : Template}

theorem execute_congr (sameEvaluator : template.evaluator = other.evaluator)
    (sameProfile : template.program.profile = other.program.profile) (parameters : Parameters)
    (instruction : Instruction) (output : Output) :
    template.execute parameters instruction output =
      other.execute parameters instruction output := by
  have fragments (fragment : Fragment) : template.renderFragment parameters fragment =
      other.renderFragment parameters fragment := by
    simp only [renderFragment, sameEvaluator, sameProfile]
  have bodies (body : Option Fragment) : template.renderBody parameters body =
      other.renderBody parameters body := by
    cases body with
    | none => rfl
    | some fragment => simp only [renderBody, fragments]
  have attributeLists (attributes : List Attribute) :
      template.renderAttributes parameters attributes =
        other.renderAttributes parameters attributes := by
    induction attributes with
    | nil => rfl
    | cons entry others ih => simp only [renderAttributes, renderValue, sameEvaluator, ih]
  cases instruction <;> simp only [execute, fragments, bodies, attributeLists, sameEvaluator]

theorem executeAll_congr (sameEvaluator : template.evaluator = other.evaluator)
    (sameProfile : template.program.profile = other.program.profile) (parameters : Parameters)
    (instructions : List Instruction) (output : Output) :
    template.executeAll parameters instructions output =
      other.executeAll parameters instructions output := by
  induction instructions generalizing output with
  | nil => rfl
  | cons instruction others ih =>
      simp only [executeAll, execute_congr sameEvaluator sameProfile, ih]

/-- An instruction can take the place of another that does the same. -/
theorem executeAll_interchanged {one two : Instruction} {parameters : Parameters}
    (same : ∀ output, template.execute parameters one output =
      template.execute parameters two output)
    (before after : List Instruction) (output : Output) :
    template.executeAll parameters (before ++ one :: after) output =
      template.executeAll parameters (before ++ two :: after) output := by
  induction before generalizing output with
  | nil => simp only [List.nil_append, executeAll, same]
  | cons instruction others ih => simp only [List.cons_append, executeAll, ih]

theorem execute_interchanged {first second : Fragment} {one two : Instruction}
    {parameters : Parameters} (interchanged : Interchanged first second one two)
    (alike : template.renderFragment parameters first =
      template.renderFragment parameters second) (output : Output) :
    template.execute parameters one output = template.execute parameters two output := by
  cases interchanged with
  | element tag attributes => simp only [execute, renderBody, alike]
  | content => simp only [execute, alike]

theorem renderFragment_text {parameters : Parameters}
    (evaluates : template.evaluator.evaluate code parameters = .ok (.string text)) :
    template.renderFragment parameters (.text (template.program.profile.escapeText text)) =
      template.renderFragment parameters (.code code true) := by
  simp only [renderFragment, evaluates, Value.toText, if_true]

theorem render_interchanged {program : Program} {before : List Instruction}
    {first second : Instruction} {evaluator : Evaluator} {parameters : Parameters} (layout : Layout)
    (interchanged : Interchanged (.text (program.profile.escapeText text)) (.code code true)
      first second)
    (evaluates : evaluator.evaluate code parameters = .ok (.string text)) :
    render ⟨program.behind (before ++ [first]), evaluator, layout⟩ parameters =
      render ⟨program.behind (before ++ [second]), evaluator, layout⟩ parameters := by
  have alike := @renderFragment_text text code
    ⟨program.behind (before ++ [second]), evaluator, layout⟩ parameters evaluates
  have sameOpening : opening ⟨program.behind (before ++ [first]), evaluator, layout⟩ =
      opening ⟨program.behind (before ++ [second]), evaluator, layout⟩ := rfl
  have split (last : Instruction) : (program.behind (before ++ [last])).instructions =
      before ++ last :: program.instructions := by
    simp [Program.behind]
  have sameTemplate := @executeAll_congr ⟨program.behind (before ++ [first]), evaluator, layout⟩
    ⟨program.behind (before ++ [second]), evaluator, layout⟩ rfl rfl parameters
  unfold render run
  rw [sameOpening, sameTemplate, split, split,
    executeAll_interchanged (execute_interchanged interchanged alike)]

end Template

end Stencil
