import Stencil.Proofs.Stacking
import Stencil.Template

/-! No token of a template stands where the assembler cannot take it.

A scanner only yields tokens that both walks of the assembler's stack pass.  So a
template that does not compile fails while its text is loaded, in the indentation of a
line, in a construct, or in an assembly, but never over a misplaced token. -/

namespace Stencil

/-! ### Compiling -/

namespace Scanner

/-- What a run yields passes both walks. -/
theorem pushAll_run_safe (source : Source) :
    Safe (Assembler.start.pushAll ((ofSource source).run.1.map .ok)) fun pushed =>
      ∃ count top, Assembler.Stacked count top pushed.depth := by
  obtain ⟨last, reaches, -⟩ := reaches_run (ofSource source)
  have tracked := reaches.kept Tracked.step (tracked_ofSource source)
  obtain ⟨top, moves⟩ := (isTemplate_run source).takeable .other
  have start : Assembler.Stacked 0 .other Assembler.start.depth :=
    .blocks ⟨rfl, by simp [Assembler.start]⟩
  exact (start.pushAll moves tracked.depth).mono fun _ held => ⟨_, _, held⟩

/-- A run fails in the indentation of a line or in a construct. -/
theorem origin_of_run {source : Source} {fault : Fault}
    (failed : (ofSource source).run.2 = some fault) :
    fault.origin = some .levels ∨ fault.origin = some .reading := by
  obtain ⟨last, reaches, -, fails⟩ := reaches_run (ofSource source)
  have tracked := reaches.kept Tracked.step (tracked_ofSource source)
  rcases step_error_cases (fails fault failed) with ⟨-, entering⟩ | origin
  · obtain ⟨rfl, -⟩ := (enterLevel_eq_error_iff tracked.increasing).mp entering
    exact .inl rfl
  · exact .inr origin

end Scanner

namespace Program

theorem origin_of_ofSource {source : Source} {fault : Fault}
    (failed : ofSource source = .error fault) :
    fault.origin = some .levels ∨ fault.origin = some .reading ∨
      fault.origin = some .assembly := by
  have pushing := Scanner.pushAll_run_safe source
  unfold ofSource ofItems Source.items Source.lexemes at failed
  rw [Assembler.pushAll_append] at failed
  cases pushed : Assembler.start.pushAll ((Scanner.ofSource source).run.1.map .ok) with
  | error found =>
      rw [pushed] at failed pushing
      cases failed
      exact .inr (.inr pushing)
  | ok assembler =>
      rw [pushed] at failed pushing
      obtain ⟨count, top, stacked⟩ := pushing
      cases broken : (Scanner.ofSource source).run.2 with
      | none =>
          have finishing := stacked.finish
          rw [broken] at failed
          have finishes : assembler.finish = .error fault := failed
          rw [finishes] at finishing
          exact .inr (.inr finishing)
      | some found =>
          rw [broken] at failed
          cases failed
          rcases Scanner.origin_of_run broken with levels | reading
          · exact .inl levels
          · exact .inr (.inl reading)

end Program

namespace Source

variable {fault : Fault}

theorem origin_of_ofLines {firstLine : Nat} {text : Text}
    (failed : ofLines firstLine text = .error fault) : fault.origin = none := by
  unfold ofLines at failed
  simp only at failed
  split at failed
  · cases failed
    rfl
  · contradiction

private theorem origin_of_ofLabel {label : Text} (failed : Encoding.ofLabel label = .error fault) :
    fault.origin = none := by
  unfold Encoding.ofLabel at failed
  split at failed
  · contradiction
  · cases failed
    rfl

theorem origin_of_ofText {text : Text} (failed : ofText text = .error fault) :
    fault.origin = none := by
  unfold ofText at failed
  simp only at failed
  split at failed
  · exact origin_of_ofLines failed
  · split at failed
    · rename_i found unsupported
      cases failed
      exact origin_of_ofLabel unsupported
    · exact origin_of_ofLines failed

private theorem origin_of_decodeLines {encoding : Encoding} {firstLine : Nat}
    {bytes : Utf8.Bytes} (failed : decodeLines encoding firstLine bytes = .error fault) :
    fault.origin = none := by
  unfold decodeLines Encoding.decode at failed
  simp only at failed
  split at failed
  · rename_i found undecoded
    cases failed
    split at undecoded
    · cases undecoded
      rfl
    · split at undecoded
      · contradiction
      · cases undecoded
        rfl
  · exact origin_of_ofLines failed

theorem origin_of_ofBytes {bytes : Utf8.Bytes} (failed : ofBytes bytes = .error fault) :
    fault.origin = none := by
  unfold ofBytes at failed
  simp only at failed
  split at failed
  · exact origin_of_decodeLines failed
  · split at failed
    · rename_i found unsupported
      cases failed
      exact origin_of_ofLabel unsupported
    · exact origin_of_decodeLines failed

end Source

/-! ### Messages about misplaced tokens -/

def misplacedMessages : List String :=
  ["attribute outside of an element", "`/` outside of an element",
    "inline data outside of an element", "dedent without an open element",
    "meta directive attributes must be literal strings"]

private theorem marked_of_misplaced {message : String} (member : message ∈ misplacedMessages) :
    (∃ mark ∈ marks, mark <+: message.toList) ∧ ¬['i', 'n', 'c'] <+: message.toList := by
  revert message
  decide

/-- A cause that a run or an assembly of its lexemes gives is worded otherwise. -/
theorem Cause.message_ne_misplaced {cause : Cause} {message : String}
    (known : cause.origin = .levels ∨ cause.origin = .reading ∨ cause.origin = .assembly)
    (member : message ∈ misplacedMessages) : cause.message ≠ message := by
  rintro rfl
  obtain ⟨⟨mark, isMark, begins⟩, notLevels⟩ := marked_of_misplaced member
  rcases known with levels | others
  · cases cause with
    | unalignedIndent width =>
        exact notLevels (List.IsPrefix.trans (by decide) (begins_unaligned width))
    | _ => contradiction
  · exact ((unmarked_message others).not_begins isMark).1 begins

namespace Program

/-- What compiling text or bytes fails with is never a misplaced token. -/
private theorem message_ne_misplaced_of_source {source : Source} {line : Nat} {cause : Cause}
    {message : String} (member : message ∈ misplacedMessages)
    (failed : ofSource source = .error (.parse line cause)) : cause.message ≠ message := by
  have origins := origin_of_ofSource failed
  simp only [Fault.origin, Option.some.injEq] at origins
  exact Cause.message_ne_misplaced origins member

private theorem exists_misplaced {message : String} (member : message ∈ misplacedMessages) :
    ∃ (lexemes : List Lexeme) (line : Nat) (cause : Cause),
      ofLexemes lexemes = .error (.parse line cause) ∧ cause.message = message := by
  simp only [misplacedMessages, List.mem_cons, List.not_mem_nil, or_false] at member
  rcases member with rfl | rfl | rfl | rfl | rfl
  · exact ⟨[⟨.literalAttribute [] [], 1⟩], 1, .attributeOutsideElement, rfl, rfl⟩
  · exact ⟨[⟨.selfClose, 1⟩], 1, .slashOutsideElement, rfl, rfl⟩
  · exact ⟨[⟨.data [], 1⟩], 1, .dataOutsideElement, rfl, rfl⟩
  · exact ⟨[⟨.dedent, 1⟩], 1, .unopenedDedent, rfl, rfl⟩
  · exact ⟨[⟨.directive [], 1⟩, ⟨.codeAttribute [] [], 1⟩], 1, .codeInDirective, rfl, rfl⟩

/-- Neither a text nor bytes can be refused with a message about a misplaced token, though
some list of lexemes is refused with it. -/
theorem compile_ne_misplaced :
    ∀ message ∈ misplacedMessages,
      (∀ (text : Text) (line : Nat) (cause : Cause),
        compile text = .error (.parse line cause) → cause.message ≠ message) ∧
      (∀ (bytes : Utf8.Bytes) (line : Nat) (cause : Cause),
        compileBytes bytes = .error (.parse line cause) → cause.message ≠ message) ∧
      ∃ (lexemes : List Lexeme) (line : Nat) (cause : Cause),
        ofLexemes lexemes = .error (.parse line cause) ∧ cause.message = message := by
  intro message member
  refine ⟨?_, ?_, ?_⟩
  · intro text line cause failed
    unfold compile at failed
    split at failed
    · rename_i fault unloaded
      cases failed
      have origin := Source.origin_of_ofText unloaded
      contradiction
    · exact message_ne_misplaced_of_source member failed
  · intro bytes line cause failed
    unfold compileBytes at failed
    split at failed
    · rename_i fault unloaded
      cases failed
      have origin := Source.origin_of_ofBytes unloaded
      contradiction
    · exact message_ne_misplaced_of_source member failed
  · exact exists_misplaced member

/-- The message about a dedent, which no text can bring about. -/
theorem compile_ne_misplaced_dedent :
    "dedent without an open element" ∈ misplacedMessages ∧
      (∀ (text : Text) (line : Nat) (cause : Cause),
        compile text = .error (.parse line cause) →
          cause.message ≠ "dedent without an open element") ∧
      ofLexemes [⟨.dedent, 1⟩] = .error (.parse 1 .unopenedDedent) := by
  have member : "dedent without an open element" ∈ misplacedMessages := by
    simp [misplacedMessages]
  exact ⟨member, (compile_ne_misplaced _ member).1, rfl⟩

end Program

end Stencil
