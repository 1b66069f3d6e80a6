import Stencil.Proofs.Scanning

/-! Where the faults of a template come from.

Reading a line fails in its indentation or in its construct, and every reader of a part
of a construct fails in a way of its own.  The causes that the assembler adds are about
how constructs follow each other, or about a token that no construct can take. -/

namespace Stencil

/-- What a cause is about. -/
inductive Origin where
  | levels
  | reading
  /-- The order of constructs, and what only shows when they are put together. -/
  | assembly
  /-- A token that stands where no construct can take it. -/
  | misplaced
  | producer
  deriving DecidableEq, Repr

def Cause.origin : Cause → Origin
  | .unalignedIndent _ => .levels
  | .unknownHeaderKind _ | .unsupportedHeaderEncoding _ | .nestedInSelfClosed
  | .nestedInDirective | .unexpectedIndent _ | .nestedDirective | .lateDirective
  | .unknownFilter _ | .duplicateAttribute _ _ => .assembly
  | .slashOutsideElement | .attributeOutsideElement | .codeInDirective | .dataOutsideElement
  | .unopenedDedent => .misplaced
  | .reported _ => .producer
  | _ => .reading

def Fault.origin : Fault → Option Origin
  | .parse _ cause => some cause.origin
  | _ => none

/-! ### Messages -/

/-- How the messages about levels and about misplaced tokens begin. -/
def marks : List Text :=
  [['i', 'n', 'c'], ['a', 't', 't', 'r', 'i', 'b', 'u', 't', 'e', ' ', 'o'], ['\x60'],
    ['i', 'n', 'l'], ['d', 'e'], ['m', 'e']]

/-- A text that no mark begins, whatever is added to it. -/
inductive Unmarked : String → Prop
  | literal {characters : Text}
      (apart : (marks.all fun mark =>
        !mark.isPrefixOf characters && !characters.isPrefixOf mark) = true) :
      Unmarked (String.ofList characters)
  | append {first : String} (unmarked : Unmarked first) (rest : String) :
      Unmarked (first ++ rest)

theorem Unmarked.not_begins {text : String} (unmarked : Unmarked text) {mark : Text}
    (member : mark ∈ marks) : ¬mark <+: text.toList ∧ ¬text.toList <+: mark := by
  induction unmarked with
  | literal apart =>
      have differs := List.all_eq_true.mp apart mark member
      simp only [Bool.and_eq_true, Bool.not_eq_eq_eq_not, Bool.not_true, ← Bool.not_eq_true,
        List.isPrefixOf_iff_prefix] at differs
      rw [String.toList_ofList]
      exact differs
  | append unmarked rest ih =>
      rw [String.toList_append]
      constructor
      · intro begins
        rcases List.prefix_or_prefix_of_prefix begins (List.prefix_append _ _) with short | long
        · exact ih.1 short
        · exact ih.2 long
      · intro begins
        exact ih.2 ((List.prefix_append _ _).trans begins)

theorem Cause.unmarked_message {cause : Cause}
    (known : cause.origin = .reading ∨ cause.origin = .assembly) : Unmarked cause.message := by
  cases cause with
  | unalignedIndent _ | slashOutsideElement | attributeOutsideElement | codeInDirective
  | dataOutsideElement | unopenedDedent | reported _ => simp [Cause.origin] at known
  | badNameStart role character =>
      refine .append ?_ _
      cases role with
      | elementName => exact .append (.literal (by decide)) _
      | attributeName =>
          have joined : "attribute" ++ " name cannot start with " =
              "attribute name cannot start with " := rfl
          rw [NameRole.label, joined]
          exact .literal (by decide)
  | unexpectedIndent after =>
      cases after with
      | none => exact .literal (by decide)
      | some kind => exact .append (.literal (by decide)) _
  | missingCode _ | missingAttributeValue _ | malformedDirective _ | unknownHeaderKind _
  | unknownFilter _ => exact .append (.literal (by decide)) _
  | missingName _ | shortcutQuoted _ | shortcutAssigned _ | shortcutEmpty _
  | unexpectedCharacter _ | unescapedQuote _ | characterAfterValue _
  | unsupportedHeaderEncoding _ => exact .append (.append (.literal (by decide)) _) _
  | duplicateAttribute name tag =>
      exact .append (.append (.append (.literal (by decide)) _) _) _
  | _ => exact .literal (by decide)

theorem Cause.begins_unaligned (width : Nat) :
    "inconsistent indentation".toList <+: (Cause.unalignedIndent width).message.toList := by
  unfold Cause.message
  rw [String.toList_append, String.toList_append, List.append_assoc]
  exact List.IsPrefix.trans (by decide) (List.prefix_append _ _)

/-! ### Readers -/

private theorem map_eq_error {α β : Type} {result : Except Fault α} {f : α → β} {fault : Fault}
    (failed : result.map f = .error fault) : result = .error fault := by
  cases result with
  | error found => simpa [Except.map] using failed
  | ok value => simp [Except.map] at failed

namespace Source

variable {source : Source} {fault : Fault}

theorem origin_of_readName {role : NameRole} (failed : source.readName role = .error fault) :
    fault.origin = some .reading := by
  unfold readName at failed
  split at failed
  · split at failed
    · contradiction
    · split at failed
      · cases failed
        rfl
      · cases failed
        rfl
  · cases failed
    rfl

theorem origin_of_readShortcutValue {shortcut : Char}
    (failed : source.readShortcutValue shortcut = .error fault) :
    fault.origin = some .reading := by
  unfold readShortcutValue at failed
  simp only at failed
  split at failed
  · cases failed
    rfl
  · split at failed
    · cases failed
      rfl
    · split at failed
      · cases failed
        rfl
      · contradiction

theorem origin_of_readShortcuts (failed : source.readShortcuts = .error fault) :
    fault.origin = some .reading := by
  fun_induction readShortcuts source with
  | case1 source ended => contradiction
  | case2 source shortcut next plain => contradiction
  | case3 source shortcut next name named found valueFailed =>
      cases failed
      exact origin_of_readShortcutValue valueFailed
  | case4 source shortcut next name named value after valueRead found othersFailed ih =>
      cases failed
      exact ih othersFailed
  | case5 => contradiction

theorem origin_of_readQuotation {quote : Char} {multiline : Bool} {line : Nat}
    (failed : source.readQuotation quote multiline line = .error fault) :
    fault.origin = some .reading := by
  fun_induction readQuotation quote multiline line source with
  | case1 source ended =>
      cases failed
      rfl
  | case2 source next ended =>
      cases failed
      rfl
  | case3 source next escaped ih => exact ih (map_eq_error failed)
  | case4 source next escaped following visible ih => exact ih (map_eq_error failed)
  | case5 source next unescaped multi ih => exact ih (map_eq_error failed)
  | case6 source next unescaped single =>
      cases failed
      rfl
  | case7 => contradiction
  | case8 source character next unescaped visible inside ih => exact ih (map_eq_error failed)

theorem origin_of_readQuoted {quote : Char} {multiline : Bool} {line : Nat}
    (failed : source.readQuoted quote multiline line = .error fault) :
    fault.origin = some .reading := by
  unfold readQuoted at failed
  split at failed
  · rename_i found quotation
    cases failed
    exact origin_of_readQuotation quotation
  · split at failed
    · contradiction
    · split at failed
      · cases failed
        rfl
      · split at failed
        · contradiction
        · cases failed
          rfl

end Source

/-! ### Constructs -/

namespace Scanner

variable {source : Source} {fault : Fault}

private theorem origin_of_readBareValue {name : Text} {line : Nat}
    (failed : readBareValue name line source = .error fault) : fault.origin = some .reading := by
  unfold readBareValue at failed
  simp only at failed
  split at failed
  · cases failed
    rfl
  · contradiction

theorem origin_of_readAttribute {parentheses line : Nat}
    (failed : readAttribute parentheses line source = .error fault) :
    fault.origin = some .reading := by
  unfold readAttribute at failed
  split at failed
  · rename_i found nameFailed
    cases failed
    exact Source.origin_of_readName nameFailed
  · split at failed
    · simp only at failed
      split at failed
      · split at failed
        · exact Source.origin_of_readQuoted (map_eq_error failed)
        · split at failed
          · exact Source.origin_of_readQuoted (map_eq_error failed)
          · exact origin_of_readBareValue failed
      · exact origin_of_readBareValue failed
    · contradiction

theorem origin_of_payloadOf {line : Nat} {text : Text}
    (failed : payloadOf line text = .error fault) : fault.origin = some .reading := by
  unfold payloadOf at failed
  split at failed
  · contradiction
  · split at failed
    · cases failed
      rfl
    · contradiction

theorem origin_of_readPiece {parentheses : Nat}
    (failed : readPiece parentheses source = .error fault) : fault.origin = some .reading := by
  unfold readPiece at failed
  simp only at failed
  split at failed
  · split at failed
    · cases failed
      rfl
    · contradiction
  · rename_i character next
    -- the tests follow each other as in `readPiece`, one sign at a time
    by_cases newline : character = '\n'
    · rw [if_pos newline] at failed
      contradiction
    rw [if_neg newline] at failed
    by_cases space : character = ' '
    · rw [if_pos space] at failed
      contradiction
    rw [if_neg space] at failed
    by_cases opening : character = '('
    · rw [if_pos opening] at failed
      contradiction
    rw [if_neg opening] at failed
    by_cases closing : character = ')'
    · rw [if_pos closing] at failed
      split at failed
      · cases failed
        rfl
      · contradiction
    rw [if_neg closing] at failed
    by_cases backslash : character = '\\'
    · rw [if_pos backslash] at failed
      split at failed
      · contradiction
      · cases failed
        rfl
    rw [if_neg backslash] at failed
    by_cases colon : character = ':'
    · rw [if_pos colon] at failed
      split at failed
      · cases failed
        rfl
      · contradiction
    rw [if_neg colon] at failed
    by_cases slash : character = '/'
    · rw [if_pos slash] at failed
      split at failed
      · cases failed
        rfl
      · contradiction
    rw [if_neg slash] at failed
    by_cases start : isNameStart character = true
    · rw [if_pos start] at failed
      split at failed
      · rename_i found attributeFailed
        cases failed
        exact origin_of_readAttribute attributeFailed
      · contradiction
    rw [if_neg start] at failed
    split at failed
    · cases failed
      rfl
    · cases failed
      rfl

theorem origin_of_readData (failed : readData source = .error fault) :
    fault.origin = some .reading := by
  unfold readData at failed
  split at failed
  · rename_i found payloadFailed
    cases failed
    exact origin_of_payloadOf payloadFailed
  · contradiction

private theorem origin_of_startElement {tag : Text} {line : Nat}
    (failed : startElement tag line source = .error fault) : fault.origin = some .reading := by
  unfold startElement at failed
  split at failed
  · rename_i found shortcutsFailed
    cases failed
    exact Source.origin_of_readShortcuts shortcutsFailed
  · contradiction

theorem origin_of_readConstruct {opening : Opening} {width line : Nat}
    (failed : readConstruct opening width line source = .error fault) :
    fault.origin = some .reading := by
  cases opening with
  | element =>
      simp only [readConstruct, readElement] at failed
      split at failed
      · rename_i found nameFailed
        cases failed
        exact Source.origin_of_readName nameFailed
      · exact origin_of_startElement failed
  | shortcut => exact origin_of_startElement failed
  | comment => contradiction
  | directive =>
      simp only [readConstruct, readDirective, Markup.Directive.parse] at failed
      split at failed
      · rename_i found directiveFailed
        split at directiveFailed
        · contradiction
        · cases directiveFailed
          cases failed
          rfl
      · contradiction
  | code =>
      simp only [readConstruct, readCode] at failed
      split at failed
      · rename_i found payloadFailed
        cases failed
        exact origin_of_payloadOf payloadFailed
      · contradiction
  | filter =>
      simp only [readConstruct, readFilterHeading] at failed
      split at failed
      · cases failed
        rfl
      · contradiction
  | rawCode =>
      simp only [readConstruct, readRawCode] at failed
      split at failed
      · cases failed
        rfl
      · contradiction
  | verbatim => contradiction
  | text => contradiction

/-! ### Steps -/

theorem step_error_cases {scanner : Scanner} (failed : scanner.step = .error fault) :
    (scanner.mode = .indentation ∧
      enterLevel (Text.leadingSpaces (scanner.source.peekLine.getD []))
        scanner.source.lineNumber scanner.levels = .error fault) ∨
    fault.origin = some .reading := by
  have acted : scanner.act = .error fault := by
    unfold step at failed
    split at failed
    · rename_i found acts
      cases failed
      exact acts
    · contradiction
  unfold act at acted
  split at acted
  · contradiction
  · rename_i reading
    unfold readIndentation at acted
    simp only at acted
    split at acted
    · rename_i found entering
      cases acted
      exact .inl ⟨reading, entering⟩
    · split at acted
      · rename_i found constructFailed
        cases acted
        exact .inr (origin_of_readConstruct constructFailed)
      · contradiction
  · unfold advance at acted
    split at acted
    · rename_i found pieceFailed
      cases acted
      exact .inr (origin_of_readPiece pieceFailed)
    · contradiction
  · unfold advance at acted
    split at acted
    · rename_i found dataFailed
      cases acted
      exact .inr (origin_of_readData dataFailed)
    · contradiction
  · contradiction
  · contradiction

end Scanner

end Stencil
