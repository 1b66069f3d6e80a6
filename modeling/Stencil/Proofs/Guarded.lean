import Stencil.Proofs.Assembly
import Stencil.Proofs.Sealing

/-! Programs whose only code is code with escaped results.

If no lexeme holds code in an attribute, verbatim code, raw code or a filter, then
every instruction of the assembled program is guarded: literal text, values and
comment lines were escaped when the program was assembled, names were given by
lexemes and are distinct within a tag, and the result of code is escaped when the
program runs.  What is known of the names is a parameter. -/

namespace Stencil

/-! ### Guarded tokens and instructions -/

def Token.escapesCode : Token → Bool
  | .codeAttribute _ _ | .filter _ _ | .rawCode _ => false
  | .codeData _ escape | .codeContent _ escape => escape
  | _ => true

def Token.name? : Token → Option Text
  | .element name | .literalAttribute name _ | .codeAttribute name _ => some name
  | _ => none

/-- Text that is escaped, now or when its code has run. -/
def Fragment.Guarded : Fragment → Prop
  | .text written => ∃ original, written = Markup.escapeText original
  | .code _ escape => escape = true

def Attribute.Guarded (Named : Text → Prop) (attributes : List Attribute) : Prop :=
  (attributes.map Attribute.name).Nodup ∧
    ∀ entry ∈ attributes, Named entry.name ∧
      ∃ original, entry.value = .literal (Markup.escapeAttribute original)

/-- An instruction that writes nothing but escaped text between its own markup. -/
def Instruction.Guarded (Named : Text → Prop) : Instruction → Prop
  | .element tag attributes body =>
      Named tag ∧ Attribute.Guarded Named attributes ∧ ∀ fragment ∈ body, fragment.Guarded
  | .openElement tag attributes => Named tag ∧ Attribute.Guarded Named attributes
  | .content fragment => fragment.Guarded
  | .comment lines => ∀ line ∈ lines, ∃ original, line = Markup.escapeComment original
  | .closeElement _ | .blank => True
  | .rawCode _ => False

def Construct.Guarded (Named : Text → Prop) : Construct → Prop
  | .element pending =>
      Named pending.tag ∧
        (∀ entry ∈ pending.attributes, Named entry.name ∧ PendingElement.IsLiteral entry) ∧
        ∀ fragment ∈ pending.data, fragment.Guarded
  | _ => True

/-! ### The profile of a header -/

theorem Markup.Profile.eq_xml_of_ofKind? {kind : Text} {profile : Markup.Profile}
    (found : Markup.Profile.ofKind? kind = some profile) : profile = Markup.Profile.xml := by
  have member := List.mem_of_find?_eq_some found
  simpa [Markup.Profile.all] using member

theorem Markup.Header.profile_ofDirective {line : Nat} {directive : Markup.Directive}
    {header : Markup.Header} {profile : Markup.Profile}
    (declared : Markup.Header.ofDirective line directive = .ok (header, profile)) :
    profile = Markup.Profile.xml := by
  unfold Markup.Header.ofDirective at declared
  split at declared
  · contradiction
  · rename_i found known
    split at declared
    · contradiction
    · cases declared
      exact Markup.Profile.eq_xml_of_ofKind? known

/-! ### Assembling guarded tokens -/

namespace Assembler

variable {Named : Text → Prop}

/-- Everything that was emitted or waits is guarded, and escaping is that of XML. -/
structure Guards (Named : Text → Prop) (assembler : Assembler) : Prop where
  profile : assembler.profile = Markup.Profile.xml
  depth : ∀ construct ∈ assembler.depth, construct.Guarded Named
  instructions : ∀ instruction ∈ assembler.instructions, instruction.Guarded Named

theorem guards_start : Guards Named start where
  profile := rfl
  depth := by simp [start]
  instructions := by simp [start]

private theorem Guards.withDepth {assembler : Assembler} {depth : List Construct}
    (guards : assembler.Guards Named)
    (guarded : ∀ construct ∈ depth, construct.Guarded Named) :
    (assembler.withDepth depth).Guards Named where
  profile := guards.profile
  depth := guarded
  instructions := guards.instructions

private theorem Guards.emit {assembler : Assembler} {instructions : List Instruction}
    (guards : assembler.Guards Named)
    (guarded : ∀ instruction ∈ instructions, instruction.Guarded Named) :
    (assembler.emit instructions).Guards Named where
  profile := guards.profile
  depth := guards.depth
  instructions := by
    intro instruction member
    rcases List.mem_append.mp member with earlier | added
    · exact guards.instructions instruction earlier
    · exact guarded instruction added

private theorem Guards.outer {assembler : Assembler} {construct : Construct}
    {outer : List Construct} (guards : assembler.Guards Named)
    (top : assembler.depth = construct :: outer) :
    ∀ other ∈ outer, other.Guarded Named := by
  intro other member
  exact guards.depth other (by simp [top, member])

private theorem Guards.innermost {assembler : Assembler} {construct : Construct}
    {outer : List Construct} (guards : assembler.Guards Named)
    (top : assembler.depth = construct :: outer) : construct.Guarded Named :=
  guards.depth construct (by simp [top])

private theorem Guards.replace {assembler : Assembler} {construct replacement : Construct}
    {outer : List Construct} (guards : assembler.Guards Named)
    (top : assembler.depth = construct :: outer) (guarded : replacement.Guarded Named) :
    (assembler.withDepth (replacement :: outer)).Guards Named :=
  guards.withDepth (List.forall_mem_cons.mpr ⟨guarded, guards.outer top⟩)

private theorem Guards.open {assembler : Assembler} {construct : Construct}
    (guards : assembler.Guards Named) (guarded : construct.Guarded Named) :
    (assembler.withDepth (construct :: assembler.depth)).Guards Named :=
  guards.withDepth (List.forall_mem_cons.mpr ⟨guarded, guards.depth⟩)

private theorem guarded_sealed {profile : Markup.Profile} {element : PendingElement}
    {attributes : List Attribute} (isXml : profile = Markup.Profile.xml)
    (guarded : (Construct.element element).Guarded Named)
    (complete : element.sealed profile = .ok attributes) :
    Attribute.Guarded Named attributes := by
  obtain ⟨distinct, origin⟩ := PendingElement.sealed_cases complete
  refine ⟨distinct, ?_⟩
  intro entry member
  obtain ⟨given, wasGiven, same, escaped⟩ := origin entry member
  obtain ⟨named, literal⟩ := guarded.2.1 given wasGiven
  obtain ⟨text, value⟩ := escaped literal
  rw [isXml] at value
  exact ⟨same ▸ named, text, value⟩

theorem Guards.settled {assembler next : Assembler} (guards : assembler.Guards Named)
    (settled : Settled assembler next) : next.Guards Named := by
  cases settled with
  | element top complete =>
      have guarded := guards.innermost top
      have sealed := guarded_sealed guards.profile guarded complete
      apply (guards.withDepth (guards.outer top)).emit
      simp only [List.mem_singleton, forall_eq]
      exact ⟨guarded.1, sealed, guarded.2.2⟩
  | comment top =>
      apply (guards.withDepth (guards.outer top)).emit
      simp only [List.mem_singleton, forall_eq]
      intro line member
      obtain ⟨original, -, rfl⟩ := List.mem_map.mp member
      exact ⟨original, by rw [guards.profile]; rfl⟩
  | blank top =>
      apply (guards.withDepth (guards.outer top)).emit
      simp [Instruction.Guarded]
  | directive top declared =>
      exact
        { profile := Markup.Header.profile_ofDirective declared
          depth := guards.outer top
          instructions := guards.instructions }
  | block top => exact guards
  | empty top => exact guards

private theorem guarded_leaf {profile : Markup.Profile} {token : Token}
    {instructions : List Instruction} (isXml : profile = Markup.Profile.xml)
    (escapes : token.escapesCode = true) (given : token.leaf? profile = some instructions) :
    ∀ instruction ∈ instructions, instruction.Guarded Named := by
  cases token with
  | content text =>
      cases given
      simp only [List.mem_singleton, forall_eq]
      exact ⟨text, by rw [isXml]; rfl⟩
  | codeContent code escape =>
      cases given
      simp only [List.mem_singleton, forall_eq]
      exact escapes
  | filter name lines => contradiction
  | rawCode code => contradiction
  | _ => contradiction

private theorem guarded_data {profile : Markup.Profile} {token : Token} {fragment : Fragment}
    (isXml : profile = Markup.Profile.xml) (escapes : token.escapesCode = true)
    (given : token.data? profile = some fragment) : fragment.Guarded := by
  cases token with
  | data text =>
      cases given
      exact ⟨text, by rw [isXml]; rfl⟩
  | codeData code escape =>
      cases given
      exact escapes
  | _ => contradiction

private theorem guarded_attribute {token : Token} {entry : Attribute}
    (escapes : token.escapesCode = true) (named : ∀ name ∈ token.name?, Named name)
    (given : token.attribute? = some entry) :
    Named entry.name ∧ PendingElement.IsLiteral entry := by
  cases token with
  | literalAttribute name text =>
      cases given
      exact ⟨named name rfl, text, rfl⟩
  | codeAttribute name code => contradiction
  | _ => contradiction

private theorem guarded_closing {tag : Text} {blankBeforeClose : Bool} :
    ∀ instruction ∈ closing tag blankBeforeClose, instruction.Guarded Named := by
  cases blankBeforeClose <;> simp [closing, Instruction.Guarded]

theorem guarded_closings (depth : List Construct) :
    ∀ instruction ∈ closings depth, instruction.Guarded Named := by
  induction depth with
  | nil => simp [closings]
  | cons construct outer ih =>
      cases construct with
      | block tag blankBeforeClose =>
          intro instruction member
          rcases List.mem_append.mp member with here | further
          · exact guarded_closing instruction here
          · exact ih instruction further
      | _ => exact ih

theorem Guards.placed {token : Token} {line : Nat} {assembler next : Assembler}
    (guards : assembler.Guards Named) (escapes : token.escapesCode = true)
    (named : ∀ name ∈ token.name?, Named name)
    (placed : Placed token line assembler next) : next.Guards Named := by
  cases placed with
  | element tag line =>
      apply guards.open
      exact ⟨named tag rfl, by simp [newElement], by simp [newElement]⟩
  | @attributed _ _ _ entry element _ given top growing =>
      obtain ⟨namedTag, literals, data⟩ := guards.innermost top
      refine guards.replace top ⟨namedTag, ?_, data⟩
      intro other member
      rcases List.mem_append.mp member with earlier | added
      · exact literals other earlier
      · rw [List.mem_singleton.mp added]
        exact guarded_attribute escapes named given
  | declared top => exact guards.replace top trivial
  | selfClose top =>
      have guarded := guards.innermost top
      exact guards.replace top guarded
  | @data _ _ _ _ fragment element outer given top settled =>
      obtain ⟨namedTag, literals, -⟩ := guards.innermost top
      have guarded : (Construct.element { element with data := some fragment }).Guarded Named := by
        refine ⟨namedTag, literals, ?_⟩
        simp only [Option.mem_some, forall_eq']
        exact guarded_data guards.profile escapes given
      exact (guards.replace top guarded).settled settled
  | leaf given => exact guards.emit (guarded_leaf guards.profile escapes given)
  | joinedComment top => exact guards.replace top trivial
  | comment top => exact guards.open trivial
  | directive kind line => exact guards.open trivial
  | @indent _ _ element outer _ top growing complete =>
      have guarded := guards.innermost top
      have sealed := guarded_sealed guards.profile guarded complete
      have opened : (Construct.block element.tag false).Guarded Named := trivial
      apply (guards.replace top opened).emit
      simp only [List.mem_singleton, forall_eq]
      exact ⟨guarded.1, sealed⟩
  | dedent top =>
      apply (guards.withDepth (guards.outer top)).emit
      exact guarded_closing
  | @markedBlank _ _ tag _ _ after top =>
      have marked : (Construct.block tag true).Guarded Named := trivial
      apply (guards.replace top marked).emit
      simp [Instruction.Guarded]
  | writtenBlank after top =>
      apply guards.emit
      simp [Instruction.Guarded]
  | waitingBlank after => exact guards.open trivial

/-- Whether a lexeme escapes the results of its code and gives names that are known. -/
def GuardsLexeme (Named : Text → Prop) (lexeme : Lexeme) : Prop :=
  lexeme.token.escapesCode = true ∧ ∀ name ∈ lexeme.token.name?, Named name

theorem kept_guards : Kept (GuardsLexeme Named) (Guards Named) where
  settled := Guards.settled
  placed := fun allowed guards placed => guards.placed allowed.1 allowed.2 placed
  recorded := fun _ _ guards =>
    { profile := guards.profile
      depth := guards.depth
      instructions := guards.instructions }
  dropped := fun guards top => guards.withDepth (guards.outer top)

end Assembler

theorem Program.guarded_ofLexemes {Named : Text → Prop} {lexemes : List Lexeme}
    {program : Program} (guarded : ∀ lexeme ∈ lexemes, Assembler.GuardsLexeme Named lexeme)
    (assembled : ofLexemes lexemes = .ok program) :
    program.profile = Markup.Profile.xml ∧
      ∀ instruction ∈ program.instructions, instruction.Guarded Named := by
  obtain ⟨assembler, guards, rfl⟩ :=
    Assembler.kept_guards.ofItems (by simpa using guarded) Assembler.guards_start assembled
  refine ⟨guards.profile, ?_⟩
  intro instruction member
  rcases List.mem_append.mp member with emitted | closes
  · exact guards.instructions instruction emitted
  · exact Assembler.guarded_closings assembler.depth instruction closes

end Stencil
