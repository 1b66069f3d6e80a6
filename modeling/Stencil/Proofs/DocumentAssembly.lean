import Stencil.Proofs.Assembly
import Stencil.Proofs.Document
import Stencil.Proofs.Sealing

/-! Assembling the tokens of a document.

Between two nodes an assembler either stands, with nothing on its stack but elements
whose children are being emitted, or it waits for what follows an element.  In both
cases the next node finds the same instructions emitted, so the tokens of a forest add
the instructions of the forest, and every element is closed where it was opened. -/

namespace Stencil

namespace PendingElement

theorem joinClasses_of_nodup {entries : List Attribute}
    (distinct : (entries.map Attribute.name).Nodup) : joinClasses entries = entries := by
  induction entries with
  | nil => rfl
  | cons entry others ih =>
      rw [List.map_cons, List.nodup_cons] at distinct
      rw [joinClasses]
      cases literal : literalClass? entry with
      | none => simp only [ih distinct.2]
      | some text =>
          have value : entry.value = .literal text ∧ entry.name = classKey := by
            unfold literalClass? at literal
            split at literal
            · rename_i given
              rw [Option.ite_none_right_eq_some] at literal
              obtain ⟨named, same⟩ := literal
              cases same
              exact ⟨given, named⟩
            · contradiction
          have alone : ∀ other ∈ others, literalClass? other = none := by
            intro other member
            have named : other.name ≠ classKey := by
              intro same
              exact distinct.1 (List.mem_map.mpr ⟨other, member, same.trans value.2.symm⟩)
            unfold literalClass?
            split
            · rw [if_neg named]
            · rfl
          have none : others.filterMap literalClass? = [] :=
            List.filterMap_eq_nil_iff.mpr alone
          have all : others.filter (fun other => (literalClass? other).isNone) = others :=
            List.filter_eq_self.mpr fun other member => by rw [alone other member]; rfl
          obtain ⟨name, given⟩ := entry
          obtain ⟨rfl, -⟩ := value
          simp [none, all]

end PendingElement

namespace Document

/-! ### Instructions of a document -/

def Attributes.pending (attributes : Attributes) : List Attribute :=
  attributes.entries.map fun entry => { name := entry.1.text, value := .literal entry.2.text }

def Attributes.emitted (attributes : Attributes) : List Attribute :=
  attributes.entries.map fun entry =>
    { name := entry.1.text, value := .literal (Markup.escapeAttribute entry.2.text) }

mutual

def instructions : Tree → List Instruction
  | .element tag attributes children =>
      if children.isEmpty then [.element tag.text attributes.emitted none]
      else
        .openElement tag.text attributes.emitted :: instructionsAll children ++
          [.closeElement tag.text]
  | .text content => [.content (.text (Markup.escapeText content.text))]

def instructionsAll : List Tree → List Instruction
  | [] => []
  | tree :: others => instructions tree ++ instructionsAll others

end

theorem Attributes.sealed_pending (attributes : Attributes) (tag : Text) (selfClosed : Bool)
    (data : Option Fragment) (line : Nat) :
    PendingElement.sealed Markup.Profile.xml ⟨tag, attributes.pending, selfClosed, data, line⟩ =
      .ok attributes.emitted := by
  have distinct : (attributes.pending.map Attribute.name).Nodup := by
    rw [pending, List.map_map]
    exact attributes.distinct
  have fresh : PendingElement.firstRepeated [] attributes.pending = none :=
    (PendingElement.firstRepeated_eq_none_iff [] _).mpr ⟨distinct, by simp⟩
  simp only [PendingElement.sealed, PendingElement.joinClasses_of_nodup distinct, fresh]
  rw [pending, List.map_map]
  rfl

end Document

namespace Assembler

/-! ### Standing and waiting -/

/-- No construct waits: the stack holds the given elements with children. -/
structure Stands (blocks : List Construct) (instructions : List Instruction)
    (assembler : Assembler) : Prop where
  header : assembler.header = none
  profile : assembler.profile = Markup.Profile.xml
  depth : assembler.depth = blocks
  instructions : assembler.instructions = instructions
  settled : ∀ construct ∈ blocks, construct.isBlock = true

/-- An element waits whose attribute list may still grow. -/
structure Waits (blocks : List Construct) (instructions : List Instruction) (tag : Text)
    (attributes : List Attribute) (assembler : Assembler) : Prop where
  header : assembler.header = none
  profile : assembler.profile = Markup.Profile.xml
  depth : ∃ line, assembler.depth = .element ⟨tag, attributes, false, none, line⟩ :: blocks
  instructions : assembler.instructions = instructions
  settled : ∀ construct ∈ blocks, construct.isBlock = true

inductive Ready (blocks : List Construct) (instructions : List Instruction)
    (assembler : Assembler) : Prop
  | stands (standing : Stands blocks instructions assembler)
  | waits {earlier : List Instruction} {tag : Text} (attributes : Document.Attributes)
      (waiting : Waits blocks earlier tag attributes.pending assembler)
      (last : instructions = earlier ++ [.element tag attributes.emitted none])

section Pushing

variable {blocks : List Construct} {instructions : List Instruction} {assembler : Assembler}

theorem Stands.settle (stands : Stands blocks instructions assembler) :
    assembler.settle = .ok assembler := by
  have depth := stands.depth
  have settled := stands.settled
  unfold Assembler.settle
  cases blocks with
  | nil => rw [depth]
  | cons construct outer =>
      cases construct with
      | block tag blank => rw [depth]
      | _ =>
          have impossible := settled _ List.mem_cons_self
          contradiction

theorem Waits.settle {tag : Text} {attributes : Document.Attributes}
    (waits : Waits blocks instructions tag attributes.pending assembler) :
    ∃ next, assembler.settle = .ok next ∧
      Stands blocks (instructions ++ [.element tag attributes.emitted none]) next := by
  obtain ⟨line, depth⟩ := waits.depth
  have settle : assembler.settle = .ok ((assembler.withDepth blocks).emit
      [.element tag attributes.emitted none]) := by
    unfold Assembler.settle
    simp only [depth, waits.profile, attributes.sealed_pending]
  refine ⟨_, settle, waits.header, waits.profile, rfl, ?_, waits.settled⟩
  rw [← waits.instructions]
  rfl

theorem Ready.settle (ready : Ready blocks instructions assembler) :
    ∃ next, assembler.settle = .ok next ∧ Stands blocks instructions next := by
  cases ready with
  | stands standing => exact ⟨assembler, standing.settle, standing⟩
  | waits attributes waiting last =>
      rw [last]
      exact waiting.settle

/-! ### Taking the tokens of a node -/

theorem Ready.prepare (ready : Ready blocks instructions assembler) (token : Token) (line : Nat)
    (allowed : assembler.allow ⟨token, line⟩ = .ok ())
    (settles : assembler.settlesFor token = true) :
    ∃ prepared, assembler.prepare ⟨token, line⟩ = .ok prepared ∧
      Stands blocks instructions prepared := by
  obtain ⟨prepared, settle, stands⟩ := ready.settle
  refine ⟨prepared, ?_, stands⟩
  simp only [Assembler.prepare, allowed, settles, if_true, settle]

theorem Ready.push_content (ready : Ready blocks instructions assembler) (text : Text)
    (line : Nat) :
    ∃ next, assembler.push ⟨.content text, line⟩ = .ok next ∧
      Ready blocks (instructions ++ [.content (.text (Markup.escapeText text))]) next := by
  obtain ⟨prepared, prepares, stands⟩ := ready.prepare (.content text) line rfl rfl
  refine ⟨_, push_eq prepares rfl, .stands ⟨stands.header, stands.profile, stands.depth, ?_,
    stands.settled⟩⟩
  simp only [instructions_emit, stands.instructions, stands.profile]
  rfl

theorem Ready.push_element (ready : Ready blocks instructions assembler) (tag : Text)
    (line : Nat) :
    ∃ next, assembler.push ⟨.element tag, line⟩ = .ok next ∧
      Waits blocks instructions tag [] next := by
  obtain ⟨prepared, prepares, stands⟩ := ready.prepare (.element tag) line rfl rfl
  refine ⟨_, push_eq prepares rfl, stands.header, stands.profile, ⟨line, ?_⟩, stands.instructions,
    stands.settled⟩
  simp only [depth_withDepth, stands.depth]

theorem Waits.push_attribute {tag : Text} {attributes : List Attribute}
    (waits : Waits blocks instructions tag attributes assembler) (name value : Text)
    (line : Nat) :
    ∃ next, assembler.push ⟨.literalAttribute name value, line⟩ = .ok next ∧
      Waits blocks instructions tag (attributes ++ [⟨name, .literal value⟩]) next := by
  obtain ⟨first, depth⟩ := waits.depth
  have prepares : assembler.prepare ⟨.literalAttribute name value, line⟩ = .ok assembler := rfl
  have places : assembler.place ⟨.literalAttribute name value, line⟩ = .ok (assembler.withDepth
      (.element ⟨tag, attributes ++ [⟨name, .literal value⟩], false, none, first⟩ :: blocks)) := by
    simp [place, placeAttribute, depth]
  exact ⟨_, push_eq prepares places, waits.header, waits.profile, ⟨first, rfl⟩,
    waits.instructions, waits.settled⟩

theorem Waits.push_indent {tag : Text} {attributes : Document.Attributes}
    (waits : Waits blocks instructions tag attributes.pending assembler) (line : Nat) :
    ∃ next, assembler.push ⟨.indent, line⟩ = .ok next ∧
      Ready (.block tag false :: blocks)
        (instructions ++ [.openElement tag attributes.emitted]) next := by
  obtain ⟨first, depth⟩ := waits.depth
  have prepares : assembler.prepare ⟨.indent, line⟩ = .ok assembler := rfl
  have places : assembler.place ⟨.indent, line⟩ =
      .ok ((assembler.withDepth (.block tag false :: blocks)).emit
        [.openElement tag attributes.emitted]) := by
    simp [place, placeIndent, depth, waits.profile, attributes.sealed_pending]
  refine ⟨_, push_eq prepares places, .stands ⟨waits.header, waits.profile, rfl, ?_, ?_⟩⟩
  · simp only [instructions_emit, instructions_withDepth, waits.instructions]
  · exact List.forall_mem_cons.mpr ⟨rfl, waits.settled⟩

theorem Ready.push_dedent {tag : Text}
    (ready : Ready (.block tag false :: blocks) instructions assembler) (line : Nat) :
    ∃ next, assembler.push ⟨.dedent, line⟩ = .ok next ∧
      Ready blocks (instructions ++ [.closeElement tag]) next := by
  obtain ⟨prepared, prepares, stands⟩ := ready.prepare .dedent line rfl rfl
  have places : prepared.place ⟨.dedent, line⟩ =
      .ok ((prepared.withDepth blocks).emit [.closeElement tag]) := by
    simp [place, placeDedent, stands.depth, closing]
  refine ⟨_, push_eq prepares places, .stands ⟨stands.header, stands.profile, rfl, ?_, ?_⟩⟩
  · simp only [instructions_emit, instructions_withDepth, stands.instructions]
  · exact (List.forall_mem_cons.mp stands.settled).2

theorem Waits.takes_entries {tag : Text} {attributes : List Attribute}
    (waits : Waits blocks instructions tag attributes assembler)
    (entries : List (Document.Name × Document.Line)) :
    Takes assembler (entries.map fun entry => .literalAttribute entry.1.text entry.2.text)
      (Waits blocks instructions tag (attributes ++ entries.map fun entry =>
        { name := entry.1.text, value := .literal entry.2.text })) := by
  induction entries generalizing attributes assembler with
  | nil =>
      rw [List.map_nil, List.map_nil, List.append_nil]
      exact Takes.nil waits
  | cons entry others ih =>
      refine Takes.cons (fun line => waits.push_attribute entry.1.text entry.2.text line) ?_
      intro next grown
      have later := ih grown
      rwa [List.append_assoc] at later

theorem Ready.takes_element (ready : Ready blocks instructions assembler) (tag : Document.Name)
    (attributes : Document.Attributes) :
    Takes assembler (Document.Node.element tag attributes).tokens
      (Waits blocks instructions tag.text attributes.pending) :=
  Takes.cons (fun line => ready.push_element tag.text line)
    (fun _ waits => waits.takes_entries attributes.entries)

/-- The tokens of a forest add the instructions of the forest. -/
theorem Ready.takes_forest (forest : List Document.Tree)
    (ready : Ready blocks instructions assembler) :
    Takes assembler (Document.tokensAll forest)
      (Ready blocks (instructions ++ Document.instructionsAll forest)) := by
  induction forest using Document.forest_induction generalizing blocks instructions assembler with
  | nil =>
      rw [Document.instructionsAll, List.append_nil]
      exact Takes.nil ready
  | text content siblings ih =>
      refine Takes.cons (fun line => ready.push_content content.text line) ?_
      intro next grown
      have later := ih grown
      rwa [List.append_assoc] at later
  | element tag attributes children siblings ihChildren ihSiblings =>
      rw [Document.tokensAll, Document.tokens, List.append_assoc, Document.instructionsAll,
        Document.instructions]
      refine (ready.takes_element tag attributes).append ?_
      intro waiting waits
      -- A childless element still waits when its siblings begin; they will close it.
      by_cases childless : children.isEmpty = true
      · rw [if_pos childless, if_pos childless, ← List.append_assoc]
        exact ihSiblings (.waits attributes waits rfl)
      · rw [if_neg childless, if_neg childless, List.cons_append, List.cons_append,
          List.append_assoc]
        refine Takes.cons (fun line => waits.push_indent line) ?_
        intro opened readyChildren
        refine (ihChildren readyChildren).append ?_
        intro last readyLast
        refine Takes.cons (fun line => readyLast.push_dedent line) ?_
        intro closed readySiblings
        have later := ihSiblings readySiblings
        simpa [List.append_assoc] using later

theorem Ready.finish (ready : Ready [] instructions assembler) :
    assembler.finish = .ok ⟨none, Markup.Profile.xml, instructions⟩ := by
  have unblank (outer : List Construct) : assembler.depth ≠ .blank :: outer := by
    cases ready with
    | stands standing => simp [standing.depth]
    | waits attributes waiting last =>
        obtain ⟨line, depth⟩ := waiting.depth
        simp [depth]
  obtain ⟨settled, settle, stands⟩ := ready.settle
  unfold Assembler.finish
  split
  · rename_i outer blank
    exact absurd blank (unblank outer)
  · simp only [settle, stands.header, stands.profile, stands.instructions, stands.depth, closings,
      List.append_nil]

end Pushing

end Assembler

end Stencil
