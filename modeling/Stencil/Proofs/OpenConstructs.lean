import Stencil.Proofs.InstructionOrder
import Stencil.Proofs.Nesting

/-! The stack of an assembler between two lexemes.

Whatever was taken, at most one construct waits, and it waits on top of elements with children.
An element on the stack has no data, since data ends it at once.  The elements with children are
those whose opening line is emitted and whose closing line is not.  At the end what waits is closed
first; so only elements with children are left for the closing lines, and each of them gets its
own. -/

namespace Stencil
namespace Assembler

variable {assembler next : Assembler} {lexemes : List Lexeme}

/-! ### Taking the first lexemes -/

/-- The assembler that has taken lexemes up to some place, whether the next one can be taken or
not. -/
def Reached (lexemes : List Lexeme) (assembler : Assembler) : Prop :=
  ∃ taken, taken <+: lexemes ∧ start.pushAll (taken.map .ok) = .ok assembler

theorem Ordered.of_pushAll (ordered : Ordered assembler)
    (pushed : assembler.pushAll (lexemes.map .ok) = .ok next) : Ordered next := by
  induction lexemes generalizing assembler with
  | nil =>
      cases pushed
      exact ordered
  | cons lexeme others ih =>
      simp only [List.map_cons, Assembler.pushAll] at pushed
      split at pushed
      · contradiction
      · rename_i middle accepted
        exact ih (ordered.push accepted).ordered pushed

theorem Reached.ordered (reached : Reached lexemes assembler) : Ordered assembler := by
  obtain ⟨taken, -, pushed⟩ := reached
  have started : start.Ordered := ordered_of_blocks rfl (by simp [start])
  exact started.of_pushAll pushed

theorem Reached.tracks (reached : Reached lexemes assembler) : Tracks assembler := by
  obtain ⟨taken, -, pushed⟩ := reached
  exact kept_tracks.pushAll (fun _ _ => trivial) (show start.Tracks from rfl) pushed

/-! ### What is on the stack -/

/-- Only what waits on top can be an element without children, and it has no data yet. -/
theorem Ordered.data_eq_none {element : PendingElement} (ordered : Ordered assembler)
    (member : .element element ∈ assembler.depth) : element.data = none := by
  obtain ⟨-, below, growing⟩ := ordered
  cases top : assembler.depth with
  | nil =>
      rw [top] at member
      contradiction
  | cons construct outer =>
      rw [top] at member below growing
      rcases List.mem_cons.mp member with rfl | further
      · exact growing element rfl
      · exact absurd (below _ further) Bool.false_ne_true

theorem length_blockTags (stack : List Construct) :
    (blockTags stack).length = stack.countP Construct.isBlock := by
  induction stack with
  | nil => rfl
  | cons construct outer ih =>
      rw [List.countP_cons, ← ih]
      cases construct <;> rfl

theorem Tracks.openings_eq (tracks : assembler.Tracks) :
    Nesting.openings assembler.instructions =
      Nesting.closings assembler.instructions + assembler.depth.countP Construct.isBlock := by
  have counted := Nesting.length_openTags tracks
  rw [length_blockTags, List.length_nil] at counted
  omega

/-! ### The end -/

/-- Elements with children are closed one by one, and nothing else is. -/
theorem closings_of_blocks {stack : List Construct}
    (each : ∀ construct ∈ stack, construct.isBlock = true) :
    ∃ blocks : List (Text × Bool),
      stack = blocks.map (fun block => .block block.1 block.2) ∧
        closings stack = blocks.flatMap fun block => closing block.1 block.2 := by
  induction stack with
  | nil => exact ⟨[], rfl, rfl⟩
  | cons construct outer ih =>
      obtain ⟨isBlock, rest⟩ := List.forall_mem_cons.mp each
      obtain ⟨blocks, same, closed⟩ := ih rest
      cases construct with
      | block tag blankBeforeClose =>
          refine ⟨(tag, blankBeforeClose) :: blocks, ?_, ?_⟩
          · rw [List.map_cons, ← same]
          · rw [List.flatMap_cons, ← closed]
            rfl
      | _ => contradiction

/-- The stack of an assembler after any number of lexemes: below the innermost construct there
are elements with children only, no element on it has data, and the elements with children are
as many as the opening lines that were emitted without a closing line.  Once the innermost
construct is closed at the end, the stack consists of elements with children, and all of them are
written to the program. -/
theorem depth_reached (reached : Reached lexemes assembler) :
    (∀ construct ∈ assembler.depth.tail, construct.isBlock = true) ∧
      (∀ element, .element element ∈ assembler.depth → element.data = none) ∧
      Nesting.openings assembler.instructions =
        Nesting.closings assembler.instructions + assembler.depth.countP Construct.isBlock ∧
      ∀ settled, assembler.withoutBlank.settle = .ok settled →
        ∃ blocks : List (Text × Bool),
          settled.depth = blocks.map (fun block => .block block.1 block.2) ∧
            assembler.finish =
              .ok { header := settled.header
                    profile := settled.profile
                    instructions := settled.instructions ++
                      blocks.flatMap fun block => closing block.1 block.2 } := by
  have ordered := reached.ordered
  refine ⟨ordered.below, fun _ => ordered.data_eq_none, reached.tracks.openings_eq, ?_⟩
  intro settled settles
  obtain ⟨-, -, each⟩ := ordered.withoutBlank.1.settled (settled_of_settle settles)
  obtain ⟨blocks, same, closed⟩ := closings_of_blocks each
  refine ⟨blocks, same, ?_⟩
  rw [finish_eq, settles, ← closed]
  rfl

/-- An element waits inside another one; the second dedent behind it cannot be taken. -/
theorem depth_reached_waiting :
    ∃ assembler, Reached [⟨.element ['a'], 1⟩, ⟨.indent, 2⟩, ⟨.element ['b'], 2⟩, ⟨.dedent, 3⟩,
        ⟨.dedent, 3⟩] assembler ∧
      assembler.depth = [.element (newElement ['b'] 2), .block ['a'] false] ∧
      Nesting.openings assembler.instructions = Nesting.closings assembler.instructions + 1 := by
  have reached : Reached [⟨.element ['a'], 1⟩, ⟨.indent, 2⟩, ⟨.element ['b'], 2⟩, ⟨.dedent, 3⟩,
      ⟨.dedent, 3⟩] ⟨.xml, none, [.openElement ['a'] []],
        [.element (newElement ['b'] 2), .block ['a'] false], true, some .element⟩ :=
    ⟨[⟨.element ['a'], 1⟩, ⟨.indent, 2⟩, ⟨.element ['b'], 2⟩], ⟨_, rfl⟩, rfl⟩
  exact ⟨_, reached, rfl, (depth_reached reached).2.2.1⟩

end Assembler
end Stencil
