import Mathlib.Data.List.Induction
import Stencil.Proofs.Assembly

/-! Opening and closing tags of an assembled program nest.

`openTags` walks over instructions with the stack of tags that are open.  Between
two lexemes the tags that the emitted instructions leave open are those of the
blocks on the assembler's stack, whatever the lexemes were; at the end every block
is closed.  Nesting is then stated by counting and matching, without the walk. -/

namespace Stencil

/-! ### Nesting by counting and matching -/

def Instruction.isOpening : Instruction → Bool
  | .openElement _ _ => true
  | _ => false

def Instruction.isClosing : Instruction → Bool
  | .closeElement _ => true
  | _ => false

namespace Nesting

def openings (instructions : List Instruction) : Nat :=
  instructions.countP Instruction.isOpening

def closings (instructions : List Instruction) : Nat :=
  instructions.countP Instruction.isClosing

theorem openings_cons (instruction : Instruction) (others : List Instruction) :
    openings (instruction :: others) =
      openings others + if instruction.isOpening then 1 else 0 :=
  List.countP_cons

theorem closings_cons (instruction : Instruction) (others : List Instruction) :
    closings (instruction :: others) =
      closings others + if instruction.isClosing then 1 else 0 :=
  List.countP_cons

/-- No initial part closes more than it opens, and all that opens is closed. -/
def Balanced (instructions : List Instruction) : Prop :=
  (∀ initial, initial <+: instructions → closings initial ≤ openings initial) ∧
    openings instructions = closings instructions

/-- Opening and closing lines are balanced, and each closing line has the tag of
the opening line it matches: the one from which on the lines are balanced. -/
structure Proper (instructions : List Instruction) : Prop where
  balanced : Balanced instructions
  matched : ∀ before tag after, instructions = before ++ .closeElement tag :: after →
    ∃ outer attributes inner,
      before = outer ++ .openElement tag attributes :: inner ∧ Balanced inner
  agree : ∀ outer opened attributes inner closed after,
    instructions = outer ++ .openElement opened attributes ::
      (inner ++ .closeElement closed :: after) →
    Balanced inner → opened = closed

/-! ### The walk with a stack of open tags -/

/-- The open tags after one instruction, innermost first. -/
def afterInstruction (instruction : Instruction) (stack : List Text) : Option (List Text) :=
  match instruction with
  | .openElement tag _ => some (tag :: stack)
  | .closeElement tag =>
      match stack with
      | [] => none
      | innermost :: outer => if innermost = tag then some outer else none
  | _ => some stack

/-- The open tags after instructions, or nothing if a closing line does not match. -/
def openTags (stack : List Text) : List Instruction → Option (List Text)
  | [] => some stack
  | instruction :: others =>
      (afterInstruction instruction stack).bind fun next => openTags next others

theorem openTags_append (stack : List Text) (first second : List Instruction) :
    openTags stack (first ++ second) =
      (openTags stack first).bind fun middle => openTags middle second := by
  induction first generalizing stack with
  | nil => rfl
  | cons instruction others ih =>
      simp only [List.cons_append, openTags, Option.bind_assoc]
      cases afterInstruction instruction stack with
      | none => rfl
      | some next => exact ih next

theorem afterInstruction_of_plain {instruction : Instruction} (stack : List Text)
    (noOpening : instruction.isOpening = false) (noClosing : instruction.isClosing = false) :
    afterInstruction instruction stack = some stack := by
  cases instruction <;> first | rfl | contradiction

theorem openTags_of_plain (stack : List Text) {instructions : List Instruction}
    (plain : ∀ instruction ∈ instructions,
      instruction.isOpening = false ∧ instruction.isClosing = false) :
    openTags stack instructions = some stack := by
  induction instructions with
  | nil => rfl
  | cons instruction others ih =>
      have first := plain instruction (by simp)
      have rest := ih (fun other member => plain other (by simp [member]))
      simp [openTags, afterInstruction_of_plain stack first.1 first.2, rest]

theorem length_openTags {stack reached : List Text} {instructions : List Instruction}
    (walked : openTags stack instructions = some reached) :
    reached.length + closings instructions = stack.length + openings instructions := by
  induction instructions generalizing stack with
  | nil =>
      cases walked
      rfl
  | cons instruction others ih =>
      rw [openTags, Option.bind_eq_some_iff] at walked
      obtain ⟨next, stepped, walked⟩ := walked
      have counted := ih walked
      rw [openings_cons, closings_cons]
      cases instruction with
      | openElement tag attributes =>
          cases stepped
          simp only [List.length_cons] at counted
          simp [Instruction.isOpening, Instruction.isClosing]
          omega
      | closeElement tag =>
          cases stack with
          | nil => contradiction
          | cons innermost outer =>
              simp only [afterInstruction] at stepped
              split at stepped
              · cases stepped
                simp [Instruction.isOpening, Instruction.isClosing]
                omega
              · contradiction
      | _ =>
          cases stepped
          simpa [Instruction.isOpening, Instruction.isClosing] using counted

theorem openTags_of_prefix {stack : List Text} {initial instructions : List Instruction}
    (shorter : initial <+: instructions) (walks : (openTags stack instructions).isSome) :
    ∃ reached, openTags stack initial = some reached := by
  obtain ⟨rest, rfl⟩ := shorter
  rw [openTags_append] at walks
  cases walked : openTags stack initial with
  | none =>
      rw [walked] at walks
      contradiction
  | some reached => exact ⟨reached, rfl⟩

theorem balanced_of_openTags {instructions : List Instruction}
    (walked : openTags [] instructions = some []) : Balanced instructions := by
  constructor
  · intro initial shorter
    obtain ⟨reached, walkedInitial⟩ := openTags_of_prefix shorter (by rw [walked]; rfl)
    have counted := length_openTags walkedInitial
    simp only [List.length_nil] at counted
    omega
  · have counted := length_openTags walked
    simpa using counted.symm

/-- Instructions that never close more than they open leave the stack they start
on as it is, under what they open. -/
theorem openTags_above {stack reached : List Text} {instructions : List Instruction}
    (enough : ∀ initial, initial <+: instructions → closings initial ≤ openings initial)
    (walked : openTags stack instructions = some reached) :
    ∃ opened, reached = opened ++ stack := by
  induction instructions using List.reverseRecOn generalizing reached with
  | nil =>
      cases walked
      exact ⟨[], rfl⟩
  | append_singleton earlier last ih =>
      rw [openTags_append, Option.bind_eq_some_iff] at walked
      obtain ⟨middle, walkedEarlier, walkedLast⟩ := walked
      obtain ⟨opened, rfl⟩ :=
        ih (fun initial shorter => enough initial (shorter.trans (List.prefix_append _ _)))
          walkedEarlier
      rw [openTags, Option.bind_eq_some_iff] at walkedLast
      obtain ⟨next, stepped, walkedEnd⟩ := walkedLast
      cases walkedEnd
      cases last with
      | openElement tag attributes =>
          cases stepped
          exact ⟨tag :: opened, rfl⟩
      | closeElement tag =>
          -- the count of the whole list says that something is open above `stack`
          have counted := length_openTags walkedEarlier
          have whole := enough _ List.prefix_rfl
          cases opened with
          | nil =>
              simp [openings, closings, Instruction.isOpening, Instruction.isClosing]
                at counted whole
              omega
          | cons innermost outer =>
              simp only [List.cons_append, afterInstruction] at stepped
              split at stepped
              · cases stepped
                exact ⟨outer, rfl⟩
              · contradiction
      | _ =>
          cases stepped
          exact ⟨opened, rfl⟩

theorem openTags_of_balanced {stack reached : List Text} {instructions : List Instruction}
    (balanced : Balanced instructions) (walked : openTags stack instructions = some reached) :
    reached = stack := by
  obtain ⟨opened, rfl⟩ := openTags_above balanced.1 walked
  have counted := length_openTags walked
  have total := balanced.2
  have nothing : opened = [] := by
    apply List.length_eq_zero_iff.mp
    rw [List.length_append] at counted
    omega
  rw [nothing, List.nil_append]

/-- What lies under the stack does not matter to a walk that succeeds without it. -/
theorem openTags_frame {stack reached : List Text} {instructions : List Instruction}
    (below : List Text) (walked : openTags stack instructions = some reached) :
    openTags (stack ++ below) instructions = some (reached ++ below) := by
  induction instructions generalizing stack with
  | nil =>
      cases walked
      rfl
  | cons instruction others ih =>
      rw [openTags, Option.bind_eq_some_iff] at walked
      obtain ⟨next, stepped, walked⟩ := walked
      have framed : afterInstruction instruction (stack ++ below) = some (next ++ below) := by
        cases instruction with
        | closeElement tag =>
            cases stack with
            | nil => contradiction
            | cons innermost outer =>
                simp only [afterInstruction] at stepped
                split at stepped
                · rename_i same
                  cases stepped
                  simp [afterInstruction, same]
                · contradiction
        | _ =>
            cases stepped
            rfl
      rw [openTags, framed]
      exact ih walked

/-- Instructions cut at the opening lines of the elements that they leave open. -/
inductive LeavesOpen : List Text → List Instruction → Prop
  | nothing {inner : List Instruction} (closed : openTags [] inner = some []) :
      LeavesOpen [] inner
  | element {tag : Text} {stack : List Text} {attributes : List Attribute}
      {outer inner : List Instruction} (before : LeavesOpen stack outer)
      (closed : openTags [] inner = some []) :
      LeavesOpen (tag :: stack) (outer ++ .openElement tag attributes :: inner)

theorem LeavesOpen.append {stack : List Text} {before after : List Instruction}
    (leaves : LeavesOpen stack before) (closed : openTags [] after = some []) :
    LeavesOpen stack (before ++ after) := by
  cases leaves with
  | nothing closedBefore =>
      apply LeavesOpen.nothing
      rw [openTags_append, closedBefore]
      exact closed
  | element outside closedInner =>
      rw [List.append_assoc, List.cons_append]
      apply LeavesOpen.element outside
      rw [openTags_append, closedInner]
      exact closed

/-- Every walk from no open tags can be cut in this way. -/
theorem leavesOpen_of_openTags {stack : List Text} {instructions : List Instruction}
    (walked : openTags [] instructions = some stack) : LeavesOpen stack instructions := by
  induction instructions using List.reverseRecOn generalizing stack with
  | nil =>
      cases walked
      exact .nothing rfl
  | append_singleton earlier last ih =>
      rw [openTags_append, Option.bind_eq_some_iff] at walked
      obtain ⟨middle, walkedEarlier, walkedLast⟩ := walked
      rw [openTags, Option.bind_eq_some_iff] at walkedLast
      obtain ⟨next, stepped, walkedEnd⟩ := walkedLast
      cases walkedEnd
      have leaves := ih walkedEarlier
      cases last with
      | openElement tag attributes =>
          cases stepped
          exact .element leaves rfl
      | closeElement tag =>
          cases leaves with
          | nothing closed => contradiction
          | @element innermost outerTags attributes outer inner before closed =>
              simp only [afterInstruction] at stepped
              split at stepped
              · rename_i same
                subst tag
                cases stepped
                -- the last line closes the innermost element, which becomes part of
                -- what is closed after the next one
                rw [List.append_assoc]
                apply before.append
                have within := openTags_frame [innermost] closed
                rw [List.nil_append] at within
                simp [openTags, afterInstruction, openTags_append, within]
              · contradiction
      | _ =>
          cases stepped
          exact leaves.append rfl

/-- A walk from no open tags back to none is over properly nested instructions. -/
theorem proper_of_openTags {instructions : List Instruction}
    (walked : openTags [] instructions = some []) : Proper instructions where
  balanced := balanced_of_openTags walked
  matched := by
    intro before tag after split
    rw [split, openTags_append, Option.bind_eq_some_iff] at walked
    obtain ⟨reached, walkedBefore, walkedRest⟩ := walked
    rw [openTags, Option.bind_eq_some_iff] at walkedRest
    obtain ⟨next, stepped, -⟩ := walkedRest
    cases leavesOpen_of_openTags walkedBefore with
    | nothing closed => contradiction
    | @element innermost outerTags attributes outer inner outside closed =>
        simp only [afterInstruction] at stepped
        split at stepped
        · rename_i same
          subst tag
          exact ⟨outer, attributes, inner, rfl, balanced_of_openTags closed⟩
        · contradiction
  agree := by
    intro outer opened attributes inner closed after split balanced
    rw [split, openTags_append, Option.bind_eq_some_iff] at walked
    obtain ⟨reached, -, walkedRest⟩ := walked
    simp only [openTags, afterInstruction, Option.bind_some] at walkedRest
    rw [openTags_append, Option.bind_eq_some_iff] at walkedRest
    obtain ⟨atClose, walkedInner, walkedRest⟩ := walkedRest
    have same := openTags_of_balanced balanced walkedInner
    subst atClose
    rw [openTags, Option.bind_eq_some_iff] at walkedRest
    obtain ⟨next, stepped, -⟩ := walkedRest
    simp only [afterInstruction] at stepped
    split at stepped
    · assumption
    · contradiction

end Nesting

/-! ### Assembled programs -/

namespace Assembler

open Nesting (openTags openTags_append openTags_of_plain)

def blockTags : List Construct → List Text
  | [] => []
  | .block tag _ :: outer => tag :: blockTags outer
  | _ :: outer => blockTags outer

/-- What the emitted instructions leave open are the blocks on the stack. -/
def Tracks (assembler : Assembler) : Prop :=
  openTags [] assembler.instructions = some (blockTags assembler.depth)

private theorem Tracks.plain {assembler next : Assembler} {instructions : List Instruction}
    (tracks : assembler.Tracks)
    (emitted : next.instructions = assembler.instructions ++ instructions)
    (plain : ∀ instruction ∈ instructions,
      instruction.isOpening = false ∧ instruction.isClosing = false)
    (sameBlocks : blockTags next.depth = blockTags assembler.depth) : next.Tracks := by
  unfold Tracks at tracks ⊢
  rw [emitted, openTags_append, tracks, sameBlocks]
  exact openTags_of_plain _ plain

private theorem Tracks.silent {assembler next : Assembler} (tracks : assembler.Tracks)
    (sameInstructions : next.instructions = assembler.instructions)
    (sameBlocks : blockTags next.depth = blockTags assembler.depth) : next.Tracks := by
  unfold Tracks at tracks ⊢
  rw [sameInstructions, sameBlocks]
  exact tracks

theorem Tracks.settled {assembler next : Assembler} (tracks : assembler.Tracks)
    (settled : Settled assembler next) : next.Tracks := by
  cases settled with
  | element top complete =>
      exact tracks.plain rfl (by simp [Instruction.isOpening, Instruction.isClosing])
        (by simp [blockTags, top])
  | comment top =>
      exact tracks.plain rfl (by simp [Instruction.isOpening, Instruction.isClosing])
        (by simp [blockTags, top])
  | blank top =>
      exact tracks.plain rfl (by simp [Instruction.isOpening, Instruction.isClosing])
        (by simp [blockTags, top])
  | directive top declared =>
      exact tracks.silent rfl (by simp [blockTags, top])
  | block top => exact tracks
  | empty top => exact tracks

private theorem plain_of_leaf {profile : Markup.Profile} {token : Token}
    {instructions : List Instruction} (given : token.leaf? profile = some instructions) :
    ∀ instruction ∈ instructions,
      instruction.isOpening = false ∧ instruction.isClosing = false := by
  intro instruction member
  cases token with
  | filter name lines =>
      simp only [Token.leaf?] at given
      split at given
      · cases given
        obtain ⟨line, -, rfl⟩ := List.mem_map.mp member
        unfold filterLine
        split <;> exact ⟨rfl, rfl⟩
      · contradiction
  | content text =>
      cases given
      simp only [List.mem_singleton] at member
      subst instruction
      exact ⟨rfl, rfl⟩
  | codeContent code escape =>
      cases given
      simp only [List.mem_singleton] at member
      subst instruction
      exact ⟨rfl, rfl⟩
  | rawCode code =>
      cases given
      simp only [List.mem_singleton] at member
      subst instruction
      exact ⟨rfl, rfl⟩
  | _ => contradiction

private theorem openTags_closing (tag : Text) (blankBeforeClose : Bool) (outer : List Text) :
    openTags (tag :: outer) (closing tag blankBeforeClose) = some outer := by
  cases blankBeforeClose <;> simp [closing, openTags, Nesting.afterInstruction]

theorem Tracks.placed {token : Token} {line : Nat} {assembler next : Assembler}
    (tracks : assembler.Tracks) (placed : Placed token line assembler next) : next.Tracks := by
  cases placed with
  | element tag line => exact tracks.silent rfl (by simp [blockTags])
  | attributed given top growing =>
      exact tracks.silent rfl (by simp [blockTags, top])
  | declared top => exact tracks.silent rfl (by simp [blockTags, top])
  | selfClose top => exact tracks.silent rfl (by simp [blockTags, top])
  | data given top settled =>
      refine Tracks.settled ?_ settled
      exact tracks.silent rfl (by simp [blockTags, top])
  | leaf given => exact tracks.plain rfl (plain_of_leaf given) rfl
  | joinedComment top =>
      exact tracks.silent rfl (by simp [blockTags, top])
  | comment top => exact tracks.silent rfl (by simp [blockTags])
  | directive kind line => exact tracks.silent rfl (by simp [blockTags])
  | indent top growing complete =>
      unfold Tracks at tracks ⊢
      simp only [instructions_emit, instructions_withDepth]
      rw [openTags_append, tracks]
      simp [blockTags, top, openTags, Nesting.afterInstruction]
  | @dedent _ _ tag blankBeforeClose outer top =>
      unfold Tracks at tracks ⊢
      simp only [instructions_emit, instructions_withDepth]
      rw [openTags_append, tracks]
      simp [blockTags, top, openTags_closing]
  | markedBlank after top =>
      exact tracks.plain rfl (by simp [Instruction.isOpening, Instruction.isClosing])
        (by simp [blockTags, top])
  | writtenBlank after top =>
      exact tracks.plain rfl (by simp [Instruction.isOpening, Instruction.isClosing]) rfl
  | waitingBlank after => exact tracks.silent rfl (by simp [blockTags])

theorem kept_tracks : Kept (fun _ => True) Tracks where
  settled := Tracks.settled
  placed := fun _ tracks placed => tracks.placed placed
  recorded := fun _ _ tracks => tracks.silent rfl rfl
  dropped := fun tracks top => tracks.silent rfl (by simp [blockTags, top])

theorem openTags_closings (depth : List Construct) :
    openTags (blockTags depth) (closings depth) = some [] := by
  induction depth with
  | nil => rfl
  | cons construct outer ih =>
      cases construct with
      | block tag blankBeforeClose =>
          simp only [blockTags, closings]
          rw [openTags_append, openTags_closing]
          exact ih
      | _ => exact ih

end Assembler

namespace Program

theorem openTags_ofItems {items : List (Except Fault Lexeme)} {program : Program}
    (assembled : ofItems items = .ok program) :
    Nesting.openTags [] program.instructions = some [] := by
  obtain ⟨assembler, tracks, rfl⟩ :=
    Assembler.kept_tracks.ofItems (fun _ _ => trivial)
      (show Assembler.Tracks Assembler.start from rfl) assembled
  simp only
  rw [Nesting.openTags_append, tracks]
  exact Assembler.openTags_closings assembler.depth

/-- Opening and closing lines of an assembled program nest properly, for every list
of lexemes that can be assembled. -/
theorem proper_ofLexemes (lexemes : List Lexeme) (program : Program)
    (assembled : ofLexemes lexemes = .ok program) : Nesting.Proper program.instructions :=
  Nesting.proper_of_openTags (openTags_ofItems assembled)

/-- Elements that no dedent closes are closed at the end, the innermost first. -/
theorem proper_ofLexemes_unclosed :
    ofLexemes [⟨.element ['a'], 1⟩, ⟨.indent, 2⟩, ⟨.blankLine, 2⟩, ⟨.element ['b'], 2⟩,
        ⟨.indent, 3⟩, ⟨.content ['x'], 3⟩] =
      .ok ⟨none, .xml, [.openElement ['a'] [], .blank, .openElement ['b'] [],
        .content (.text ['x']), .closeElement ['b'], .blank, .closeElement ['a']]⟩ ∧
    Nesting.Proper [.openElement ['a'] [], .blank, .openElement ['b'] [],
        .content (.text ['x']), .closeElement ['b'], .blank, .closeElement ['a']] := by
  refine ⟨rfl, ?_⟩
  exact proper_ofLexemes
    [⟨.element ['a'], 1⟩, ⟨.indent, 2⟩, ⟨.blankLine, 2⟩, ⟨.element ['b'], 2⟩, ⟨.indent, 3⟩,
      ⟨.content ['x'], 3⟩] ⟨none, .xml, _⟩ rfl

end Program

end Stencil
