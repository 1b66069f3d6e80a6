import Stencil.Proofs.Outline

/-! Assembling the tokens of an outline gives the program that it is translated to.

An assembler closes a construct only when something follows it.  `Rests` therefore says
what is there once the waiting construct is closed, and every item adds its instructions
to that.  The elements with children below it stay as they are until their dedent. -/

namespace Stencil

open Outline

namespace Outline

theorem Attributes.sealed_eq (attributes : Attributes) (profile : Markup.Profile) (tag : Text)
    (selfClosed : Bool) (data : Option Fragment) (line : Nat) :
    PendingElement.sealed profile ⟨tag, attributes.entries, selfClosed, data, line⟩ =
      .ok (attributes.emitted profile) := by
  simp only [PendingElement.sealed, attributes.seals]
  rfl

end Outline

theorem Prologue.ofDirective_eq (prologue : Prologue) (line : Nat) :
    Markup.Header.ofDirective line prologue.directive =
      .ok (prologue.header, prologue.profile) := by
  obtain ⟨other, declared⟩ := prologue.declares
  unfold Markup.Header.ofDirective at declared ⊢
  split at declared
  · contradiction
  · split at declared
    · contradiction
    · exact declared

namespace Assembler

/-! ### Closed and waiting assemblers -/

/-- Nothing waits: the stack holds the given elements with children. -/
structure Closed (header : Option Markup.Header) (profile : Markup.Profile)
    (blocks : List Construct) (instructions : List Instruction) (assembler : Assembler) :
    Prop where
  header : assembler.header = header
  profile : assembler.profile = profile
  depth : assembler.depth = blocks
  instructions : assembler.instructions = instructions
  settled : ∀ construct ∈ blocks, construct.isBlock = true

/-- Closing what waits gives a closed assembler. -/
def Rests (header : Option Markup.Header) (profile : Markup.Profile)
    (blocks : List Construct) (instructions : List Instruction) (assembler : Assembler) :
    Prop :=
  ∃ closed, assembler.settle = .ok closed ∧ Closed header profile blocks instructions closed

structure Grows (header : Option Markup.Header) (profile : Markup.Profile)
    (blocks : List Construct) (instructions : List Instruction) (tag : Text)
    (attributes : List Attribute) (assembler : Assembler) : Prop where
  header : assembler.header = header
  profile : assembler.profile = profile
  depth : ∃ line, assembler.depth = .element ⟨tag, attributes, false, none, line⟩ :: blocks
  instructions : assembler.instructions = instructions
  settled : ∀ construct ∈ blocks, construct.isBlock = true
  previous : assembler.previous ≠ some .indent

/-- A comment would not join one that waits. -/
def Uncommented (assembler : Assembler) : Prop :=
  ∀ lines outer, assembler.depth ≠ .comment lines :: outer

/-- An item has ended, and `comment` says whether it may be a comment that waits. -/
structure Follows (header : Option Markup.Header) (profile : Markup.Profile)
    (blocks : List Construct) (instructions : List Instruction) (comment : Bool)
    (assembler : Assembler) : Prop where
  rests : Rests header profile blocks instructions assembler
  previous : assembler.previous ≠ some .indent
  written : ∀ outer, assembler.depth ≠ .blank :: outer
  uncommented : comment = false → assembler.Uncommented

section Pushing

variable {header : Option Markup.Header} {profile : Markup.Profile} {blocks : List Construct}
  {instructions : List Instruction} {assembler : Assembler}

theorem Closed.settle (closed : Closed header profile blocks instructions assembler) :
    assembler.settle = .ok assembler := by
  have depth := closed.depth
  unfold Assembler.settle
  cases blocks with
  | nil => rw [depth]
  | cons construct outer =>
      have isBlock := closed.settled construct List.mem_cons_self
      cases construct with
      | block tag blankBeforeClose => rw [depth]
      | _ => contradiction

theorem Closed.rests (closed : Closed header profile blocks instructions assembler) :
    Rests header profile blocks instructions assembler :=
  ⟨assembler, closed.settle, closed⟩

theorem Closed.ne_waiting {construct : Construct} {outer : List Construct}
    (closed : Closed header profile blocks instructions assembler)
    (waits : construct.isBlock = false) : assembler.depth ≠ construct :: outer := by
  intro top
  rw [closed.depth] at top
  have isBlock := closed.settled construct (by simp [top])
  rw [waits] at isBlock
  contradiction

theorem Closed.follows (closed : Closed header profile blocks instructions assembler)
    (previous : assembler.previous ≠ some .indent) (comment : Bool) :
    Follows header profile blocks instructions comment assembler :=
  ⟨closed.rests, previous, fun _ => closed.ne_waiting rfl, fun _ _ _ => closed.ne_waiting rfl⟩

theorem Rests.prepare (rests : Rests header profile blocks instructions assembler)
    (token : Token) (line : Nat) (allowed : assembler.allow ⟨token, line⟩ = .ok ())
    (settles : assembler.settlesFor token = true) :
    ∃ prepared, assembler.prepare ⟨token, line⟩ = .ok prepared ∧
      Closed header profile blocks instructions prepared ∧
      prepared.previous = assembler.previous := by
  obtain ⟨closed, settle, stands⟩ := rests
  refine ⟨closed, ?_, stands, previous_settle settle⟩
  simp only [Assembler.prepare, allowed, settles, if_true, settle]

/-! ### Leaves -/

theorem Rests.push_comment (rests : Rests header profile blocks instructions assembler)
    (fresh : assembler.Uncommented) (lines : List Text) (line : Nat) :
    ∃ next, assembler.push ⟨.comment lines, line⟩ = .ok next ∧
      Follows header profile blocks
        (instructions ++ [.comment (lines.map profile.escapeComment)]) true next := by
  have settles : assembler.settlesFor (.comment lines) = true := by
    simp only [settlesFor]
    split
    · rename_i earlier outer top
      exact absurd top (fresh earlier outer)
    · rfl
  obtain ⟨prepared, prepares, closed, -⟩ := rests.prepare (.comment lines) line rfl settles
  have places : prepared.place ⟨.comment lines, line⟩ =
      .ok (prepared.withDepth (.comment lines :: blocks)) := by
    simp only [place, placeComment]
    split
    · rename_i earlier outer top
      exact absurd top (closed.ne_waiting rfl)
    · rw [closed.depth]
  refine ⟨_, push_eq prepares places, ⟨?_, by simp [Token.kind], by simp, by simp⟩⟩
  refine ⟨_, rfl, closed.header, closed.profile, rfl, ?_, closed.settled⟩
  simp only [instructions_emit, instructions_withDepth, profile_withDepth, closed.instructions,
    closed.profile]

theorem Rests.push_leaf (rests : Rests header profile blocks instructions assembler)
    (leaf : Leaf) (fresh : leaf.isComment = true → assembler.Uncommented) (line : Nat) :
    ∃ next, assembler.push ⟨leaf.token, line⟩ = .ok next ∧
      Follows header profile blocks (instructions ++ leaf.instructions profile) leaf.isComment
        next := by
  -- every leaf but a comment is emitted at once
  have emitted (token : Token) (more : List Instruction)
      (settles : assembler.settlesFor token = true)
      (allowed : assembler.allow ⟨token, line⟩ = .ok ()) (kind : token.kind ≠ .indent)
      (given : ∀ prepared : Assembler, prepared.profile = profile →
        prepared.place ⟨token, line⟩ = .ok (prepared.emit more)) :
      ∃ next, assembler.push ⟨token, line⟩ = .ok next ∧
        Follows header profile blocks (instructions ++ more) false next := by
    obtain ⟨prepared, prepares, closed, -⟩ := rests.prepare token line allowed settles
    refine ⟨_, push_eq prepares (given prepared closed.profile), ?_⟩
    apply Closed.follows
    · refine ⟨closed.header, closed.profile, closed.depth, ?_, closed.settled⟩
      simp only [instructions_emit, closed.instructions]
    · simpa using kind
  cases leaf with
  | content text =>
      refine emitted (.content text) _ rfl rfl (by simp [Token.kind]) ?_
      rintro prepared rfl
      rfl
  | codeContent expression escape =>
      exact emitted (.codeContent expression escape) _ rfl rfl (by simp [Token.kind])
        fun _ _ => rfl
  | rawCode statement =>
      exact emitted (.rawCode statement) _ rfl rfl (by simp [Token.kind]) fun _ _ => rfl
  | code lines =>
      exact emitted (.filter "code".toList lines) _ rfl rfl (by simp [Token.kind]) fun _ _ => rfl
  | comment lines => exact rests.push_comment (fresh rfl) lines line

/-! ### Elements -/

theorem Rests.push_element (rests : Rests header profile blocks instructions assembler)
    (tag : Text) (line : Nat) :
    ∃ next, assembler.push ⟨.element tag, line⟩ = .ok next ∧
      Grows header profile blocks instructions tag [] next := by
  obtain ⟨prepared, prepares, closed, -⟩ := rests.prepare (.element tag) line rfl rfl
  refine ⟨_, push_eq prepares rfl, closed.header, closed.profile, ⟨line, ?_⟩,
    closed.instructions, closed.settled, by simp [Token.kind]⟩
  simp only [depth_withDepth, closed.depth]

section Growing

variable {tag : Text}

theorem Grows.push_attribute {attributes : List Attribute}
    (grows : Grows header profile blocks instructions tag attributes assembler)
    (entry : Attribute) (line : Nat) :
    ∃ next, assembler.push ⟨entry.token, line⟩ = .ok next ∧
      Grows header profile blocks instructions tag (attributes ++ [entry]) next := by
  obtain ⟨first, depth⟩ := grows.depth
  obtain ⟨name, value⟩ := entry
  have places (given : Attribute) : assembler.placeAttribute given line = .ok (assembler.withDepth
      (.element ⟨tag, attributes ++ [given], false, none, first⟩ :: blocks)) := by
    simp [placeAttribute, depth]
  have grown (given : Attribute) (token : Token) (kind : token.kind ≠ .indent)
      (pushed : assembler.push ⟨token, line⟩ = .ok
        { assembler.withDepth
            (.element ⟨tag, attributes ++ [given], false, none, first⟩ :: blocks) with
          begun := assembler.begun || !token.isStructural
          previous := some token.kind }) :
      ∃ next, assembler.push ⟨token, line⟩ = .ok next ∧
        Grows header profile blocks instructions tag (attributes ++ [given]) next :=
    ⟨_, pushed, grows.header, grows.profile, ⟨first, rfl⟩, grows.instructions, grows.settled,
      by simpa using kind⟩
  cases value with
  | literal text =>
      refine grown ⟨name, .literal text⟩ (.literalAttribute name text) (by simp [Token.kind]) ?_
      exact push_eq rfl (places ⟨name, .literal text⟩)
  | code code =>
      refine grown ⟨name, .code code⟩ (.codeAttribute name code) (by simp [Token.kind]) ?_
      exact push_eq rfl (places ⟨name, .code code⟩)

theorem Grows.takes_attributes {attributes : List Attribute}
    (grows : Grows header profile blocks instructions tag attributes assembler)
    (entries : List Attribute) :
    Takes assembler (entries.map Attribute.token)
      (Grows header profile blocks instructions tag (attributes ++ entries)) := by
  induction entries generalizing attributes assembler with
  | nil =>
      rw [List.append_nil]
      exact Takes.nil grows
  | cons entry others ih =>
      refine Takes.cons (fun line => grows.push_attribute entry line) ?_
      intro next grown
      have later := ih grown
      rwa [List.append_assoc] at later

theorem rests_of_element (attributes : Attributes) {selfClosed : Bool} {data : Option Fragment}
    {line : Nat}
    (depth : assembler.depth =
      .element ⟨tag, attributes.entries, selfClosed, data, line⟩ :: blocks)
    (closed : Closed header profile blocks instructions (assembler.withDepth blocks)) :
    Rests header profile blocks
      (instructions ++ [.element tag (attributes.emitted profile) data]) assembler := by
  have profiled : assembler.profile = profile := closed.profile
  have settle : assembler.settle = .ok ((assembler.withDepth blocks).emit
      [.element tag (attributes.emitted profile) data]) := by
    simp only [Assembler.settle, depth, profiled, attributes.sealed_eq]
  refine ⟨_, settle, closed.header, closed.profile, rfl, ?_, closed.settled⟩
  rw [instructions_emit, closed.instructions]

theorem Grows.closed {attributes : List Attribute}
    (grows : Grows header profile blocks instructions tag attributes assembler) :
    Closed header profile blocks instructions (assembler.withDepth blocks) :=
  ⟨grows.header, grows.profile, rfl, grows.instructions, grows.settled⟩

theorem Grows.follows {attributes : Attributes}
    (grows : Grows header profile blocks instructions tag attributes.entries assembler) :
    Follows header profile blocks
      (instructions ++ [.element tag (attributes.emitted profile) none]) false assembler := by
  obtain ⟨line, depth⟩ := grows.depth
  refine ⟨rests_of_element attributes depth grows.closed, grows.previous, by simp [depth], ?_⟩
  intro _ lines outer
  simp [depth]

theorem Grows.push_selfClose {attributes : Attributes}
    (grows : Grows header profile blocks instructions tag attributes.entries assembler)
    (line : Nat) :
    ∃ next, assembler.push ⟨.selfClose, line⟩ = .ok next ∧
      Follows header profile blocks
        (instructions ++ [.element tag (attributes.emitted profile) none]) false next := by
  obtain ⟨first, depth⟩ := grows.depth
  have places : assembler.place ⟨.selfClose, line⟩ = .ok (assembler.withDepth
      (.element ⟨tag, attributes.entries, true, none, first⟩ :: blocks)) := by
    simp only [place, placeSelfClose, depth]
  refine ⟨_, push_eq rfl places, ⟨?_, by simp [Token.kind], by simp, by simp [Uncommented]⟩⟩
  have closed := grows.closed
  exact rests_of_element attributes rfl
    ⟨closed.header, closed.profile, rfl, closed.instructions, closed.settled⟩

theorem Grows.push_data {attributes : Attributes}
    (grows : Grows header profile blocks instructions tag attributes.entries assembler)
    {token : Token} {fragment : Fragment} (line : Nat)
    (given : token.data? profile = some fragment) :
    ∃ next, assembler.push ⟨token, line⟩ = .ok next ∧
      Follows header profile blocks
        (instructions ++ [.element tag (attributes.emitted profile) (some fragment)]) false
        next := by
  obtain ⟨first, depth⟩ := grows.depth
  have rests : Rests header profile blocks
      (instructions ++ [.element tag (attributes.emitted profile) (some fragment)])
      (assembler.withDepth
        (.element ⟨tag, attributes.entries, false, some fragment, first⟩ :: blocks)) :=
    rests_of_element attributes rfl grows.closed
  obtain ⟨placed, settle, closed⟩ := rests
  have places : assembler.placeData fragment line = .ok placed := by
    simp only [placeData, depth]
    exact settle
  have follows (kind : Token.Kind) (different : kind ≠ .indent) (begun : Bool) :
      Follows header profile blocks
        (instructions ++ [.element tag (attributes.emitted profile) (some fragment)]) false
        { placed with begun := begun, previous := some kind } := by
    apply Closed.follows
    · exact ⟨closed.header, closed.profile, closed.depth, closed.instructions, closed.settled⟩
    · simpa using different
  have profiled := grows.profile
  subst profile
  cases token with
  | data text =>
      cases given
      exact ⟨_, push_eq rfl places, follows .data (by simp) _⟩
  | codeData code escape =>
      cases given
      exact ⟨_, push_eq rfl places, follows .data (by simp) _⟩
  | _ => contradiction

theorem Grows.takes_body {attributes : Attributes}
    (grows : Grows header profile blocks instructions tag attributes.entries assembler)
    (body : Body) :
    Takes assembler body.tokens
      (Follows header profile blocks
        (instructions ++ [.element tag (attributes.emitted profile) (body.fragment? profile)])
        false) := by
  cases body with
  | empty => exact Takes.nil grows.follows
  | selfClosed => exact Takes.cons grows.push_selfClose fun _ follows => Takes.nil follows
  | data text =>
      exact Takes.cons (fun line => grows.push_data line rfl) fun _ follows => Takes.nil follows
  | codeData expression escape =>
      exact Takes.cons (fun line => grows.push_data line rfl) fun _ follows => Takes.nil follows

/-! ### Levels -/

theorem Grows.push_indent {attributes : Attributes}
    (grows : Grows header profile blocks instructions tag attributes.entries assembler)
    (line : Nat) :
    ∃ next, assembler.push ⟨.indent, line⟩ = .ok next ∧
      Closed header profile (.block tag false :: blocks)
        (instructions ++ [.openElement tag (attributes.emitted profile)]) next ∧
      next.previous = some .indent := by
  obtain ⟨first, depth⟩ := grows.depth
  have places : assembler.place ⟨.indent, line⟩ =
      .ok ((assembler.withDepth (.block tag false :: blocks)).emit
        [.openElement tag (attributes.emitted profile)]) := by
    simp [place, placeIndent, depth, grows.profile, attributes.sealed_eq]
  refine ⟨_, push_eq rfl places, ⟨grows.header, grows.profile, rfl, ?_, ?_⟩, rfl⟩
  · simp only [instructions_emit, instructions_withDepth, grows.instructions]
  · exact List.forall_mem_cons.mpr ⟨rfl, grows.settled⟩

/-- A blank line in front of the children is written, and will be once more. -/
theorem Closed.takes_spacing
    (closed : Closed header profile (.block tag false :: blocks) instructions assembler)
    (previous : assembler.previous = some .indent) (spaced : Bool) :
    Takes assembler (blankLines spaced)
      (Closed header profile (.block tag spaced :: blocks) (instructions ++ blanks spaced)) := by
  cases spaced with
  | false =>
      refine Takes.nil ?_
      rw [blanks, if_neg Bool.false_ne_true, List.append_nil]
      exact closed
  | true =>
      refine Takes.cons ?_ fun _ marked => Takes.nil marked
      intro line
      obtain ⟨prepared, prepares, stands, kept⟩ := closed.rests.prepare .blankLine line rfl rfl
      rw [previous] at kept
      have places : prepared.place ⟨.blankLine, line⟩ =
          .ok ((prepared.withDepth (.block tag true :: blocks)).emit [.blank]) := by
        simp only [place, placeBlank, kept, if_true, stands.depth]
      refine ⟨_, push_eq prepares places, stands.header, stands.profile, rfl, ?_, ?_⟩
      · simp only [instructions_emit, instructions_withDepth, stands.instructions]
        rfl
      · exact List.forall_mem_cons.mpr ⟨rfl, (List.forall_mem_cons.mp stands.settled).2⟩

theorem Rests.push_dedent {spaced : Bool}
    (rests : Rests header profile (.block tag spaced :: blocks) instructions assembler)
    (line : Nat) :
    ∃ next, assembler.push ⟨.dedent, line⟩ = .ok next ∧
      Follows header profile blocks (instructions ++ (blanks spaced ++ [.closeElement tag])) false
        next := by
  obtain ⟨prepared, prepares, closed, -⟩ := rests.prepare .dedent line rfl rfl
  have places : prepared.place ⟨.dedent, line⟩ =
      .ok ((prepared.withDepth blocks).emit (blanks spaced ++ [.closeElement tag])) := by
    cases spaced <;> simp [place, placeDedent, closed.depth, closing, blanks]
  refine ⟨_, push_eq prepares places, ?_⟩
  apply Closed.follows
  · refine ⟨closed.header, closed.profile, rfl, ?_, (List.forall_mem_cons.mp closed.settled).2⟩
    simp only [instructions_emit, instructions_withDepth, closed.instructions]
  · simp [Token.kind]

end Growing

theorem Follows.any {comment : Bool}
    (follows : Follows header profile blocks instructions comment assembler) :
    Follows header profile blocks instructions true assembler :=
  ⟨follows.rests, follows.previous, follows.written, by simp⟩

theorem Follows.push_blank {comment : Bool}
    (follows : Follows header profile blocks instructions comment assembler) (line : Nat) :
    ∃ next, assembler.push ⟨.blankLine, line⟩ = .ok next ∧
      Rests header profile blocks (instructions ++ [.blank]) next ∧ next.Uncommented := by
  obtain ⟨prepared, prepares, closed, kept⟩ := follows.rests.prepare .blankLine line rfl rfl
  have places : prepared.place ⟨.blankLine, line⟩ =
      .ok (prepared.withDepth (.blank :: blocks)) := by
    have previous := follows.previous
    rw [← kept] at previous
    simp only [place, placeBlank, if_neg previous, closed.depth]
  refine ⟨_, push_eq prepares places, ?_, by simp [Uncommented]⟩
  refine ⟨_, rfl, closed.header, closed.profile, rfl, ?_, closed.settled⟩
  simp only [instructions_emit, instructions_withDepth, closed.instructions]

end Pushing

/-! ### Items and their siblings -/

mutual

theorem Rests.takes_item {header : Option Markup.Header} {profile : Markup.Profile}
    {blocks : List Construct} {instructions : List Instruction} {assembler : Assembler}
    (item : Item) (apart : item.Apart)
    (rests : Rests header profile blocks instructions assembler)
    (fresh : item.isComment = true → assembler.Uncommented) :
    Takes assembler item.tokens
      (Follows header profile blocks (instructions ++ item.instructions profile)
        item.isComment) := by
  cases item with
  | leaf given =>
      exact Takes.cons (fun line => rests.push_leaf given fresh line) fun _ => Takes.nil
  | element tag attributes body =>
      refine Takes.cons (fun line => rests.push_element tag line) ?_
      intro started grows
      refine (grows.takes_attributes attributes.entries).append ?_
      intro grown waits
      exact waits.takes_body body
  | parent tag attributes spaced children =>
      refine Takes.cons (fun line => rests.push_element tag line) ?_
      intro started grows
      refine (grows.takes_attributes attributes.entries).append ?_
      intro grown waits
      refine Takes.cons (fun line => waits.push_indent line) ?_
      rintro opened ⟨closed, previous⟩
      refine (closed.takes_spacing previous spaced).append ?_
      intro marked stands
      refine (Rests.takes_siblings children apart stands.rests
        fun _ _ _ => stands.ne_waiting rfl).append ?_
      intro last follows
      refine Takes.cons (fun line => follows.rests.push_dedent line) ?_
      intro next ended
      rw [Item.instructions]
      simp only [List.append_assoc, List.cons_append, List.nil_append] at ended
      exact Takes.nil ended

theorem Rests.takes_siblings {header : Option Markup.Header} {profile : Markup.Profile}
    {blocks : List Construct} {instructions : List Instruction} {assembler : Assembler}
    (siblings : Siblings) (apart : siblings.Apart)
    (rests : Rests header profile blocks instructions assembler)
    (fresh : siblings.first.isComment = true → assembler.Uncommented) :
    Takes assembler siblings.tokens
      (Follows header profile blocks (instructions ++ siblings.instructions profile) true) := by
  cases siblings with
  | last item => exact (Rests.takes_item item apart rests fresh).mono fun _ => Follows.any
  | cons item spaced others =>
      obtain ⟨itemApart, othersApart, between⟩ := apart
      refine (Rests.takes_item item itemApart rests fresh).append ?_
      intro middle follows
      rw [Siblings.instructions, ← List.append_assoc]
      cases spaced with
      | true =>
          refine Takes.cons (fun line => follows.push_blank line) ?_
          rintro blank ⟨waits, uncommented⟩
          have later := Rests.takes_siblings others othersApart waits fun _ => uncommented
          rwa [List.append_assoc] at later
      | false =>
          refine Rests.takes_siblings others othersApart follows.rests ?_
          intro first
          apply follows.uncommented
          cases itself : item.isComment with
          | false => rfl
          | true =>
              rw [between rfl itself] at first
              contradiction

end

/-! ### Whole outlines -/

theorem Rests.finish {header : Option Markup.Header} {profile : Markup.Profile}
    {instructions : List Instruction} {assembler : Assembler}
    (rests : Rests header profile [] instructions assembler)
    (written : ∀ outer, assembler.depth ≠ .blank :: outer) :
    assembler.finish = .ok ⟨header, profile, instructions⟩ := by
  obtain ⟨closed, settle, stands⟩ := rests
  rw [finish_of_ne_blank written, settle]
  simp only [Except.map, ended, stands.header, stands.profile, stands.instructions, stands.depth,
    closings, List.append_nil]

structure Declares (kind : Text) (attributes : List (Text × Text)) (assembler : Assembler) :
    Prop where
  depth : ∃ line, assembler.depth = [.directive kind attributes line]
  instructions : assembler.instructions = []
  previous : assembler.previous ≠ some .indent

theorem start_push_directive (kind : Text) (line : Nat) :
    ∃ next, start.push ⟨.directive kind, line⟩ = .ok next ∧ Declares kind [] next :=
  ⟨_, rfl, ⟨line, rfl⟩, rfl, by simp [Token.kind]⟩

theorem Declares.takes_attributes {kind : Text} {attributes : List (Text × Text)}
    {assembler : Assembler} (declares : Declares kind attributes assembler)
    (entries : List (Text × Text)) :
    Takes assembler (entries.map fun entry => .literalAttribute entry.1 entry.2)
      (Declares kind (attributes ++ entries)) := by
  induction entries generalizing attributes assembler with
  | nil =>
      rw [List.append_nil]
      exact Takes.nil declares
  | cons entry others ih =>
      have push (line : Nat) : ∃ next,
          assembler.push ⟨.literalAttribute entry.1 entry.2, line⟩ = .ok next ∧
            Declares kind (attributes ++ [entry]) next := by
        obtain ⟨first, depth⟩ := declares.depth
        have places : assembler.place ⟨.literalAttribute entry.1 entry.2, line⟩ =
            .ok (assembler.withDepth [.directive kind (attributes ++ [entry]) first]) := by
          simp [place, placeAttribute, depth]
        exact ⟨_, push_eq rfl places, ⟨first, rfl⟩, declares.instructions, by simp [Token.kind]⟩
      refine Takes.cons push ?_
      intro next declared
      have later := ih declared
      rwa [List.append_assoc] at later

theorem Declares.follows {prologue : Prologue} {assembler : Assembler}
    (declares : Declares prologue.directive.kind prologue.directive.attributes assembler) :
    Follows (some prologue.header) prologue.profile [] [] false assembler := by
  obtain ⟨line, depth⟩ := declares.depth
  refine ⟨?_, declares.previous, by simp [depth], fun _ lines outer => by simp [depth]⟩
  have settle : assembler.settle = .ok { assembler.withDepth [] with
      header := some prologue.header, profile := prologue.profile } := by
    have declared : Markup.Header.ofDirective line
        ⟨prologue.directive.kind, prologue.directive.attributes⟩ =
          .ok (prologue.header, prologue.profile) :=
      prologue.ofDirective_eq line
    simp only [Assembler.settle, depth, declared]
  exact ⟨_, settle, rfl, rfl, rfl, declares.instructions, by simp⟩

theorem takes_outline (outline : Outline) :
    Takes start outline.tokens
      (Follows outline.program.header outline.profile [] outline.program.instructions true) := by
  have begun : Takes start (outline.prologue.elim [] Prologue.tokens)
      (Follows outline.program.header outline.profile [] [] false) := by
    unfold Outline.program Outline.profile
    cases outline.prologue with
    | none =>
        have closed : Closed none Markup.Profile.standard [] [] start :=
          ⟨rfl, rfl, rfl, rfl, by simp⟩
        exact Takes.nil (closed.follows (by simp [start]) false)
    | some prologue =>
        refine Takes.cons (fun line => start_push_directive prologue.directive.kind line) ?_
        intro next declares
        exact (declares.takes_attributes prologue.directive.attributes).mono
          fun _ => Declares.follows
  refine begun.append ?_
  intro next follows
  have apart := outline.apart
  unfold Outline.program
  cases items : outline.items with
  | none => exact Takes.nil follows.any
  | some siblings =>
      exact Rests.takes_siblings siblings (apart siblings items) follows.rests
        fun _ => follows.uncommented rfl

end Assembler

/-- The lexemes of an outline, on whatever lines they stand, are assembled into the program
that the outline is translated to. -/
theorem Outline.ofLexemes_eq_program (outline : Outline) {lexemes : List Lexeme}
    (given : lexemes.map Lexeme.token = outline.tokens) :
    Program.ofLexemes lexemes = .ok outline.program := by
  obtain ⟨assembler, pushed, follows⟩ := Assembler.takes_outline outline lexemes given
  simp only [Program.ofLexemes, Program.ofItems, pushed, follows.rests.finish follows.written]
  rfl

/-- A header, comments that a blank line keeps apart, classes to join, and an element with
a blank line in front of its children. -/
def Outline.spread : Outline where
  prologue := some
    { directive := ⟨"xml".toList, []⟩
      header :=
        { kind := "xml".toList
          versionKey := "version".toList
          encoding := "utf-8".toList
          attributes := [("version".toList, "1.0".toList), ("encoding".toList, "utf-8".toList)] }
      profile := Markup.Profile.xml
      declares := ⟨1, rfl⟩ }
  items := some <|
    .cons (.leaf (.comment [['a']])) true <| .cons (.leaf (.comment [['b']])) false <|
      .last <| .parent ['c'] ⟨[], rfl⟩ true <|
        .cons (.element ['d'] ⟨[⟨"class".toList, .literal ['e']⟩,
          ⟨"class".toList, .literal ['f']⟩], rfl⟩ (.data ['<'])) true <|
          .last <| .leaf <| .code [['g'], [], ['h']]
  apart := by simp [Outline.Siblings.Apart, Outline.Item.Apart, Outline.Siblings.first,
    Outline.Item.isComment]

theorem Outline.ofLexemes_eq_program_spread :
    Outline.spread.tokens =
        [.directive "xml".toList, .comment [['a']], .blankLine, .comment [['b']], .element ['c'],
          .indent, .blankLine, .element ['d'], .literalAttribute "class".toList ['e'],
          .literalAttribute "class".toList ['f'], .data ['<'], .blankLine,
          .filter "code".toList [['g'], [], ['h']], .dedent] ∧
      Outline.spread.program.instructions =
        [.comment [Markup.escapeComment ['a']], .blank, .comment [Markup.escapeComment ['b']],
          .openElement ['c'] [], .blank,
          .element ['d'] [⟨"class".toList, .literal "e f".toList⟩] (some (.text "&lt;".toList)),
          .blank, .rawCode ['g'], .blank, .rawCode ['h'], .blank, .closeElement ['c']] ∧
      Program.ofLexemes (Outline.spread.tokens.map fun token => ⟨token, 1⟩) =
        .ok Outline.spread.program := by
  refine ⟨rfl, rfl, ?_⟩
  exact Outline.ofLexemes_eq_program Outline.spread (by rfl)

end Stencil
