import Stencil.Program.Assembler

/-! Everything that one lexeme can do to an assembler.

`Settled` lists the ways in which the innermost construct is closed, and `Placed`
the ways in which a token is placed.  A lexeme that is accepted closes the
innermost construct or not, and is then placed; so whatever holds at the start and
is kept by these changes holds after every list of lexemes. -/

namespace Stencil

namespace Token

def attribute? : Token → Option Attribute
  | .literalAttribute name text => some { name := name, value := .literal text }
  | .codeAttribute name code => some { name := name, value := .code code }
  | _ => none

def data? (profile : Markup.Profile) : Token → Option Fragment
  | .data text => some (.text (profile.escapeText text))
  | .codeData code escape => some (.code code escape)
  | _ => none

/-- The instructions that a token stands for by itself. -/
def leaf? (profile : Markup.Profile) : Token → Option (List Instruction)
  | .content text => some [.content (.text (profile.escapeText text))]
  | .codeContent code escape => some [.content (.code code escape)]
  | .rawCode code => some [.rawCode code]
  | .filter name lines =>
      if name = Assembler.codeFilter then some (lines.map Assembler.filterLine) else none
  | _ => none

end Token

namespace Assembler

@[simp] theorem depth_withDepth (depth : List Construct) (assembler : Assembler) :
    (assembler.withDepth depth).depth = depth := rfl

@[simp] theorem instructions_withDepth (depth : List Construct) (assembler : Assembler) :
    (assembler.withDepth depth).instructions = assembler.instructions := rfl

@[simp] theorem profile_withDepth (depth : List Construct) (assembler : Assembler) :
    (assembler.withDepth depth).profile = assembler.profile := rfl

@[simp] theorem header_withDepth (depth : List Construct) (assembler : Assembler) :
    (assembler.withDepth depth).header = assembler.header := rfl

@[simp] theorem depth_emit (instructions : List Instruction) (assembler : Assembler) :
    (assembler.emit instructions).depth = assembler.depth := rfl

@[simp] theorem instructions_emit (instructions : List Instruction) (assembler : Assembler) :
    (assembler.emit instructions).instructions = assembler.instructions ++ instructions := rfl

@[simp] theorem profile_emit (instructions : List Instruction) (assembler : Assembler) :
    (assembler.emit instructions).profile = assembler.profile := rfl

@[simp] theorem header_emit (instructions : List Instruction) (assembler : Assembler) :
    (assembler.emit instructions).header = assembler.header := rfl

/-! ### Closing the innermost construct -/

/-- The ways in which the innermost construct is closed. -/
inductive Settled : Assembler → Assembler → Prop
  | element {assembler : Assembler} {element : PendingElement} {outer : List Construct}
      {attributes : List Attribute} (top : assembler.depth = .element element :: outer)
      (complete : element.sealed assembler.profile = .ok attributes) :
      Settled assembler
        ((assembler.withDepth outer).emit [.element element.tag attributes element.data])
  | comment {assembler : Assembler} {lines : List Text} {outer : List Construct}
      (top : assembler.depth = .comment lines :: outer) :
      Settled assembler
        ((assembler.withDepth outer).emit
          [.comment (lines.map assembler.profile.escapeComment)])
  | blank {assembler : Assembler} {outer : List Construct}
      (top : assembler.depth = .blank :: outer) :
      Settled assembler ((assembler.withDepth outer).emit [.blank])
  | directive {assembler : Assembler} {kind : Text} {attributes : List (Text × Text)}
      {line : Nat} {outer : List Construct} {header : Markup.Header}
      {profile : Markup.Profile}
      (top : assembler.depth = .directive kind attributes line :: outer)
      (declared : Markup.Header.ofDirective line { kind := kind, attributes := attributes } =
        .ok (header, profile)) :
      Settled assembler
        { assembler.withDepth outer with header := some header, profile := profile }
  | block {assembler : Assembler} {tag : Text} {blankBeforeClose : Bool}
      {outer : List Construct} (top : assembler.depth = .block tag blankBeforeClose :: outer) :
      Settled assembler assembler
  | empty {assembler : Assembler} (top : assembler.depth = []) : Settled assembler assembler

theorem settled_of_settle {assembler next : Assembler}
    (done : assembler.settle = .ok next) : Settled assembler next := by
  unfold settle at done
  split at done
  · rename_i element outer top
    split at done
    · contradiction
    · rename_i attributes complete
      cases done
      exact .element top complete
  · rename_i lines outer top
    cases done
    exact .comment top
  · rename_i outer top
    cases done
    exact .blank top
  · rename_i kind attributes line outer top
    split at done
    · contradiction
    · rename_i header profile declared
      cases done
      exact .directive top declared
  · rename_i tag blankBeforeClose outer top
    cases done
    exact .block top
  · rename_i top
    cases done
    exact .empty top

theorem previous_settle {assembler closed : Assembler} (settle : assembler.settle = .ok closed) :
    closed.previous = assembler.previous := by
  cases settled_of_settle settle <;> rfl

/-! ### Placing a token -/

def newElement (tag : Text) (line : Nat) : PendingElement :=
  { tag := tag, attributes := [], selfClosed := false, data := none, line := line }

/-- The ways in which a token of a line is placed. -/
inductive Placed : Token → Nat → Assembler → Assembler → Prop
  | element {assembler : Assembler} (tag : Text) (line : Nat) :
      Placed (.element tag) line assembler
        (assembler.withDepth (.element (newElement tag line) :: assembler.depth))
  | attributed {token : Token} {line : Nat} {assembler : Assembler} {entry : Attribute}
      {element : PendingElement} {outer : List Construct}
      (given : token.attribute? = some entry)
      (top : assembler.depth = .element element :: outer) (growing : element.data = none) :
      Placed token line assembler
        (assembler.withDepth
          (.element { element with attributes := element.attributes ++ [entry] } :: outer))
  | declared {assembler : Assembler} {name text kind : Text} {line begun : Nat}
      {attributes : List (Text × Text)} {outer : List Construct}
      (top : assembler.depth = .directive kind attributes begun :: outer) :
      Placed (.literalAttribute name text) line assembler
        (assembler.withDepth (.directive kind (attributes ++ [(name, text)]) begun :: outer))
  | selfClose {assembler : Assembler} {line : Nat} {element : PendingElement}
      {outer : List Construct} (top : assembler.depth = .element element :: outer) :
      Placed .selfClose line assembler
        (assembler.withDepth (.element { element with selfClosed := true } :: outer))
  | data {token : Token} {line : Nat} {assembler placed : Assembler} {fragment : Fragment}
      {element : PendingElement} {outer : List Construct}
      (given : token.data? assembler.profile = some fragment)
      (top : assembler.depth = .element element :: outer)
      (settled : Settled
        (assembler.withDepth (.element { element with data := some fragment } :: outer)) placed) :
      Placed token line assembler placed
  | leaf {token : Token} {line : Nat} {assembler : Assembler}
      {instructions : List Instruction}
      (given : token.leaf? assembler.profile = some instructions) :
      Placed token line assembler (assembler.emit instructions)
  | joinedComment {assembler : Assembler} {line : Nat} {lines earlier : List Text}
      {outer : List Construct} (top : assembler.depth = .comment earlier :: outer) :
      Placed (.comment lines) line assembler
        (assembler.withDepth (.comment (earlier ++ lines) :: outer))
  | comment {assembler : Assembler} {line : Nat} {lines : List Text}
      (top : ∀ earlier outer, assembler.depth ≠ .comment earlier :: outer) :
      Placed (.comment lines) line assembler
        (assembler.withDepth (.comment lines :: assembler.depth))
  | directive {assembler : Assembler} (kind : Text) (line : Nat) :
      Placed (.directive kind) line assembler
        (assembler.withDepth (.directive kind [] line :: assembler.depth))
  | indent {assembler : Assembler} {line : Nat} {element : PendingElement}
      {outer : List Construct} {attributes : List Attribute}
      (top : assembler.depth = .element element :: outer)
      (growing : element.selfClosed = false)
      (complete : element.sealed assembler.profile = .ok attributes) :
      Placed .indent line assembler
        ((assembler.withDepth (.block element.tag false :: outer)).emit
          [.openElement element.tag attributes])
  | dedent {assembler : Assembler} {line : Nat} {tag : Text} {blankBeforeClose : Bool}
      {outer : List Construct} (top : assembler.depth = .block tag blankBeforeClose :: outer) :
      Placed .dedent line assembler
        ((assembler.withDepth outer).emit (closing tag blankBeforeClose))
  | markedBlank {assembler : Assembler} {line : Nat} {tag : Text} {blankBeforeClose : Bool}
      {outer : List Construct} (after : assembler.previous = some .indent)
      (top : assembler.depth = .block tag blankBeforeClose :: outer) :
      Placed .blankLine line assembler
        ((assembler.withDepth (.block tag true :: outer)).emit [.blank])
  | writtenBlank {assembler : Assembler} {line : Nat}
      (after : assembler.previous = some .indent)
      (top : ∀ tag blankBeforeClose outer,
        assembler.depth ≠ .block tag blankBeforeClose :: outer) :
      Placed .blankLine line assembler (assembler.emit [.blank])
  | waitingBlank {assembler : Assembler} {line : Nat}
      (after : assembler.previous ≠ some .indent) :
      Placed .blankLine line assembler (assembler.withDepth (.blank :: assembler.depth))

private theorem placed_of_placeAttribute {token : Token} {line : Nat}
    {assembler placed : Assembler} {entry : Attribute}
    (given : token.attribute? = some entry)
    (done : assembler.placeAttribute entry line = .ok placed) :
    Placed token line assembler placed := by
  unfold placeAttribute at done
  split at done
  · rename_i element outer top
    split at done
    · contradiction
    · rename_i growing
      cases done
      exact .attributed given top (by simpa using growing)
  · rename_i kind attributes begun outer top
    split at done
    · rename_i text literal
      cases done
      -- only a literal attribute has a literal value
      cases token <;> simp only [Token.attribute?, reduceCtorEq, Option.some.injEq] at given
      · subst entry
        cases literal
        exact .declared top
      · subst entry
        contradiction
    · contradiction
  · contradiction

private theorem placed_of_placeData {token : Token} {line : Nat}
    {assembler placed : Assembler} {fragment : Fragment}
    (given : token.data? assembler.profile = some fragment)
    (done : assembler.placeData fragment line = .ok placed) :
    Placed token line assembler placed := by
  unfold placeData at done
  split at done
  · rename_i element outer top
    exact .data given top (settled_of_settle done)
  · contradiction

private theorem placed_of_placeIndent {line : Nat} {assembler placed : Assembler}
    (done : assembler.placeIndent line = .ok placed) :
    Placed .indent line assembler placed := by
  unfold placeIndent at done
  split at done
  · rename_i element outer top
    split at done
    · contradiction
    · rename_i growing
      split at done
      · contradiction
      · rename_i attributes complete
        cases done
        exact .indent top (by simpa using growing) complete
  · contradiction
  · contradiction

private theorem placed_placeBlank {line : Nat} {assembler : Assembler} :
    Placed .blankLine line assembler assembler.placeBlank := by
  unfold placeBlank
  split
  · rename_i after
    cases top : assembler.depth with
    | nil =>
        have same : assembler.withDepth [] = assembler := by
          rw [← top]
          rfl
        simp only [same]
        exact .writtenBlank after (by simp [top])
    | cons construct outer =>
        cases construct with
        | block tag blankBeforeClose => exact .markedBlank after top
        | _ =>
            have same : assembler.withDepth assembler.depth = assembler := rfl
            simp only [← top, same]
            exact .writtenBlank after (by simp [top])
  · rename_i after
    exact .waitingBlank after

private theorem placed_placeComment {lines : List Text} {line : Nat} {assembler : Assembler} :
    Placed (.comment lines) line assembler (assembler.placeComment lines) := by
  unfold placeComment
  split
  · rename_i earlier outer top
    exact .joinedComment top
  · rename_i different
    exact .comment different

theorem placed_of_place {lexeme : Lexeme} {assembler placed : Assembler}
    (done : assembler.place lexeme = .ok placed) :
    Placed lexeme.token lexeme.line assembler placed := by
  obtain ⟨token, line⟩ := lexeme
  cases token with
  | element tag =>
      cases done
      exact .element tag line
  | literalAttribute name text => exact placed_of_placeAttribute rfl done
  | codeAttribute name code => exact placed_of_placeAttribute rfl done
  | selfClose =>
      simp only [place, placeSelfClose] at done
      split at done
      · rename_i element outer top
        cases done
        exact .selfClose top
      · contradiction
  | data text => exact placed_of_placeData rfl done
  | codeData code escape => exact placed_of_placeData rfl done
  | content text =>
      cases done
      exact .leaf rfl
  | codeContent code escape =>
      cases done
      exact .leaf rfl
  | comment lines =>
      cases done
      exact placed_placeComment
  | directive kind =>
      cases done
      exact .directive kind line
  | filter name lines =>
      simp only [place, placeFilter] at done
      split at done
      · rename_i known
        cases done
        exact .leaf (if_pos known)
      · contradiction
  | rawCode code =>
      cases done
      exact .leaf rfl
  | indent => exact placed_of_placeIndent done
  | dedent =>
      simp only [place, placeDedent] at done
      split at done
      · rename_i tag blankBeforeClose outer top
        cases done
        exact .dedent top
      · contradiction
  | blankLine =>
      cases done
      exact placed_placeBlank

/-! ### Taking lexemes -/

/-- What an accepted lexeme does: it is allowed where it stands, may close the innermost
construct, is placed, and is remembered. -/
theorem push_cases {lexeme : Lexeme} {assembler next : Assembler}
    (pushed : assembler.push lexeme = .ok next) :
    assembler.allow lexeme = .ok () ∧ ∃ prepared placed,
      (assembler.settlesFor lexeme.token = false ∧ prepared = assembler ∨
        assembler.settlesFor lexeme.token = true ∧ Settled assembler prepared) ∧
      Placed lexeme.token lexeme.line prepared placed ∧
      next = { placed with
        begun := placed.begun || !lexeme.token.isStructural
        previous := some lexeme.token.kind } := by
  unfold push at pushed
  split at pushed
  · contradiction
  · rename_i prepared prepares
    split at pushed
    · contradiction
    · rename_i placed places
      unfold prepare at prepares
      split at prepares
      · contradiction
      · rename_i allowed
        refine ⟨allowed, prepared, placed, ?_, placed_of_place places, (Except.ok.inj pushed).symm⟩
        split at prepares
        · rename_i closes
          exact .inr ⟨closes, settled_of_settle prepares⟩
        · rename_i keeps
          exact .inl ⟨by simpa using keeps, (Except.ok.inj prepares).symm⟩

/-! ### Ending an assembly -/

/-- The program of an assembler that is closed up to its elements with children. -/
def ended (assembler : Assembler) : Program where
  header := assembler.header
  profile := assembler.profile
  instructions := assembler.instructions ++ closings assembler.depth

theorem finish_of_blank {assembler : Assembler} {outer : List Construct}
    (waits : assembler.depth = .blank :: outer) :
    assembler.finish = (assembler.withDepth outer).settle.map ended := by
  unfold finish
  simp only [waits]
  cases (assembler.withDepth outer).settle <;> rfl

theorem finish_of_ne_blank {assembler : Assembler}
    (other : ∀ outer, assembler.depth ≠ .blank :: outer) :
    assembler.finish = assembler.settle.map ended := by
  unfold finish
  split
  · rename_i outer waits
    exact absurd waits (other outer)
  · simp only
    cases assembler.settle <;> rfl

/-- The assembler whose constructs are closed at the end: a blank line that waits is dropped. -/
def withoutBlank (assembler : Assembler) : Assembler :=
  match assembler.depth with
  | .blank :: outer => assembler.withDepth outer
  | _ => assembler

theorem finish_eq (assembler : Assembler) :
    assembler.finish = assembler.withoutBlank.settle.map ended := by
  unfold withoutBlank
  split
  · rename_i outer top
    exact finish_of_blank top
  · rename_i other
    exact finish_of_ne_blank other

theorem finish_eq_ok_iff {assembler : Assembler} {program : Program} :
    assembler.finish = .ok program ↔
      ∃ settled, assembler.withoutBlank.settle = .ok settled ∧ program = settled.ended := by
  rw [finish_eq]
  cases assembler.withoutBlank.settle with
  | error fault => simp [Except.map]
  | ok settled => simp [Except.map, eq_comm]

/-! ### What every lexeme keeps -/

/-- A property of assemblers that every change by an allowed lexeme keeps. -/
structure Kept (Allowed : Lexeme → Prop) (Holds : Assembler → Prop) : Prop where
  settled : ∀ {assembler next : Assembler},
    Holds assembler → Settled assembler next → Holds next
  placed : ∀ {lexeme : Lexeme} {assembler next : Assembler}, Allowed lexeme →
    Holds assembler → Placed lexeme.token lexeme.line assembler next → Holds next
  recorded : ∀ {assembler : Assembler} (begun : Bool) (previous : Option Token.Kind),
    Holds assembler → Holds { assembler with begun := begun, previous := previous }
  dropped : ∀ {assembler : Assembler} {outer : List Construct},
    Holds assembler → assembler.depth = .blank :: outer → Holds (assembler.withDepth outer)

namespace Kept

variable {Allowed : Lexeme → Prop} {Holds : Assembler → Prop}

theorem push {lexeme : Lexeme} {assembler next : Assembler} (kept : Kept Allowed Holds)
    (allowed : Allowed lexeme) (holds : Holds assembler)
    (pushed : assembler.push lexeme = .ok next) : Holds next := by
  obtain ⟨-, prepared, placed, prepares, places, rfl⟩ := push_cases pushed
  have preparedHolds : Holds prepared := by
    rcases prepares with ⟨-, rfl⟩ | ⟨-, settled⟩
    · exact holds
    · exact kept.settled holds settled
  exact kept.recorded _ _ (kept.placed allowed preparedHolds places)

theorem pushAll {items : List (Except Fault Lexeme)} {assembler last : Assembler}
    (kept : Kept Allowed Holds) (allowed : ∀ lexeme, .ok lexeme ∈ items → Allowed lexeme)
    (holds : Holds assembler) (pushed : assembler.pushAll items = .ok last) : Holds last := by
  induction items generalizing assembler with
  | nil =>
      cases pushed
      exact holds
  | cons item others ih =>
      cases item with
      | error fault => contradiction
      | ok lexeme =>
          simp only [Assembler.pushAll] at pushed
          split at pushed
          · contradiction
          · rename_i next accepted
            have holdsNext : Holds next := kept.push (allowed lexeme (by simp)) holds accepted
            exact ih (fun other member => allowed other (by simp [member])) holdsNext pushed

theorem withoutBlank {assembler : Assembler} (kept : Kept Allowed Holds)
    (holds : Holds assembler) : Holds assembler.withoutBlank := by
  unfold Assembler.withoutBlank
  split
  · rename_i outer top
    exact kept.dropped holds top
  · exact holds

theorem finish {assembler : Assembler} {program : Program} (kept : Kept Allowed Holds)
    (holds : Holds assembler) (finished : assembler.finish = .ok program) :
    ∃ settled, Holds settled ∧
      program = { header := settled.header
                  profile := settled.profile
                  instructions := settled.instructions ++ closings settled.depth } := by
  obtain ⟨settled, settles, rfl⟩ := finish_eq_ok_iff.mp finished
  exact ⟨settled, kept.settled (kept.withoutBlank holds) (settled_of_settle settles), rfl⟩

/-- A program comes from an assembler that has kept the property. -/
theorem ofItems {items : List (Except Fault Lexeme)} {program : Program}
    (kept : Kept Allowed Holds) (allowed : ∀ lexeme, .ok lexeme ∈ items → Allowed lexeme)
    (holds : Holds start) (assembled : Program.ofItems items = .ok program) :
    ∃ assembler, Holds assembler ∧
      program = { header := assembler.header
                  profile := assembler.profile
                  instructions := assembler.instructions ++ closings assembler.depth } := by
  unfold Program.ofItems at assembled
  split at assembled
  · contradiction
  · rename_i assembler pushed
    exact kept.finish (kept.pushAll allowed holds pushed) assembled

end Kept

/-! ### Taking tokens -/

section Taking

variable {assembler : Assembler}

theorem pushAll_append (first second : List (Except Fault Lexeme)) (assembler : Assembler) :
    assembler.pushAll (first ++ second) =
      (assembler.pushAll first).bind fun middle => middle.pushAll second := by
  induction first generalizing assembler with
  | nil => rfl
  | cons item others ih =>
      cases item with
      | error fault => rfl
      | ok lexeme =>
          simp only [List.cons_append, pushAll]
          cases assembler.push lexeme with
          | error fault => rfl
          | ok next => exact ih next

theorem pushAll_append_eq_ok {first second : List (Except Fault Lexeme)}
    {last : Assembler} :
    assembler.pushAll (first ++ second) = .ok last ↔
      ∃ middle, assembler.pushAll first = .ok middle ∧ middle.pushAll second = .ok last := by
  rw [pushAll_append]
  cases assembler.pushAll first with
  | error fault => simp [Except.bind]
  | ok middle => simp [Except.bind]

theorem pushAll_singleton {lexeme : Lexeme} {last : Assembler} :
    assembler.pushAll [.ok lexeme] = .ok last ↔ assembler.push lexeme = .ok last := by
  simp only [pushAll]
  cases assembler.push lexeme with
  | error fault => simp
  | ok next => simp

theorem push_eq {lexeme : Lexeme} {prepared placed : Assembler}
    (prepares : assembler.prepare lexeme = .ok prepared)
    (places : prepared.place lexeme = .ok placed) :
    assembler.push lexeme =
      .ok { placed with
            begun := placed.begun || !lexeme.token.isStructural
            previous := some lexeme.token.kind } := by
  simp only [push, prepares, places]

/-- The assembler takes tokens, on whatever lines they stand, and then has the given
property. -/
def Takes (assembler : Assembler) (tokens : List Token) (Result : Assembler → Prop) : Prop :=
  ∀ lexemes : List Lexeme, lexemes.map Lexeme.token = tokens →
    ∃ next, assembler.pushAll (lexemes.map .ok) = .ok next ∧ Result next

theorem Takes.nil {Result : Assembler → Prop} (result : Result assembler) :
    Takes assembler [] Result := by
  intro lexemes given
  obtain rfl := List.map_eq_nil_iff.mp given
  exact ⟨assembler, rfl, result⟩

theorem Takes.mono {tokens : List Token} {Result Weaker : Assembler → Prop}
    (takes : Takes assembler tokens Result) (weaker : ∀ next, Result next → Weaker next) :
    Takes assembler tokens Weaker := by
  intro lexemes given
  obtain ⟨next, pushed, result⟩ := takes lexemes given
  exact ⟨next, pushed, weaker next result⟩

theorem Takes.cons {token : Token} {tokens : List Token} {Middle Result : Assembler → Prop}
    (first : ∀ line, ∃ next, assembler.push ⟨token, line⟩ = .ok next ∧ Middle next)
    (later : ∀ next, Middle next → Takes next tokens Result) :
    Takes assembler (token :: tokens) Result := by
  intro lexemes given
  obtain ⟨lexeme, others, rfl, rfl, rest⟩ := List.map_eq_cons_iff.mp given
  obtain ⟨middle, pushed, between⟩ := first lexeme.line
  obtain ⟨next, pushedAll, result⟩ := later middle between others rest
  refine ⟨next, ?_, result⟩
  simp only [List.map_cons, pushAll, pushed, pushedAll]

theorem Takes.append {first second : List Token} {Middle Result : Assembler → Prop}
    (before : Takes assembler first Middle)
    (after : ∀ next, Middle next → Takes next second Result) :
    Takes assembler (first ++ second) Result := by
  intro lexemes given
  obtain ⟨firstLexemes, secondLexemes, rfl, rfl, rfl⟩ := List.map_eq_append_iff.mp given
  obtain ⟨middle, pushed, between⟩ := before firstLexemes rfl
  obtain ⟨next, pushedAll, result⟩ := after middle between secondLexemes rfl
  refine ⟨next, ?_, result⟩
  rw [List.map_append, pushAll_append, pushed]
  exact pushedAll

end Taking

end Assembler

end Stencil
