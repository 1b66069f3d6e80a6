import Stencil.Proofs.AssemblyAfter

/-! The instructions of a program follow its tokens.

An assembler holds back an element until something follows it, and a comment until something
else than a comment does.  What it holds back is never lost and never overtaken: apart from
the closing lines and the blank lines, the instructions are told by the tokens, one after the
other, and the tokens behind each of them say how it ends. -/

namespace Stencil

/-! ### Marks of instructions and tokens -/

/-- What an instruction has from the tokens it was made of, apart from attributes. -/
inductive Mark where
  /-- An element with or without children, and its inline data. -/
  | element (tag : Text) (body : Option Fragment)
  | content (fragment : Fragment)
  | comment (lines : List Text)
  | rawCode (code : Text)
  deriving DecidableEq, Repr

/-- The mark of an instruction; closing lines and blank lines have none. -/
def Instruction.mark? : Instruction → Option Mark
  | .element tag _ body => some (.element tag body)
  | .openElement tag _ => some (.element tag none)
  | .content fragment => some (.content fragment)
  | .comment lines => some (.comment lines)
  | .rawCode code => some (.rawCode code)
  | .closeElement _ | .blank => none

namespace Token

variable (profile : Markup.Profile)

def dataAhead : List Token → Option Fragment
  | [] => none
  | .element _ :: _ => none
  | token :: rest => (token.data? profile).or (dataAhead rest)

def commentAhead : List Token → List Text
  | .comment lines :: rest => lines ++ commentAhead rest
  | _ => []

def isComment : Token → Bool
  | .comment _ => true
  | _ => false

/-- The marks that a token stands for, by the tokens behind it.  A comment that stands right
behind another one belongs to that one. -/
def marks (joins : Bool) (rest : List Token) : Token → List Mark
  | .element tag => [.element tag (dataAhead profile rest)]
  | .content text => [.content (.text (profile.escapeText text))]
  | .codeContent code escape => [.content (.code code escape)]
  | .comment lines =>
      if joins then []
      else [.comment ((lines ++ commentAhead rest).map profile.escapeComment)]
  | .rawCode code => [.rawCode code]
  | .filter _ lines => (lines.filter fun line => !line.isEmpty).map .rawCode
  | _ => []

def allMarks (joins : Bool) : List Token → List Mark
  | [] => []
  | token :: rest => token.marks profile joins rest ++ allMarks token.isComment rest

variable {profile}

theorem dataAhead_cons {token : Token} {rest : List Token} (noData : token.data? profile = none)
    (silent : token.kind ≠ .element → dataAhead profile rest = none) :
    dataAhead profile (token :: rest) = none := by
  cases token with
  | element tag => rfl
  | data text => contradiction
  | codeData code escape => contradiction
  | _ => exact silent (by simp [kind])

end Token

namespace Assembler

open Token (dataAhead commentAhead allMarks)

variable {assembler next closed : Assembler}

/-! ### What waits -/

def emitted (assembler : Assembler) : List Mark :=
  assembler.instructions.filterMap Instruction.mark?

/-- The mark of what waits on top of the stack, by the tokens that come next. -/
def pending (profile : Markup.Profile) (rest : List Token) : List Construct → List Mark
  | .element element :: _ => [.element element.tag (dataAhead profile rest)]
  | .comment lines :: _ => [.comment ((lines ++ commentAhead rest).map profile.escapeComment)]
  | _ => []

@[simp] theorem pending_element (profile : Markup.Profile) (rest : List Token)
    (element : PendingElement) (outer : List Construct) :
    pending profile rest (.element element :: outer) =
      [.element element.tag (dataAhead profile rest)] := rfl

@[simp] theorem pending_comment (profile : Markup.Profile) (rest : List Token) (lines : List Text)
    (outer : List Construct) :
    pending profile rest (.comment lines :: outer) =
      [.comment ((lines ++ commentAhead rest).map profile.escapeComment)] := rfl

def joins : List Construct → Bool
  | .comment _ :: _ => true
  | _ => false

def waitingElement? : List Construct → Option PendingElement
  | .element element :: _ => some element
  | _ => none

/-- At most one construct waits, on top of elements with children, and an element that waits
has no data yet. -/
structure Ordered (assembler : Assembler) : Prop where
  isXml : assembler.profile = Markup.Profile.xml
  below : ∀ construct ∈ assembler.depth.tail, construct.isBlock = true
  growing : ∀ element ∈ waitingElement? assembler.depth, element.data = none

@[simp] theorem emitted_withDepth (depth : List Construct) :
    (assembler.withDepth depth).emitted = assembler.emitted := rfl

@[simp] theorem emitted_emit (instructions : List Instruction) :
    (assembler.emit instructions).emitted =
      assembler.emitted ++ instructions.filterMap Instruction.mark? :=
  List.filterMap_append

theorem nothing_waits {stack : List Construct}
    (blocks : ∀ construct ∈ stack, construct.isBlock = true) :
    (∀ rest, pending .xml rest stack = []) ∧ joins stack = false ∧ waitingElement? stack = none := by
  cases stack with
  | nil => exact ⟨fun _ => rfl, rfl, rfl⟩
  | cons construct outer =>
      have isBlock := blocks construct List.mem_cons_self
      cases construct with
      | block tag blankBeforeClose => exact ⟨fun _ => rfl, rfl, rfl⟩
      | _ => contradiction

theorem ordered_of_blocks (isXml : assembler.profile = Markup.Profile.xml)
    (blocks : ∀ construct ∈ assembler.depth, construct.isBlock = true) : Ordered assembler where
  isXml := isXml
  below := fun construct member => blocks construct (List.mem_of_mem_tail member)
  growing := by simp [(nothing_waits blocks).2.2]

theorem Ordered.settled (ordered : Ordered assembler) (settles : Settled assembler closed) :
    closed.emitted = assembler.emitted ++ pending .xml [] assembler.depth ∧
      closed.profile = Markup.Profile.xml ∧
      ∀ construct ∈ closed.depth, construct.isBlock = true := by
  have isXml := profile_settled ordered.isXml settles
  obtain ⟨given, below, growing⟩ := ordered
  cases settles with
  | @element element outer attributes top complete =>
      rw [top] at below growing ⊢
      refine ⟨?_, isXml, below⟩
      simp [dataAhead, Instruction.mark?, growing element rfl]
  | comment top =>
      rw [top] at below ⊢
      refine ⟨?_, isXml, below⟩
      simp [commentAhead, Instruction.mark?, given]
  | blank top =>
      rw [top] at below ⊢
      refine ⟨?_, isXml, below⟩
      simp [pending, Instruction.mark?]
  | directive top declared =>
      rw [top] at below ⊢
      refine ⟨?_, isXml, below⟩
      simp [pending, emitted]
  | block top =>
      rw [top] at below ⊢
      refine ⟨by simp [pending], isXml, ?_⟩
      exact List.forall_mem_cons.mpr ⟨rfl, below⟩
  | empty top =>
      rw [top]
      refine ⟨by simp [pending], isXml, by simp⟩

/-- A token that closes what waits, and that is not followed by data before the next element,
does not change what is told about it. -/
theorem pending_of_settles {token : Token} {rest : List Token}
    (settles : assembler.settlesFor token = true)
    (silent : dataAhead .xml (token :: rest) = none) :
    pending .xml (token :: rest) assembler.depth = pending .xml [] assembler.depth := by
  cases top : assembler.depth with
  | nil => rfl
  | cons construct outer =>
      cases construct with
      | element element => simp [silent, dataAhead]
      | comment lines =>
          have other : commentAhead (token :: rest) = [] := by
            cases token <;> first | rfl | simp [settlesFor, top] at settles
          simp [other, commentAhead]
      | _ => rfl

/-! ### Placing a token -/

/-- What a token does to the order: what is emitted and what waits then are told by what was
emitted and what waited before, and by the token.  Where no element waits any more, no data
may come before the next one. -/
structure Tells (token : Token) (assembler next : Assembler) : Prop where
  ordered : Ordered next
  comment : joins next.depth = token.isComment
  element : (waitingElement? next.depth).isSome = true →
    token.kind = .element ∨ (waitingElement? assembler.depth).isSome = true
  data : (token.data? .xml).isSome = true → (waitingElement? assembler.depth).isSome = true
  emitted : ∀ rest, (waitingElement? next.depth = none → dataAhead .xml rest = none) →
    assembler.emitted ++ pending .xml (token :: rest) assembler.depth ++
        token.marks .xml (joins assembler.depth) rest =
      next.emitted ++ pending .xml rest next.depth

/-- A token that finds no element waiting brings no data, and behind it none comes before the
next element. -/
theorem Tells.dataAhead_eq_none {token : Token} {rest : List Token} (tells : Tells token assembler next)
    (noElement : waitingElement? assembler.depth = none)
    (silent : waitingElement? next.depth = none → dataAhead .xml rest = none) :
    dataAhead .xml (token :: rest) = none := by
  have noData : token.data? .xml = none := by
    cases given : token.data? .xml with
    | none => rfl
    | some fragment =>
        have impossible := tells.data (by simp [given])
        simp [noElement] at impossible
  refine Token.dataAhead_cons noData fun other => silent ?_
  cases waits : waitingElement? next.depth with
  | none => rfl
  | some element =>
      have impossible := tells.element (by simp [waits])
      simp [other, noElement] at impossible

theorem marks_filterLines (lines : List Text) :
    (lines.map filterLine).filterMap Instruction.mark? =
      (lines.filter fun line => !line.isEmpty).map .rawCode := by
  induction lines with
  | nil => rfl
  | cons line others ih =>
      cases line with
      | nil => exact ih
      | cons character rest => exact congrArg (.rawCode (character :: rest) :: ·) ih

theorem marks_leaf {token : Token} {instructions : List Instruction} (rest : List Token)
    (given : token.leaf? .xml = some instructions) :
    instructions.filterMap Instruction.mark? = token.marks .xml false rest ∧
      token.isComment = false ∧ token.data? .xml = none := by
  cases token with
  | content text =>
      cases given
      exact ⟨rfl, rfl, rfl⟩
  | codeContent code escape =>
      cases given
      exact ⟨rfl, rfl, rfl⟩
  | rawCode code =>
      cases given
      exact ⟨rfl, rfl, rfl⟩
  | filter name lines =>
      simp only [Token.leaf?, Option.ite_none_right_eq_some, Option.some.injEq] at given
      obtain ⟨-, rfl⟩ := given
      exact ⟨marks_filterLines lines, rfl, rfl⟩
  | _ => contradiction

section OnBlocks

variable {token : Token} (isXml : closed.profile = Markup.Profile.xml)
  (blocks : ∀ construct ∈ closed.depth, construct.isBlock = true)
  (noData : token.data? .xml = none)
include isXml blocks noData

theorem tells_emitting {depth : List Construct} {instructions : List Instruction}
    (stays : ∀ construct ∈ depth, construct.isBlock = true) (other : token.isComment = false)
    (told : ∀ rest, token.marks .xml false rest = instructions.filterMap Instruction.mark?) :
    Tells token closed ((closed.withDepth depth).emit instructions) := by
  obtain ⟨nothing, unjoined, -⟩ := nothing_waits blocks
  obtain ⟨nothingThen, unjoinedThen, noElementThen⟩ := nothing_waits stays
  refine ⟨ordered_of_blocks isXml stays, ?_, ?_, ?_, ?_⟩
  · simp [unjoinedThen, other]
  · simp [noElementThen]
  · simp [noData]
  · intro rest silent
    simp [nothing, nothingThen, unjoined, told rest]

theorem tells_waiting {construct : Construct}
    (growing : ∀ element ∈ waitingElement? [construct], element.data = none)
    (comment : joins [construct] = token.isComment)
    (element : (waitingElement? [construct]).isSome = true → token.kind = .element)
    (told : ∀ rest, token.marks .xml false rest = pending .xml rest [construct]) :
    Tells token closed (closed.withDepth (construct :: closed.depth)) := by
  obtain ⟨nothing, unjoined, -⟩ := nothing_waits blocks
  have alone : waitingElement? (construct :: closed.depth) = waitingElement? [construct] ∧
      joins (construct :: closed.depth) = joins [construct] ∧
      ∀ rest, pending .xml rest (construct :: closed.depth) = pending .xml rest [construct] := by
    cases construct <;> exact ⟨rfl, rfl, fun _ => rfl⟩
  refine ⟨⟨isXml, blocks, ?_⟩, ?_, ?_, ?_, ?_⟩
  · simpa [alone] using growing
  · simpa [alone] using comment
  · intro waits
    exact .inl (element (by simpa [alone] using waits))
  · simp [noData]
  · intro rest silent
    simp [nothing, unjoined, alone, told rest]

end OnBlocks

/-- A token that is placed on elements with children only. -/
theorem tells_of_blocks {token : Token} {line : Nat} (isXml : closed.profile = Markup.Profile.xml)
    (blocks : ∀ construct ∈ closed.depth, construct.isBlock = true)
    (placed : Placed token line closed next) : Tells token closed next := by
  have top {construct : Construct} {outer : List Construct}
      (same : closed.depth = construct :: outer) :
      construct.isBlock = true ∧ ∀ other ∈ outer, other.isBlock = true := by
    rw [same] at blocks
    exact List.forall_mem_cons.mp blocks
  cases placed with
  | element tag line =>
      exact tells_waiting isXml blocks rfl (by simp [waitingElement?, newElement]) rfl
        (fun _ => rfl) (fun _ => rfl)
  | leaf given =>
      rw [isXml] at given
      obtain ⟨-, other, noData⟩ := marks_leaf [] given
      exact tells_emitting isXml blocks noData blocks other fun rest => (marks_leaf rest given).1.symm
  | comment different =>
      exact tells_waiting isXml blocks rfl (by simp [waitingElement?]) rfl
        (by simp [waitingElement?]) (fun _ => rfl)
  | directive kind line =>
      exact tells_waiting isXml blocks rfl (by simp [waitingElement?]) rfl
        (by simp [waitingElement?]) (fun _ => rfl)
  | @dedent _ line tag blankBeforeClose outer same =>
      refine tells_emitting isXml blocks rfl (top same).2 rfl ?_
      intro rest
      cases blankBeforeClose <;> rfl
  | markedBlank after same =>
      exact tells_emitting isXml blocks rfl (List.forall_mem_cons.mpr ⟨rfl, (top same).2⟩) rfl
        fun _ => rfl
  | writtenBlank after different =>
      exact tells_emitting isXml blocks rfl blocks rfl fun _ => rfl
  | waitingBlank after =>
      exact tells_waiting isXml blocks rfl (by simp [waitingElement?]) rfl
        (by simp [waitingElement?]) (fun _ => rfl)
  | attributed given same growing => exact absurd (top same).1 Bool.false_ne_true
  | declared same => exact absurd (top same).1 Bool.false_ne_true
  | selfClose same => exact absurd (top same).1 Bool.false_ne_true
  | data given same settles => exact absurd (top same).1 Bool.false_ne_true
  | joinedComment same => exact absurd (top same).1 Bool.false_ne_true
  | indent same growing complete => exact absurd (top same).1 Bool.false_ne_true

theorem Ordered.tells_growing {token : Token} {element grown : PendingElement}
    {outer : List Construct} (ordered : Ordered assembler)
    (top : assembler.depth = .element element :: outer) (sameTag : grown.tag = element.tag)
    (growing : grown.data = none) (other : token.isComment = false)
    (noData : token.data? .xml = none) (passes : ∀ rest, token.marks .xml false rest = [] ∧
      dataAhead .xml (token :: rest) = dataAhead .xml rest) :
    Tells token assembler (assembler.withDepth (.element grown :: outer)) := by
  obtain ⟨isXml, below, -⟩ := ordered
  rw [top] at below
  refine ⟨⟨isXml, below, ?_⟩, ?_, ?_, ?_, ?_⟩
  · simp [waitingElement?, growing]
  · exact other.symm
  · intro waits
    exact .inr (by rw [top]; rfl)
  · simp [noData]
  · intro rest silent
    simp [top, sameTag, passes rest, joins]

theorem Ordered.tells_data {token : Token} {fragment : Fragment} {element : PendingElement}
    {outer : List Construct} (ordered : Ordered assembler)
    (given : token.data? assembler.profile = some fragment)
    (top : assembler.depth = .element element :: outer)
    (settles : Settled
      (assembler.withDepth (.element { element with data := some fragment } :: outer)) next) :
    Tells token assembler next := by
  obtain ⟨isXml, below, -⟩ := ordered
  rw [isXml] at given
  have outerBlocks : ∀ construct ∈ outer, construct.isBlock = true := by
    rw [top] at below
    exact below
  obtain ⟨nothing, unjoined, noElement⟩ := nothing_waits outerBlocks
  have isData : token.isComment = false ∧ ∀ rest, token.marks .xml false rest = [] ∧
      dataAhead .xml (token :: rest) = some fragment := by
    cases token with
    | data text =>
        cases given
        exact ⟨rfl, fun _ => ⟨rfl, rfl⟩⟩
    | codeData code escape =>
        cases given
        exact ⟨rfl, fun _ => ⟨rfl, rfl⟩⟩
    | _ => contradiction
  obtain ⟨other, told⟩ := isData
  cases settles with
  | element same complete =>
      cases same
      refine ⟨ordered_of_blocks isXml outerBlocks, ?_, ?_, ?_, ?_⟩
      · simp [unjoined, other]
      · simp [noElement]
      · intro _
        rw [top]
        rfl
      · intro rest silent
        simp [top, joins, told rest, nothing, Instruction.mark?]
  | comment same => cases same
  | blank same => cases same
  | directive same declared => cases same
  | block same => cases same
  | empty same => cases same

theorem Ordered.tells_continuing {token : Token} {line : Nat} (ordered : Ordered assembler)
    (keeps : assembler.settlesFor token = false) (placed : Placed token line assembler next) :
    Tells token assembler next := by
  cases placed with
  | attributed given top growing =>
      have isAttribute : token.isComment = false ∧ token.data? .xml = none ∧
          ∀ rest, token.marks .xml false rest = [] ∧
            dataAhead .xml (token :: rest) = dataAhead .xml rest := by
        cases token <;> first | exact ⟨rfl, rfl, fun _ => ⟨rfl, rfl⟩⟩ | contradiction
      obtain ⟨other, noData, passes⟩ := isAttribute
      exact ordered.tells_growing top rfl growing other noData passes
  | @selfClose _ line element outer top =>
      have growing : element.data = none := ordered.growing element (by rw [top]; rfl)
      exact ordered.tells_growing top rfl growing rfl rfl fun _ => ⟨rfl, rfl⟩
  | declared top =>
      obtain ⟨isXml, below, -⟩ := ordered
      rw [top] at below
      refine ⟨⟨isXml, below, by simp [waitingElement?]⟩, rfl, by simp [waitingElement?], by
        simp [Token.data?], ?_⟩
      intro rest silent
      simp [top, pending, Token.marks]
  | data given top settles => exact ordered.tells_data given top settles
  | @joinedComment _ line lines earlier outer top =>
      obtain ⟨isXml, below, -⟩ := ordered
      rw [top] at below
      refine ⟨⟨isXml, below, by simp [waitingElement?]⟩, rfl, by simp [waitingElement?], by
        simp [Token.data?], ?_⟩
      intro rest silent
      simp [top, Token.marks, joins, commentAhead]
  | @indent _ line element outer attributes top growing complete =>
      obtain ⟨isXml, below, -⟩ := ordered
      rw [top] at below
      refine ⟨⟨isXml, below, by simp [waitingElement?]⟩, rfl, by simp [waitingElement?], by
        simp [Token.data?], ?_⟩
      intro rest silent
      have silence : dataAhead .xml rest = none := silent rfl
      simp [top, pending, Token.marks, dataAhead, Token.data?, silence, Instruction.mark?]
  | comment different =>
      cases top : assembler.depth with
      | nil => simp [settlesFor, top] at keeps
      | cons construct outer =>
          cases construct with
          | comment earlier => exact absurd top (different earlier outer)
          | _ => simp [settlesFor, top] at keeps
  | leaf given => cases token <;> simp [settlesFor] at keeps <;> contradiction
  | _ => simp [settlesFor] at keeps

theorem marks_of_settles {token : Token} (rest : List Token)
    (settles : assembler.settlesFor token = true) :
    token.marks .xml (joins assembler.depth) rest = token.marks .xml false rest := by
  cases token with
  | comment lines =>
      cases top : assembler.depth with
      | nil => rfl
      | cons construct outer =>
          cases construct with
          | comment earlier => simp [settlesFor, top] at settles
          | _ => rfl
  | _ => rfl

theorem Ordered.push {lexeme : Lexeme} (ordered : Ordered assembler)
    (pushed : assembler.push lexeme = .ok next) : Tells lexeme.token assembler next := by
  obtain ⟨-, prepared, placed, prepares, places, rfl⟩ := push_cases pushed
  suffices tells : Tells lexeme.token assembler placed from
    ⟨⟨tells.ordered.isXml, tells.ordered.below, tells.ordered.growing⟩, tells.comment,
      tells.element, tells.data, tells.emitted⟩
  rcases prepares with ⟨keeps, rfl⟩ | ⟨settles, closes⟩
  · exact ordered.tells_continuing keeps places
  · obtain ⟨written, isXml, blocks⟩ := ordered.settled closes
    obtain ⟨nothing, unjoined, noElement⟩ := nothing_waits blocks
    have tells := tells_of_blocks isXml blocks places
    refine ⟨tells.ordered, tells.comment, ?_, ?_, ?_⟩
    · intro waits
      rcases tells.element waits with isElement | impossible
      · exact .inl isElement
      · simp [noElement] at impossible
    · intro given
      have impossible := tells.data given
      simp [noElement] at impossible
    · intro rest silent
      have told := tells.emitted rest silent
      rw [nothing, List.append_nil, unjoined, written] at told
      rw [pending_of_settles settles (tells.dataAhead_eq_none noElement silent),
        marks_of_settles rest settles]
      exact told

/-! ### Taking all lexemes -/

theorem Ordered.dataAhead_eq_none {lexemes : List Lexeme} (ordered : Ordered assembler)
    (noElement : waitingElement? assembler.depth = none)
    (pushed : assembler.pushAll (lexemes.map .ok) = .ok next) :
    dataAhead .xml (lexemes.map Lexeme.token) = none := by
  induction lexemes generalizing assembler with
  | nil => rfl
  | cons lexeme others ih =>
      simp only [List.map_cons, pushAll] at pushed
      split at pushed
      · contradiction
      · rename_i middle accepted
        have tells := ordered.push accepted
        exact tells.dataAhead_eq_none noElement fun noneThen => ih tells.ordered noneThen pushed

theorem marks_closings {stack : List Construct} : (closings stack).filterMap Instruction.mark? = [] := by
  induction stack with
  | nil => rfl
  | cons construct outer ih =>
      cases construct with
      | block tag blankBeforeClose =>
          cases blankBeforeClose <;> exact ih
      | _ => exact ih

theorem Ordered.withoutBlank (ordered : Ordered assembler) :
    Ordered assembler.withoutBlank ∧ assembler.withoutBlank.emitted = assembler.emitted ∧
      ∀ rest, pending .xml rest assembler.withoutBlank.depth = pending .xml rest assembler.depth := by
  unfold Assembler.withoutBlank
  split
  · rename_i outer top
    have below := ordered.below
    rw [top, List.tail_cons] at below
    refine ⟨ordered_of_blocks ordered.isXml below, rfl, ?_⟩
    intro rest
    rw [depth_withDepth, (nothing_waits below).1, top]
    rfl
  · exact ⟨ordered, rfl, fun _ => rfl⟩

theorem Ordered.finish {program : Program} (ordered : Ordered assembler)
    (finished : assembler.finish = .ok program) :
    program.instructions.filterMap Instruction.mark? =
      assembler.emitted ++ pending .xml [] assembler.depth := by
  obtain ⟨closed, closes, rfl⟩ := finish_eq_ok_iff.mp finished
  obtain ⟨orderedThen, sameEmitted, samePending⟩ := ordered.withoutBlank
  have told := (orderedThen.settled (settled_of_settle closes)).1
  rw [sameEmitted, samePending] at told
  rw [← told]
  simp [Assembler.ended, marks_closings, emitted]

/-- The marks of a program are those that were emitted, that of what waits, and those of the
tokens that come next. -/
theorem Ordered.pushAll {lexemes : List Lexeme} {program : Program} (ordered : Ordered assembler)
    (pushed : assembler.pushAll (lexemes.map .ok) = .ok next)
    (finished : next.finish = .ok program) :
    program.instructions.filterMap Instruction.mark? =
      assembler.emitted ++ pending .xml (lexemes.map Lexeme.token) assembler.depth ++
        allMarks .xml (joins assembler.depth) (lexemes.map Lexeme.token) := by
  induction lexemes generalizing assembler with
  | nil =>
      cases pushed
      rw [ordered.finish finished]
      exact (List.append_nil _).symm
  | cons lexeme others ih =>
      simp only [List.map_cons, Assembler.pushAll] at pushed
      split at pushed
      · contradiction
      · rename_i middle accepted
        have tells := ordered.push accepted
        have told := tells.emitted (others.map Lexeme.token)
          (fun noElement => tells.ordered.dataAhead_eq_none noElement pushed)
        rw [ih tells.ordered pushed, ← told, tells.comment]
        simp [allMarks]

end Assembler

/-- Apart from closing lines and blank lines, the instructions of a program are those that its
tokens stand for, in the order of the tokens: one for every element, with the data that comes
before the next element, one for every line of content, every run of comments and every line of
raw code. -/
theorem Program.marks_ofLexemes {lexemes : List Lexeme} {program : Program}
    (assembled : Program.ofLexemes lexemes = .ok program) :
    program.instructions.filterMap Instruction.mark? =
      Token.allMarks program.profile false (lexemes.map Lexeme.token) := by
  have isXml : program.profile = Markup.Profile.xml := by
    obtain ⟨last, profile, rfl⟩ := Assembler.kept_profile.ofItems (fun _ _ => trivial) rfl assembled
    exact profile
  unfold Program.ofLexemes Program.ofItems at assembled
  split at assembled
  · contradiction
  · rename_i last pushed
    have started : Assembler.start.Ordered := Assembler.ordered_of_blocks rfl (by simp [Assembler.start])
    rw [isXml, started.pushAll pushed assembled]
    rfl

/-- Comments that meet are one comment, an element with a slash still takes data, and blank lines
of a filter are not told. -/
theorem Program.marks_ofLexemes_mixed :
    ∃ program, Program.ofLexemes ([.comment ["a".toList], .comment ["--".toList],
        .element "p".toList, .indent, .blankLine, .element "q".toList,
        .literalAttribute "k".toList "v".toList, .selfClose, .data "<".toList, .blankLine,
        .comment ["b".toList], .dedent, .comment ["c".toList],
        .filter "code".toList ["r".toList, [], "s".toList]].map fun token => ⟨token, 1⟩) =
          .ok program ∧
      program.instructions.filterMap Instruction.mark? =
        [.comment ["a".toList, "- -".toList], .element "p".toList none,
          .element "q".toList (some (.text "&lt;".toList)), .comment ["b".toList],
          .comment ["c".toList], .rawCode "r".toList, .rawCode "s".toList] := by
  have assembled : Program.ofLexemes ([.comment ["a".toList], .comment ["--".toList],
      .element "p".toList, .indent, .blankLine, .element "q".toList,
      .literalAttribute "k".toList "v".toList, .selfClose, .data "<".toList, .blankLine,
      .comment ["b".toList], .dedent, .comment ["c".toList],
      .filter "code".toList ["r".toList, [], "s".toList]].map fun token => ⟨token, 1⟩) =
        .ok ⟨none, .xml, [.comment (["a".toList, "--".toList].map Markup.escapeComment),
          .openElement "p".toList [], .blank,
          .element "q".toList [⟨"k".toList, .literal "v".toList⟩] (some (.text "&lt;".toList)),
          .blank, .comment (["b".toList].map Markup.escapeComment), .blank,
          .closeElement "p".toList, .comment (["c".toList].map Markup.escapeComment),
          .rawCode "r".toList, .blank, .rawCode "s".toList]⟩ :=
    rfl
  exact ⟨_, assembled, (Program.marks_ofLexemes assembled).trans (by decide +kernel)⟩

end Stencil
