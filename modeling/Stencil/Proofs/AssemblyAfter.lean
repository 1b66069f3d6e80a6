import Stencil.Proofs.Compiling
import Stencil.Proofs.JoinedTexts

/-! Assembling after what was emitted before.

An assembler that has closed everything takes an element in the first column as a new one
does.  From there on, what it emits is what a new assembler emits, behind what it emitted
before; the lines of the lexemes matter only for faults. -/

namespace Stencil

open Source (Recast)

/-! ### The profile -/

namespace Assembler

theorem profile_settled {assembler next : Assembler}
    (isXml : assembler.profile = Markup.Profile.xml) (settled : Settled assembler next) :
    next.profile = Markup.Profile.xml := by
  cases settled with
  | directive top declared => exact Markup.Header.profile_ofDirective declared
  | _ => exact isXml

/-- Escaping is that of XML throughout. -/
theorem kept_profile :
    Kept (fun _ => True) fun assembler => assembler.profile = Markup.Profile.xml where
  settled := profile_settled
  placed := by
    rintro ⟨token, line⟩ assembler next - isXml placed
    cases placed with
    | data given top settled =>
        refine profile_settled ?_ settled
        exact isXml
    | _ => exact isXml
  recorded := fun _ _ isXml => isXml
  dropped := fun isXml _ => isXml

theorem profile_pushAll {items : List (Except Fault Lexeme)} {last : Assembler}
    (pushed : start.pushAll items = .ok last) : last.profile = Markup.Profile.xml :=
  kept_profile.pushAll (fun _ _ => trivial) rfl pushed

end Assembler

/-! ### Instructions in front -/

def Construct.lower (shift : Nat) : Construct → Construct
  | .element pending => .element { pending with line := pending.line + shift }
  | construct => construct

theorem PendingElement.sealed_line {profile : Markup.Profile} {element : PendingElement}
    {attributes : List Attribute} (line : Nat) (complete : element.sealed profile = .ok attributes) :
    ({ element with line := line } : PendingElement).sealed profile = .ok attributes := by
  simp only [PendingElement.sealed] at complete ⊢
  split at complete
  · contradiction
  · exact complete

namespace Assembler

variable (before : Assembler) (shift : Nat) {assembler next : Assembler}

/-- The assembler with what another emitted in front, and with its lines further down. -/
def after (assembler : Assembler) : Assembler where
  profile := assembler.profile
  header := before.header
  instructions := before.instructions ++ assembler.instructions
  depth := assembler.depth.map (Construct.lower shift)
  begun := before.begun || assembler.begun
  previous := assembler.previous

theorem after_withDepth (depth : List Construct) :
    before.after shift (assembler.withDepth depth) =
      (before.after shift assembler).withDepth (depth.map (Construct.lower shift)) := rfl

theorem after_emit (instructions : List Instruction) :
    before.after shift (assembler.emit instructions) =
      (before.after shift assembler).emit instructions := by
  simp only [after, emit, List.append_assoc]

theorem settle_after (undeclared : assembler.Undeclared) (settled : Settled assembler next) :
    (before.after shift assembler).settle = .ok (before.after shift next) := by
  cases settled with
  | @element element _ _ top complete =>
      have sealed := PendingElement.sealed_line (element.line + shift) complete
      rw [after_emit, after_withDepth]
      simp only [settle, after, top, List.map_cons, Construct.lower, sealed]
  | comment top =>
      rw [after_emit, after_withDepth]
      simp only [settle, after, top, List.map_cons, Construct.lower]
  | blank top =>
      rw [after_emit, after_withDepth]
      simp only [settle, after, top, List.map_cons, Construct.lower]
  | directive top declared =>
      have plain := undeclared.depth _ (by rw [top]; exact List.mem_cons_self)
      contradiction
  | block top => simp only [settle, after, top, List.map_cons, Construct.lower]
  | empty top => simp only [settle, after, top, List.map_nil]

theorem depth_after {construct : Construct} {outer : List Construct}
    (top : assembler.depth = construct :: outer) :
    (before.after shift assembler).depth =
      construct.lower shift :: outer.map (Construct.lower shift) := by
  rw [after, top, List.map_cons]

theorem depth_of_after {construct : Construct} {lowered : List Construct}
    (plain : ∀ element, construct ≠ .element element)
    (top : (before.after shift assembler).depth = construct :: lowered) :
    ∃ outer, assembler.depth = construct :: outer := by
  obtain ⟨innermost, outer, depth, same, -⟩ := List.map_eq_cons_iff.mp top
  refine ⟨outer, ?_⟩
  rw [depth]
  cases innermost with
  | element element => exact absurd same.symm (plain _)
  | _ => exact congrArg (· :: outer) same

section Placing

variable {token : Token} {line : Nat} {element : PendingElement} {outer : List Construct}

theorem place_after_attribute {entry : Attribute} (given : token.attribute? = some entry)
    (top : assembler.depth = .element element :: outer) (growing : element.data = none) :
    (before.after shift assembler).place ⟨token, line⟩ =
      .ok (before.after shift (assembler.withDepth
        (.element { element with attributes := element.attributes ++ [entry] } :: outer))) := by
  have added : (before.after shift assembler).placeAttribute entry line =
      .ok (before.after shift (assembler.withDepth
        (.element { element with attributes := element.attributes ++ [entry] } :: outer))) := by
    simp only [placeAttribute, depth_after before shift top, Construct.lower, growing,
      after_withDepth]
    rfl
  cases token with
  | literalAttribute name text =>
      cases given
      exact added
  | codeAttribute name code =>
      cases given
      exact added
  | _ => contradiction

theorem place_after_selfClose (top : assembler.depth = .element element :: outer) :
    (before.after shift assembler).place ⟨.selfClose, line⟩ =
      .ok (before.after shift (assembler.withDepth
        (.element { element with selfClosed := true } :: outer))) := by
  simp only [place, placeSelfClose, depth_after before shift top, Construct.lower, after_withDepth]
  rfl

/-- Inline data ends its element, so the element is closed in the same step. -/
theorem place_after_data {fragment : Fragment} (undeclared : assembler.Undeclared)
    (given : token.data? assembler.profile = some fragment)
    (top : assembler.depth = .element element :: outer)
    (settled : Settled
      (assembler.withDepth (.element { element with data := some fragment } :: outer)) next) :
    (before.after shift assembler).place ⟨token, line⟩ = .ok (before.after shift next) := by
  have ended : (assembler.withDepth
      (.element { element with data := some fragment } :: outer)).Undeclared := by
    refine ⟨undeclared.header, ?_⟩
    have others := undeclared.depth
    rw [top] at others
    exact List.forall_mem_cons.mpr ⟨rfl, (List.forall_mem_cons.mp others).2⟩
  have settles : (before.after shift assembler).placeData fragment line =
      .ok (before.after shift next) := by
    simp only [placeData, depth_after before shift top, Construct.lower]
    exact settle_after before shift ended settled
  cases token with
  | data text =>
      cases given
      exact settles
  | codeData code escape =>
      cases given
      exact settles
  | _ => contradiction

theorem place_after_leaf {instructions : List Instruction}
    (given : token.leaf? assembler.profile = some instructions) :
    (before.after shift assembler).place ⟨token, line⟩ =
      .ok (before.after shift (assembler.emit instructions)) := by
  rw [after_emit]
  cases token with
  | content text | codeContent code escape | rawCode code =>
      cases given
      rfl
  | filter name lines =>
      simp only [Token.leaf?] at given
      split at given
      · rename_i known
        cases given
        exact if_pos known
      · contradiction
  | _ => contradiction

theorem place_after_comment {lines : List Text}
    (top : ∀ earlier outer, assembler.depth ≠ .comment earlier :: outer) :
    (before.after shift assembler).place ⟨.comment lines, line⟩ =
      .ok (before.after shift (assembler.withDepth (.comment lines :: assembler.depth))) := by
  simp only [place, placeComment, after_withDepth]
  split
  · rename_i earlier lowered same
    obtain ⟨outer, depth⟩ := depth_of_after before shift (by simp) same
    exact absurd depth (top earlier outer)
  · rfl

theorem place_after_joinedComment {lines earlier : List Text}
    (top : assembler.depth = .comment earlier :: outer) :
    (before.after shift assembler).place ⟨.comment lines, line⟩ =
      .ok (before.after shift (assembler.withDepth (.comment (earlier ++ lines) :: outer))) := by
  simp only [place, placeComment, depth_after before shift top, Construct.lower, after_withDepth]
  rfl

theorem place_after_markedBlank {tag : Text} {blankBeforeClose : Bool}
    (indented : assembler.previous = some .indent)
    (top : assembler.depth = .block tag blankBeforeClose :: outer) :
    (before.after shift assembler).place ⟨.blankLine, line⟩ =
      .ok (before.after shift
        ((assembler.withDepth (.block tag true :: outer)).emit [.blank])) := by
  have remembered : (before.after shift assembler).previous = some .indent := indented
  rw [after_emit, after_withDepth]
  simp only [place, placeBlank, if_pos remembered, depth_after before shift top, Construct.lower]
  rfl

theorem place_after_writtenBlank (indented : assembler.previous = some .indent)
    (top : ∀ tag blankBeforeClose outer, assembler.depth ≠ .block tag blankBeforeClose :: outer) :
    (before.after shift assembler).place ⟨.blankLine, line⟩ =
      .ok (before.after shift (assembler.emit [.blank])) := by
  have remembered : (before.after shift assembler).previous = some .indent := indented
  rw [after_emit]
  simp only [place, placeBlank, if_pos remembered]
  split
  · rename_i tag blankBeforeClose lowered same
    obtain ⟨outer, depth⟩ := depth_of_after before shift (by simp) same
    exact absurd depth (top tag blankBeforeClose outer)
  · rfl

theorem place_after_waitingBlank (unindented : assembler.previous ≠ some .indent) :
    (before.after shift assembler).place ⟨.blankLine, line⟩ =
      .ok (before.after shift (assembler.withDepth (.blank :: assembler.depth))) := by
  have remembered : (before.after shift assembler).previous ≠ some .indent := unindented
  simp only [place, placeBlank, if_neg remembered, after_withDepth]
  rfl

theorem place_after_indent {attributes : List Attribute}
    (top : assembler.depth = .element element :: outer) (growing : element.selfClosed = false)
    (complete : element.sealed assembler.profile = .ok attributes) :
    (before.after shift assembler).place ⟨.indent, line⟩ =
      .ok (before.after shift ((assembler.withDepth (.block element.tag false :: outer)).emit
        [.openElement element.tag attributes])) := by
  have sealed : ({ element with line := element.line + shift } : PendingElement).sealed
      (before.after shift assembler).profile = .ok attributes :=
    PendingElement.sealed_line (element.line + shift) complete
  rw [growing] at sealed
  rw [after_emit, after_withDepth]
  simp only [place, placeIndent, depth_after before shift top, Construct.lower, growing,
    Bool.false_eq_true, ↓reduceIte, sealed]
  rfl

theorem place_after_dedent {tag : Text} {blankBeforeClose : Bool}
    (top : assembler.depth = .block tag blankBeforeClose :: outer) :
    (before.after shift assembler).place ⟨.dedent, line⟩ =
      .ok (before.after shift
        ((assembler.withDepth outer).emit (closing tag blankBeforeClose))) := by
  rw [after_emit, after_withDepth]
  simp only [place, placeDedent, depth_after before shift top, Construct.lower]

end Placing

theorem place_after {token : Token} {line : Nat} (undeclared : assembler.Undeclared)
    (plain : token.isDirective = false) (placed : Placed token line assembler next) :
    (before.after shift assembler).place ⟨token, line + shift⟩ = .ok (before.after shift next) := by
  cases placed with
  | element tag line => rfl
  | attributed given top growing => exact place_after_attribute before shift given top growing
  | declared top =>
      have undirected := undeclared.depth _ (by rw [top]; exact List.mem_cons_self)
      contradiction
  | selfClose top => exact place_after_selfClose before shift top
  | data given top settled => exact place_after_data before shift undeclared given top settled
  | leaf given => exact place_after_leaf before shift given
  | joinedComment top => exact place_after_joinedComment before shift top
  | comment top => exact place_after_comment before shift top
  | directive kind line => contradiction
  | indent top growing complete => exact place_after_indent before shift top growing complete
  | dedent top => exact place_after_dedent before shift top
  | markedBlank indented top => exact place_after_markedBlank before shift indented top
  | writtenBlank indented top => exact place_after_writtenBlank before shift indented top
  | waitingBlank unindented => exact place_after_waitingBlank before shift unindented

theorem settlesFor_after (token : Token) :
    (before.after shift assembler).settlesFor token = assembler.settlesFor token := by
  cases token with
  | comment lines =>
      simp only [settlesFor, after]
      cases assembler.depth with
      | nil => rfl
      | cons construct outer => cases construct <;> rfl
  | _ => rfl

theorem push_after {lexeme : Lexeme} (undeclared : assembler.Undeclared)
    (plain : lexeme.token.isDirective = false) (pushed : assembler.push lexeme = .ok next) :
    (before.after shift assembler).push ⟨lexeme.token, lexeme.line + shift⟩ =
      .ok (before.after shift next) := by
  obtain ⟨token, line⟩ := lexeme
  obtain ⟨-, prepared, placed, prepares, places, rfl⟩ := push_cases pushed
  have allowed : (before.after shift assembler).allow ⟨token, line + shift⟩ = .ok () := by
    cases token with
    | directive kind => contradiction
    | _ => rfl
  have ready : (before.after shift assembler).prepare ⟨token, line + shift⟩ =
      .ok (before.after shift prepared) ∧ prepared.Undeclared := by
    simp only [prepare, allowed, settlesFor_after]
    rcases prepares with ⟨keeps, rfl⟩ | ⟨closes, settled⟩
    · exact ⟨if_neg (by simp [keeps]), undeclared⟩
    · rw [if_pos closes]
      exact ⟨settle_after before shift undeclared settled, undeclared.settled settled⟩
  rw [push_eq ready.1 (place_after before shift ready.2 plain places)]
  simp only [after, Bool.or_assoc]

theorem begun_settled (settled : Settled assembler next) : next.begun = assembler.begun := by
  cases settled <;> rfl

theorem begun_placed {token : Token} {line : Nat} (placed : Placed token line assembler next) :
    next.begun = assembler.begun := by
  cases placed with
  | data given top settled =>
      have kept := begun_settled settled
      exact kept
  | _ => rfl

/-- Once a token was more than layout, no directive is taken. -/
theorem push_of_begun {lexeme : Lexeme} (begun : assembler.begun = true)
    (pushed : assembler.push lexeme = .ok next) :
    lexeme.token.isDirective = false ∧ next.begun = true := by
  obtain ⟨token, line⟩ := lexeme
  obtain ⟨allowed, prepared, placed, prepares, places, rfl⟩ := push_cases pushed
  constructor
  · cases token with
    | directive kind =>
        simp only [allow, begun, ↓reduceIte] at allowed
        split at allowed
        · contradiction
        · contradiction
    | _ => rfl
  · have kept : prepared.begun = true := by
      rcases prepares with ⟨-, rfl⟩ | ⟨-, settled⟩
      · exact begun
      · rw [begun_settled settled, begun]
    simp only [begun_placed places, kept, Bool.true_or]

theorem pushAll_after {lexemes : List Lexeme} {last : Assembler} (begun : assembler.begun = true)
    (undeclared : assembler.Undeclared)
    (pushed : assembler.pushAll (lexemes.map .ok) = .ok last) :
    (before.after shift assembler).pushAll
        ((lexemes.map (Recast.renumber shift).lexeme).map .ok) = .ok (before.after shift last) ∧
      last.Undeclared := by
  induction lexemes generalizing assembler with
  | nil =>
      cases pushed
      exact ⟨rfl, undeclared⟩
  | cons lexeme others ih =>
      simp only [List.map_cons, pushAll] at pushed ⊢
      split at pushed
      · contradiction
      · rename_i next accepted
        obtain ⟨plain, goesOn⟩ := push_of_begun begun accepted
        have again := push_after before shift undeclared plain accepted
        have kept := kept_undeclared.push plain undeclared accepted
        have lowered : (Recast.renumber shift).lexeme lexeme =
            ⟨lexeme.token, lexeme.line + shift⟩ := rfl
        simp only [lowered, again]
        exact ih goesOn kept pushed

theorem closings_lower (depth : List Construct) :
    closings (depth.map (Construct.lower shift)) = closings depth := by
  induction depth with
  | nil => rfl
  | cons construct outer ih =>
      cases construct <;> simp only [List.map_cons, Construct.lower, closings, ih]

theorem ended_after (assembler : Assembler) :
    (before.after shift assembler).ended =
      { header := before.header
        profile := assembler.ended.profile
        instructions := before.instructions ++ assembler.ended.instructions } := by
  simp only [ended, after, closings_lower, List.append_assoc]

theorem withoutBlank_after (assembler : Assembler) :
    (before.after shift assembler).withoutBlank = before.after shift assembler.withoutBlank := by
  unfold withoutBlank
  cases top : assembler.depth with
  | nil => simp only [after, top, List.map_nil]
  | cons construct outer =>
      rw [depth_after before shift top]
      cases construct <;> rfl

theorem finish_after {program : Program} (undeclared : assembler.Undeclared)
    (finished : assembler.finish = .ok program) :
    (before.after shift assembler).finish =
      .ok { header := before.header
            profile := program.profile
            instructions := before.instructions ++ program.instructions } := by
  obtain ⟨settled, settles, rfl⟩ := finish_eq_ok_iff.mp finished
  have still := kept_undeclared.withoutBlank undeclared
  rw [finish_eq, withoutBlank_after, settle_after before shift still (settled_of_settle settles),
    ← ended_after]
  rfl

/-- An element in the first column is taken as the first lexeme of a new assembly. -/
theorem push_element_after {current settled : Assembler} (tag : Text) (line : Nat)
    (closes : current.settle = .ok settled) (empty : settled.depth = [])
    (isXml : settled.profile = Markup.Profile.xml) :
    ∃ first, start.push ⟨.element tag, line⟩ = .ok first ∧ first.begun = true ∧ first.Undeclared ∧
      current.push ⟨.element tag, line + shift⟩ = .ok (settled.after shift first) := by
  have prepares : current.prepare ⟨.element tag, line + shift⟩ = .ok settled := closes
  refine ⟨_, rfl, rfl, ⟨rfl, ?_⟩, ?_⟩
  · intro construct member
    obtain rfl := List.mem_singleton.mp member
    rfl
  · rw [push_eq prepares rfl]
    obtain ⟨profile, header, instructions, depth, begun, previous⟩ := settled
    cases empty
    cases isXml
    simp only [after, withDepth, start, List.append_nil]
    rfl

theorem finish_following {current settled : Assembler} {lexemes others : List Lexeme} {tag : Text}
    {line : Nat} {program : Program} (closes : current.settle = .ok settled)
    (empty : settled.depth = []) (isXml : settled.profile = Markup.Profile.xml)
    (opens : lexemes = ⟨.element tag, line⟩ :: others)
    (assembled : Program.ofLexemes lexemes = .ok program) :
    ∃ last,
      current.pushAll ((lexemes.map (Recast.renumber shift).lexeme).map .ok) = .ok last ∧
      last.finish =
        .ok { header := settled.header
              profile := settled.profile
              instructions := settled.instructions ++ program.instructions } := by
  subst opens
  obtain ⟨first, starts, begun, undeclared, continues⟩ :=
    push_element_after shift tag line closes empty isXml
  have sameProfile : program.profile = settled.profile := by
    obtain ⟨last, profile, rfl⟩ := kept_profile.ofItems (fun _ _ => trivial) rfl assembled
    rw [isXml]
    exact profile
  unfold Program.ofLexemes Program.ofItems at assembled
  simp only [List.map_cons, pushAll, starts] at assembled
  split at assembled
  · contradiction
  · rename_i last pushed
    obtain ⟨pushedAfter, kept⟩ := pushAll_after settled shift begun undeclared pushed
    refine ⟨settled.after shift last, ?_, ?_⟩
    · have lowered : (Recast.renumber shift).lexeme ⟨.element tag, line⟩ =
          ⟨.element tag, line + shift⟩ := rfl
      simp only [List.map_cons, pushAll, lowered, continues, pushedAfter]
    · rw [finish_after settled shift kept assembled, sameProfile]

end Assembler

end Stencil
