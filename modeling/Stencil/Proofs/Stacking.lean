import Stencil.Proofs.Assembly
import Stencil.Proofs.Indentation

/-! The stack of an assembler and two walks over the tokens it takes.

`depthAfter` says how many elements with children are open, and `Top.after` what waits
on top of the stack.  Tokens that both walks pass keep the stack in step with the walks;
so whatever fault an assembly ends with is not about a misplaced token. -/

namespace Stencil

/-! ### The walk over the top of the stack -/

inductive Top where
  | element
  | directive
  | other
  deriving DecidableEq, Repr

/-- What waits after a token, if the token can be taken. -/
def Top.after : Top → Token → Option Top
  | _, .element _ => some .element
  | _, .directive _ => some .directive
  | .element, .literalAttribute _ _ => some .element
  | .directive, .literalAttribute _ _ => some .directive
  | .other, .literalAttribute _ _ => none
  | .element, .codeAttribute _ _ => some .element
  | _, .codeAttribute _ _ => none
  | .element, .selfClose => some .element
  | _, .selfClose => none
  | .element, .data _ => some .other
  | _, .data _ => none
  | .element, .codeData _ _ => some .other
  | _, .codeData _ _ => none
  | _, .content _ | _, .codeContent _ _ | _, .comment _ | _, .filter _ _ | _, .rawCode _
  | _, .indent | _, .dedent | _, .blankLine => some .other

def Top.afterAll (top : Top) (tokens : List Token) : Option Top :=
  tokens.foldlM Top.after top

namespace LineGrammar

/-- Tokens that can be taken whatever waits. -/
def Takeable (tokens : List Token) : Prop :=
  ∀ top : Top, ∃ next, top.afterAll tokens = some next

theorem Takeable.append {first second : List Token} (takeFirst : Takeable first)
    (takeSecond : Takeable second) : Takeable (first ++ second) := by
  intro top
  obtain ⟨middle, early⟩ := takeFirst top
  obtain ⟨next, late⟩ := takeSecond middle
  refine ⟨next, ?_⟩
  unfold Top.afterAll at early late ⊢
  rw [List.foldlM_append, early]
  exact late

theorem Takeable.flatten {lines : List (List Token)} (each : ∀ line ∈ lines, Takeable line) :
    Takeable lines.flatten := by
  induction lines with
  | nil => exact fun top => ⟨top, rfl⟩
  | cons line others ih =>
      obtain ⟨first, later⟩ := List.forall_mem_cons.mp each
      exact first.append (ih later)

theorem takeable_dedents (count : Nat) : Takeable (List.replicate count .dedent) := by
  induction count with
  | zero => exact fun top => ⟨top, rfl⟩
  | succ count ih =>
      intro top
      obtain ⟨next, later⟩ := ih .other
      exact ⟨next, later⟩

theorem afterAll_attributes {attributes : List Token} (given : AreAttributes attributes) :
    Top.element.afterAll attributes = some .element := by
  induction attributes with
  | nil => rfl
  | cons token others ih =>
      obtain ⟨⟨isAttribute, -⟩, later⟩ := List.forall_mem_cons.mp given
      have stays : Top.element.after token = some .element := by
        cases token <;> first | rfl | contradiction
      unfold Top.afterAll at ih ⊢
      rw [List.foldlM_cons, stays]
      exact ih later

theorem IsElement.afterAll {tokens : List Token} (element : IsElement tokens) (top : Top) :
    top.afterAll tokens = some .element := by
  cases element with
  | tagged named given =>
      exact afterAll_attributes given

theorem afterAll_declarations (attributes : List (Text × Text)) :
    Top.directive.afterAll (attributes.map fun entry => .literalAttribute entry.1 entry.2) =
      some .directive := by
  induction attributes with
  | nil => rfl
  | cons entry others ih => exact ih

theorem IsEnding.takeable {tokens : List Token} (ending : IsEnding tokens) :
    ∃ next, Top.element.afterAll tokens = some next := by
  cases ending <;> exact ⟨_, rfl⟩

theorem IsConstruct.takeable {tokens : List Token} (construct : IsConstruct tokens) :
    Takeable tokens := by
  intro top
  cases construct with
  | element begins ends =>
      obtain ⟨next, ended⟩ := ends.takeable
      refine ⟨next, ?_⟩
      have begun := begins.afterAll top
      unfold Top.afterAll at begun ended ⊢
      rw [List.foldlM_append, begun]
      exact ended
  | directive kind attributes => exact ⟨.directive, afterAll_declarations attributes⟩
  | _ => exact ⟨.other, rfl⟩

theorem IsLead.takeable {tokens : List Token} (lead : IsLead tokens) : Takeable tokens := by
  have levels {opening : List Token} (opens : IsOpening opening) : Takeable opening := by
    cases opens with
    | indent => exact fun top => ⟨.other, rfl⟩
    | dedents count => exact takeable_dedents count
  cases lead with
  | close opens => exact levels opens
  | spaced opens => exact (levels opens).append fun top => ⟨.other, rfl⟩

theorem IsTemplate.takeable {tokens : List Token} (template : IsTemplate tokens) :
    Takeable tokens := by
  obtain ⟨lines, closed, ⟨each, -⟩, rfl⟩ := template.lines
  refine (Takeable.flatten ?_).append (takeable_dedents closed)
  intro line member
  cases each line member with
  | mk leads given => exact leads.takeable.append given.takeable

end LineGrammar

/-! ### Results without a misplaced token -/

/-- A result that has a property, or a fault of an assembly other than a misplaced token. -/
def Safe {α : Type} (result : Except Fault α) (Result : α → Prop) : Prop :=
  match result with
  | .ok value => Result value
  | .error fault => fault.origin = some .assembly

theorem Safe.mono {α : Type} {result : Except Fault α} {Result Weaker : α → Prop}
    (safe : Safe result Result) (weaker : ∀ value, Result value → Weaker value) :
    Safe result Weaker := by
  cases result with
  | ok value => exact weaker value safe
  | error fault => exact safe

theorem Safe.map {α β : Type} {result : Except Fault α} {Result : α → Prop} {f : α → β}
    {Mapped : β → Prop} (safe : Safe result Result)
    (maps : ∀ value, Result value → Mapped (f value)) : Safe (result.map f) Mapped := by
  cases result with
  | ok value => exact maps value safe
  | error fault => exact safe

namespace Assembler

def AreBlocks (count : Nat) (stack : List Construct) : Prop :=
  stack.length = count ∧ ∀ construct ∈ stack, construct.isBlock = true

/-- The stacks that have so many elements with children below what waits on top. -/
inductive Stacked (count : Nat) : Top → List Construct → Prop
  | element {element : PendingElement} {blocks : List Construct} (growing : element.data = none)
      (below : AreBlocks count blocks) : Stacked count .element (.element element :: blocks)
  | directive {kind : Text} {attributes : List (Text × Text)} {line : Nat}
      {blocks : List Construct} (below : AreBlocks count blocks) :
      Stacked count .directive (.directive kind attributes line :: blocks)
  | comment {lines : List Text} {blocks : List Construct} (below : AreBlocks count blocks) :
      Stacked count .other (.comment lines :: blocks)
  | blank {blocks : List Construct} (below : AreBlocks count blocks) :
      Stacked count .other (.blank :: blocks)
  | blocks {blocks : List Construct} (below : AreBlocks count blocks) :
      Stacked count .other blocks

section Steps

variable {count reached line : Nat} {top next : Top} {assembler : Assembler} {token : Token}

theorem sealed_safe (profile : Markup.Profile) (element : PendingElement) :
    Safe (element.sealed profile) fun _ => True := by
  unfold PendingElement.sealed
  simp only
  split
  · rfl
  · trivial

theorem ofDirective_safe (directive : Markup.Directive) :
    Safe (Markup.Header.ofDirective line directive) fun _ => True := by
  unfold Markup.Header.ofDirective
  split
  · rfl
  · split
    · rename_i cause failed
      unfold Markup.Header.withEncoding at failed
      split at failed
      · contradiction
      · split at failed
        · contradiction
        · cases failed
          rfl
    · trivial

theorem AreBlocks.cons {construct : Construct} {stack : List Construct}
    (blocks : AreBlocks count stack) (isBlock : construct.isBlock = true) :
    AreBlocks (count + 1) (construct :: stack) := by
  refine ⟨?_, List.forall_mem_cons.mpr ⟨isBlock, blocks.2⟩⟩
  rw [List.length_cons, blocks.1]

theorem AreBlocks.settle (blocks : AreBlocks count assembler.depth) :
    assembler.settle = .ok assembler := by
  obtain ⟨-, each⟩ := blocks
  unfold Assembler.settle
  split
  all_goals
    rename_i stack
    first
    | rfl
    | (have impossible := each _ (by rw [stack]; exact List.mem_cons_self)
       contradiction)

theorem settle_element {element : PendingElement} {blocks : List Construct}
    (waits : assembler.depth = .element element :: blocks) (below : AreBlocks count blocks) :
    Safe assembler.settle fun settled => AreBlocks count settled.depth := by
  have complete := sealed_safe assembler.profile element
  unfold Assembler.settle
  rw [waits]
  simp only
  split
  · rename_i fault failed
    rw [failed] at complete
    exact complete
  · exact below

theorem Stacked.settle (stacked : Stacked count top assembler.depth) :
    Safe assembler.settle fun settled => AreBlocks count settled.depth := by
  generalize same : assembler.depth = stack at stacked
  cases stacked with
  | element growing below => exact settle_element same below
  | @directive kind attributes line blocks below =>
      have declared : Safe (Markup.Header.ofDirective line ⟨kind, attributes⟩) fun _ => True :=
        ofDirective_safe _
      unfold Assembler.settle
      rw [same]
      simp only
      split
      · rename_i fault failed
        rw [failed] at declared
        exact declared
      · exact below
  | comment below =>
      unfold Assembler.settle
      rw [same]
      exact below
  | blank below =>
      unfold Assembler.settle
      rw [same]
      exact below
  | blocks below =>
      rw [← same] at below
      rw [below.settle]
      exact below

theorem allow_safe (lexeme : Lexeme) (assembler : Assembler) :
    Safe (assembler.allow lexeme) fun _ => True := by
  unfold allow
  split
  · split
    · rfl
    · split
      · rfl
      · trivial
  · trivial

/-- A lexeme is taken safely if it finds what it needs after what waits was closed. -/
theorem push_safe {lexeme : Lexeme} {Prepared : Assembler → Prop}
    {Result : List Construct → Prop}
    (settles : assembler.settlesFor lexeme.token = true → Safe assembler.settle Prepared)
    (stays : assembler.settlesFor lexeme.token = false → Prepared assembler)
    (places : ∀ prepared, Prepared prepared →
      Safe (prepared.place lexeme) fun placed => Result placed.depth) :
    Safe (assembler.push lexeme) fun pushed => Result pushed.depth := by
  have prepares : Safe (assembler.prepare lexeme) Prepared := by
    have allowed := allow_safe lexeme assembler
    unfold prepare
    split
    · rename_i fault failed
      rw [failed] at allowed
      exact allowed
    · split
      · rename_i closes
        exact settles closes
      · rename_i keeps
        exact stays (by simpa using keeps)
  unfold push
  split
  · rename_i fault failed
    rw [failed] at prepares
    exact prepares
  · rename_i prepared done
    rw [done] at prepares
    have placing := places prepared prepares
    split
    · rename_i fault failed
      rw [failed] at placing
      exact placing
    · rename_i placed placedDone
      rw [placedDone] at placing
      exact placing

theorem Stacked.push_settling {Result : List Construct → Prop}
    (stacked : Stacked count top assembler.depth)
    (settles : ∀ assembler : Assembler, assembler.settlesFor token = true)
    (places : ∀ prepared : Assembler, AreBlocks count prepared.depth →
      Safe (prepared.place ⟨token, line⟩) fun placed => Result placed.depth) :
    Safe (assembler.push ⟨token, line⟩) fun pushed => Result pushed.depth := by
  refine push_safe (fun _ => stacked.settle) ?_ places
  intro keeps
  rw [settles assembler] at keeps
  contradiction

theorem Stacked.push_waiting {Result : List Construct → Prop}
    (stacked : Stacked count top assembler.depth)
    (waits : ∀ assembler : Assembler, assembler.settlesFor token = false)
    (places : ∀ prepared : Assembler, Stacked count top prepared.depth →
      Safe (prepared.place ⟨token, line⟩) fun placed => Result placed.depth) :
    Safe (assembler.push ⟨token, line⟩) fun pushed => Result pushed.depth := by
  refine push_safe ?_ (fun _ => stacked) places
  intro closes
  rw [waits assembler] at closes
  contradiction

theorem Stacked.placeAttribute {entry : Attribute}
    (stacked : Stacked count .element assembler.depth) :
    Safe (assembler.placeAttribute entry line) fun placed =>
      Stacked count .element placed.depth := by
  generalize same : assembler.depth = stack at stacked
  cases stacked with
  | element growing below =>
      unfold Assembler.placeAttribute
      rw [same]
      simp only [growing, Option.isSome_none, Bool.false_eq_true, if_false]
      exact .element rfl below

theorem Stacked.placeDeclaration {name text : Text}
    (stacked : Stacked count .directive assembler.depth) :
    Safe (assembler.placeAttribute ⟨name, .literal text⟩ line) fun placed =>
      Stacked count .directive placed.depth := by
  generalize same : assembler.depth = stack at stacked
  cases stacked with
  | directive below =>
      unfold Assembler.placeAttribute
      rw [same]
      exact .directive below

theorem Stacked.placeSelfClose (stacked : Stacked count .element assembler.depth) :
    Safe (assembler.placeSelfClose line) fun placed => Stacked count .element placed.depth := by
  generalize same : assembler.depth = stack at stacked
  cases stacked with
  | element growing below =>
      unfold Assembler.placeSelfClose
      rw [same]
      exact .element growing below

theorem Stacked.placeData {fragment : Fragment}
    (stacked : Stacked count .element assembler.depth) :
    Safe (assembler.placeData fragment line) fun placed => Stacked count .other placed.depth := by
  generalize same : assembler.depth = stack at stacked
  cases stacked with
  | @element element blocks growing below =>
      unfold Assembler.placeData
      rw [same]
      exact Safe.mono (settle_element rfl below) fun _ => .blocks

theorem Stacked.placeIndent (stacked : Stacked count top assembler.depth) :
    Safe (assembler.placeIndent line) fun placed =>
      Stacked (count + 1) .other placed.depth := by
  generalize same : assembler.depth = stack at stacked
  unfold Assembler.placeIndent
  rw [same]
  cases stacked with
  | @element element blocks growing below =>
      have complete := sealed_safe assembler.profile element
      simp only
      split
      · rfl
      · split
        · rename_i fault failed
          rw [failed] at complete
          exact complete
        · exact .blocks (below.cons rfl)
  | directive below => rfl
  | comment below => rfl
  | blank below => rfl
  | blocks below =>
      cases stack with
      | nil => rfl
      | cons construct outer =>
          cases construct with
          | block tag blankBeforeClose => rfl
          | _ =>
              have impossible := below.2 _ List.mem_cons_self
              contradiction

theorem AreBlocks.placeDedent (blocks : AreBlocks (count + 1) assembler.depth) :
    Safe (assembler.placeDedent line) fun placed => AreBlocks count placed.depth := by
  obtain ⟨length, each⟩ := blocks
  unfold Assembler.placeDedent
  cases same : assembler.depth with
  | nil =>
      rw [same] at length
      contradiction
  | cons construct outer =>
      rw [same] at length each
      obtain ⟨isBlock, below⟩ := List.forall_mem_cons.mp each
      cases construct with
      | block tag blankBeforeClose => exact ⟨Nat.succ.inj length, below⟩
      | _ => contradiction

theorem AreBlocks.placeBlank (blocks : AreBlocks count assembler.depth) :
    Stacked count .other assembler.placeBlank.depth := by
  obtain ⟨length, each⟩ := blocks
  unfold Assembler.placeBlank
  split
  · refine .blocks ?_
    simp only [depth_emit, depth_withDepth]
    split
    · rename_i tag blankBeforeClose outer same
      rw [same] at length each
      exact ⟨length, List.forall_mem_cons.mpr ⟨rfl, (List.forall_mem_cons.mp each).2⟩⟩
    · exact ⟨length, each⟩
  · exact .blank ⟨length, each⟩

theorem Stacked.push_comment {lines : List Text} (stacked : Stacked count top assembler.depth) :
    Safe (assembler.push ⟨.comment lines, line⟩) fun pushed =>
      Stacked count .other pushed.depth := by
  let Prepared (prepared : Assembler) : Prop :=
    AreBlocks count prepared.depth ∨
      ∃ earlier blocks, prepared.depth = .comment earlier :: blocks ∧ AreBlocks count blocks
  have closes : Safe assembler.settle Prepared := stacked.settle.mono fun _ => .inl
  refine push_safe (fun _ => closes) ?_ ?_
  · intro keeps
    simp only [settlesFor] at keeps
    split at keeps
    · rename_i earlier blocks same
      refine .inr ⟨earlier, blocks, same, ?_⟩
      rw [same] at stacked
      cases stacked with
      | comment below => exact below
      | blocks below =>
          have impossible := below.2 _ List.mem_cons_self
          contradiction
    · contradiction
  · intro prepared held
    simp only [place, placeComment]
    rcases held with blocks | ⟨earlier, blocks, same, below⟩
    · split
      · rename_i earlier outer same
        rw [same] at blocks
        have impossible := blocks.2 _ List.mem_cons_self
        contradiction
      · exact .comment blocks
    · rw [same]
      exact .comment below

theorem Stacked.push_attribute {entry : Attribute} (stacked : Stacked count top assembler.depth)
    (given : token.attribute? = some entry) (moves : top.after token = some next) :
    Safe (assembler.push ⟨token, line⟩) fun pushed => Stacked count next pushed.depth := by
  cases token with
  | literalAttribute name text =>
      cases top with
      | element =>
          cases moves
          exact stacked.push_waiting (fun _ => rfl) fun prepared held => held.placeAttribute
      | directive =>
          cases moves
          exact stacked.push_waiting (fun _ => rfl) fun prepared held => held.placeDeclaration
      | other => contradiction
  | codeAttribute name code =>
      cases top with
      | element =>
          cases moves
          exact stacked.push_waiting (fun _ => rfl) fun prepared held => held.placeAttribute
      | _ => contradiction
  | _ => contradiction

theorem Stacked.push_selfClose (stacked : Stacked count top assembler.depth)
    (moves : top.after .selfClose = some next) :
    Safe (assembler.push ⟨.selfClose, line⟩) fun pushed => Stacked count next pushed.depth := by
  cases top with
  | element =>
      cases moves
      exact stacked.push_waiting (fun _ => rfl) fun prepared held => held.placeSelfClose
  | _ => contradiction

theorem Stacked.push_data {profile : Markup.Profile} {fragment : Fragment}
    (stacked : Stacked count top assembler.depth) (given : token.data? profile = some fragment)
    (moves : top.after token = some next) :
    Safe (assembler.push ⟨token, line⟩) fun pushed => Stacked count next pushed.depth := by
  cases token with
  | data text =>
      cases top with
      | element =>
          cases moves
          exact stacked.push_waiting (fun _ => rfl) fun prepared held => held.placeData
      | _ => contradiction
  | codeData code escape =>
      cases top with
      | element =>
          cases moves
          exact stacked.push_waiting (fun _ => rfl) fun prepared held => held.placeData
      | _ => contradiction
  | _ => contradiction

theorem Stacked.push_filter {name : Text} {lines : List Text}
    (stacked : Stacked count top assembler.depth) :
    Safe (assembler.push ⟨.filter name lines, line⟩) fun pushed =>
      Stacked count .other pushed.depth := by
  refine stacked.push_settling (fun _ => rfl) ?_
  intro prepared blocks
  simp only [place, placeFilter]
  split
  · exact .blocks blocks
  · rfl

theorem Stacked.push_dedent (stacked : Stacked count top assembler.depth)
    (walks : depthAfter count [.dedent] = some reached) :
    Safe (assembler.push ⟨.dedent, line⟩) fun pushed => Stacked reached .other pushed.depth := by
  cases count with
  | zero => contradiction
  | succ outer =>
      cases walks
      refine stacked.push_settling (fun _ => rfl) ?_
      intro prepared blocks
      exact blocks.placeDedent.mono fun _ => .blocks

/-- A token that both walks pass is taken, or it fails otherwise; and the stack follows
the walks. -/
theorem Stacked.push (stacked : Stacked count top assembler.depth)
    (moves : top.after token = some next) (walks : depthAfter count [token] = some reached) :
    Safe (assembler.push ⟨token, line⟩) fun pushed => Stacked reached next pushed.depth := by
  cases token with
  | dedent =>
      cases moves
      exact stacked.push_dedent walks
  | indent =>
      cases moves
      cases walks
      exact stacked.push_waiting (fun _ => rfl) fun prepared held => held.placeIndent
  | element tag =>
      cases moves
      cases walks
      exact stacked.push_settling (fun _ => rfl) fun prepared blocks => .element rfl blocks
  | directive kind =>
      cases moves
      cases walks
      exact stacked.push_settling (fun _ => rfl) fun prepared blocks => .directive blocks
  | comment lines =>
      cases moves
      cases walks
      exact stacked.push_comment
  | filter name lines =>
      cases moves
      cases walks
      exact stacked.push_filter
  | blankLine =>
      cases moves
      cases walks
      exact stacked.push_settling (fun _ => rfl) fun prepared blocks => blocks.placeBlank
  | literalAttribute name text | codeAttribute name code =>
      cases walks
      exact stacked.push_attribute rfl moves
  | selfClose =>
      cases walks
      exact stacked.push_selfClose moves
  | data text | codeData code escape =>
      cases walks
      exact @Stacked.push_data _ _ _ _ _ _ assembler.profile _ stacked rfl moves
  | content text | codeContent code escape | rawCode code =>
      cases moves
      cases walks
      exact stacked.push_settling (fun _ => rfl) fun prepared blocks => .blocks blocks

end Steps

/-- Lexemes that both walks pass are taken, or they fail otherwise. -/
theorem Stacked.pushAll {count reached : Nat} {top next : Top} {assembler : Assembler}
    {lexemes : List Lexeme} (stacked : Stacked count top assembler.depth)
    (moves : top.afterAll (lexemes.map Lexeme.token) = some next)
    (walks : depthAfter count (lexemes.map Lexeme.token) = some reached) :
    Safe (assembler.pushAll (lexemes.map .ok)) fun pushed =>
      Stacked reached next pushed.depth := by
  induction lexemes generalizing count top assembler with
  | nil =>
      cases moves
      cases walks
      exact stacked
  | cons lexeme others ih =>
      rw [List.map_cons] at moves walks
      unfold Top.afterAll at moves ih
      rw [List.foldlM_cons] at moves
      obtain ⟨middle, moved, movesLater⟩ := Option.bind_eq_some_iff.mp moves
      rw [← List.singleton_append, depthAfter_append] at walks
      obtain ⟨depth, walked, walksLater⟩ := Option.bind_eq_some_iff.mp walks
      have pushing : Safe (assembler.push lexeme) fun pushed =>
          Stacked depth middle pushed.depth := stacked.push moved walked
      rw [List.map_cons, Assembler.pushAll]
      split
      · rename_i fault failed
        rw [failed] at pushing
        exact pushing
      · rename_i pushed accepted
        rw [accepted] at pushing
        exact ih pushing movesLater walksLater

theorem Stacked.withoutBlank {count : Nat} {top : Top} {assembler : Assembler}
    (stacked : Stacked count top assembler.depth) :
    ∃ left, Stacked count left assembler.withoutBlank.depth := by
  unfold Assembler.withoutBlank
  split
  · rename_i outer same
    rw [same] at stacked
    cases stacked with
    | blank below => exact ⟨.other, .blocks below⟩
    | blocks below =>
        have impossible := below.2 _ List.mem_cons_self
        contradiction
  · exact ⟨top, stacked⟩

theorem Stacked.finish {count : Nat} {top : Top} {assembler : Assembler}
    (stacked : Stacked count top assembler.depth) : Safe assembler.finish fun _ => True := by
  obtain ⟨left, stackedThen⟩ := stacked.withoutBlank
  rw [finish_eq]
  exact stackedThen.settle.map fun _ _ => trivial

end Assembler

end Stencil
