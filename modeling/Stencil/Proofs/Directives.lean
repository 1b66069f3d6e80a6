import Stencil.Proofs.AssemblyAfter

/-! Meta directives.

A directive waits on the stack while attributes follow it, and what comes next, or the
end, turns it into the header.  The flag that something has begun lets a directive
through only while all tokens were layout, and the directive itself sets the flag: so
lexemes that can be assembled have at most one, with nothing but layout in front. -/

namespace Stencil

open Markup (Header Profile)

/-! ### Attributes of a directive -/

def leadingAttributes : List Lexeme → List (Text × Text)
  | ⟨.literalAttribute name text, _⟩ :: others => (name, text) :: leadingAttributes others
  | _ => []

/-- Attributes that follow a directive go to it, anything else ends them. -/
theorem leadingAttributes_of_ne {lexeme : Lexeme} (others : List Lexeme)
    (other : ∀ name text, lexeme.token ≠ .literalAttribute name text) :
    leadingAttributes (lexeme :: others) = [] := by
  obtain ⟨token, line⟩ := lexeme
  cases token with
  | literalAttribute name text => exact absurd rfl (other name text)
  | _ => rfl

namespace Assembler

variable {assembler next last : Assembler} {lexemes : List Lexeme} {program : Program}

/-! ### What has begun -/

theorem begun_push {lexeme : Lexeme} (pushed : assembler.push lexeme = .ok next) :
    next.begun = (assembler.begun || !lexeme.token.isStructural) := by
  obtain ⟨-, prepared, placed, prepares, places, rfl⟩ := push_cases pushed
  have same : prepared.begun = assembler.begun := by
    rcases prepares with ⟨-, rfl⟩ | ⟨-, settled⟩
    · rfl
    · exact begun_settled settled
  simp only [begun_placed places, same]

theorem begun_pushAll (pushed : assembler.pushAll (lexemes.map .ok) = .ok last) :
    last.begun = (assembler.begun || lexemes.any fun lexeme => !lexeme.token.isStructural) := by
  induction lexemes generalizing assembler with
  | nil =>
      cases pushed
      simp
  | cons lexeme others ih =>
      simp only [List.map_cons, pushAll] at pushed
      split at pushed
      · contradiction
      · rename_i next accepted
        rw [ih pushed, begun_push accepted, List.any_cons, Bool.or_assoc]

theorem isDirective_of_begun (begun : assembler.begun = true)
    (pushed : assembler.pushAll (lexemes.map .ok) = .ok last) :
    ∀ lexeme ∈ lexemes, lexeme.token.isDirective = false := by
  induction lexemes generalizing assembler with
  | nil => simp
  | cons lexeme others ih =>
      simp only [List.map_cons, pushAll] at pushed
      split at pushed
      · contradiction
      · rename_i next accepted
        obtain ⟨plain, goesOn⟩ := push_of_begun begun accepted
        exact List.forall_mem_cons.mpr ⟨plain, ih goesOn pushed⟩

/-! ### Directives that wait -/

def Waiting (kind : Text) (attributes : List (Text × Text)) (line : Nat)
    (assembler : Assembler) : Prop :=
  ∃ outer, assembler.depth = .directive kind attributes line :: outer ∧
    ∀ construct ∈ outer, construct.isDirective = false

variable {kind : Text} {attributes : List (Text × Text)} {line : Nat}

theorem Waiting.innermost {construct : Construct} {others : List Construct}
    (waiting : assembler.Waiting kind attributes line)
    (top : assembler.depth = construct :: others) :
    construct = .directive kind attributes line := by
  obtain ⟨outer, depth, -⟩ := waiting
  rw [depth] at top
  exact (List.cons.inj top).1.symm

theorem unbegun_of_push (pushed : assembler.push ⟨.directive kind, line⟩ = .ok next) :
    assembler.begun = false := by
  obtain ⟨allowed, -⟩ := push_cases pushed
  simp only [allow] at allowed
  split at allowed
  · contradiction
  · split at allowed
    · contradiction
    · rename_i unbegun
      simpa using unbegun

theorem waiting_of_push {header : Option Header} {profile : Profile}
    (decided : Decided header profile assembler)
    (pushed : assembler.push ⟨.directive kind, line⟩ = .ok next) :
    next.Waiting kind [] line := by
  obtain ⟨-, prepared, placed, prepares, places, rfl⟩ := push_cases pushed
  have decidedPrepared : Decided header profile prepared := by
    rcases prepares with ⟨-, rfl⟩ | ⟨-, settled⟩
    · exact decided
    · exact decided.settled settled
  cases places with
  | directive kind line => exact ⟨_, rfl, decidedPrepared.depth⟩
  | attributed given => contradiction
  | data given => contradiction
  | leaf given => contradiction

theorem Waiting.settled (waiting : assembler.Waiting kind attributes line)
    (settled : Settled assembler next) :
    ∃ header profile, Header.ofDirective line { kind := kind, attributes := attributes } =
        .ok (header, profile) ∧ Decided (some header) profile next := by
  have ⟨outer, depth, plain⟩ := waiting
  cases settled with
  | directive top declared =>
      rw [depth] at top
      cases top
      exact ⟨_, _, declared, rfl, rfl, plain⟩
  | element top => cases waiting.innermost top
  | comment top => cases waiting.innermost top
  | blank top => cases waiting.innermost top
  | block top => cases waiting.innermost top
  | empty top =>
      rw [depth] at top
      contradiction

theorem Waiting.push_literal {name text : Text} {place : Nat}
    (waiting : assembler.Waiting kind attributes line)
    (pushed : assembler.push ⟨.literalAttribute name text, place⟩ = .ok next) :
    next.Waiting kind (attributes ++ [(name, text)]) line := by
  have ⟨outer, depth, plain⟩ := waiting
  obtain ⟨-, prepared, placed, prepares, places, rfl⟩ := push_cases pushed
  rcases prepares with ⟨-, rfl⟩ | ⟨closes, -⟩
  · cases places with
    | declared top =>
        rw [depth] at top
        cases top
        exact ⟨outer, rfl, plain⟩
    | attributed given top => cases waiting.innermost top
    | data given => contradiction
    | leaf given => contradiction
  · contradiction

/-- Any other lexeme closes it: those that would go on with an element are refused. -/
theorem Waiting.push_other {lexeme : Lexeme} (waiting : assembler.Waiting kind attributes line)
    (other : ∀ name text, lexeme.token ≠ .literalAttribute name text)
    (plain : lexeme.token.isDirective = false) (pushed : assembler.push lexeme = .ok next) :
    ∃ header profile, Header.ofDirective line { kind := kind, attributes := attributes } =
        .ok (header, profile) ∧ Decided (some header) profile next := by
  have ⟨outer, depth, _⟩ := waiting
  obtain ⟨-, prepared, placed, prepares, places, rfl⟩ := push_cases pushed
  rcases prepares with ⟨keeps, rfl⟩ | ⟨-, settled⟩
  · obtain ⟨token, place⟩ := lexeme
    cases places with
    | attributed given top => cases waiting.innermost top
    | declared top => exact absurd rfl (other _ _)
    | selfClose top => cases waiting.innermost top
    | data given top => cases waiting.innermost top
    | indent top => cases waiting.innermost top
    | joinedComment top => cases waiting.innermost top
    | comment top => simp [settlesFor, depth] at keeps
    | leaf given => cases token <;> contradiction
    | _ => contradiction
  · obtain ⟨header, profile, declared, decided⟩ := waiting.settled settled
    refine ⟨header, profile, declared, ?_⟩
    have decidedPlaced := decided.placed plain places
    exact (kept_decided _ _).recorded _ _ decidedPlaced

theorem finish_of_decided {header : Option Header} {profile : Profile}
    (decided : Decided header profile assembler)
    (plain : ∀ lexeme ∈ lexemes, lexeme.token.isDirective = false)
    (pushed : assembler.pushAll (lexemes.map .ok) = .ok last)
    (finished : last.finish = .ok program) :
    program.header = header ∧ program.profile = profile := by
  have kept := kept_decided header profile
  obtain ⟨settled, decidedSettled, rfl⟩ :=
    kept.finish (kept.pushAll (by simpa using plain) decided pushed) finished
  exact ⟨decidedSettled.sameHeader, decidedSettled.sameProfile⟩

/-- What follows a waiting directive, or the end, declares the header with the literal
attributes up to there. -/
theorem Waiting.finish (waiting : assembler.Waiting kind attributes line)
    (plain : ∀ lexeme ∈ lexemes, lexeme.token.isDirective = false)
    (pushed : assembler.pushAll (lexemes.map .ok) = .ok last)
    (finished : last.finish = .ok program) :
    ∃ header, program.header = some header ∧
      Header.ofDirective line
          { kind := kind, attributes := attributes ++ leadingAttributes lexemes } =
        .ok (header, program.profile) := by
  induction lexemes generalizing assembler attributes with
  | nil =>
      cases pushed
      have ⟨outer, depth, _⟩ := waiting
      rw [finish_of_ne_blank (by simp [depth])] at finished
      cases settles : last.settle with
      | error fault =>
          rw [settles] at finished
          contradiction
      | ok settled =>
          rw [settles] at finished
          cases finished
          obtain ⟨header, profile, declared, decided⟩ :=
            waiting.settled (settled_of_settle settles)
          refine ⟨header, decided.sameHeader, ?_⟩
          have sameProfile : settled.ended.profile = profile := decided.sameProfile
          rw [sameProfile]
          simpa [leadingAttributes] using declared
  | cons lexeme others ih =>
      obtain ⟨plainFirst, plainOthers⟩ := List.forall_mem_cons.mp plain
      simp only [List.map_cons, pushAll] at pushed
      split at pushed
      · contradiction
      · rename_i next accepted
        by_cases literal : ∃ name text, lexeme.token = .literalAttribute name text
        · obtain ⟨token, place⟩ := lexeme
          obtain ⟨name, text, rfl⟩ := literal
          have grown := ih (waiting.push_literal accepted) plainOthers pushed
          rw [List.append_assoc] at grown
          exact grown
        · have other : ∀ name text, lexeme.token ≠ .literalAttribute name text :=
            fun name text same => literal ⟨name, text, same⟩
          obtain ⟨header, profile, declared, decided⟩ :=
            waiting.push_other other plainFirst accepted
          obtain ⟨sameHeader, sameProfile⟩ := finish_of_decided decided plainOthers pushed finished
          rw [leadingAttributes_of_ne others other, List.append_nil, sameProfile]
          exact ⟨header, sameHeader, declared⟩

end Assembler

/-! ### Assembled lexemes -/

namespace Program

variable {lexemes : List Lexeme} {program : Program}

theorem ofLexemes_eq_ok_iff :
    ofLexemes lexemes = .ok program ↔
      ∃ last, Assembler.start.pushAll (lexemes.map .ok) = .ok last ∧
        last.finish = .ok program := by
  unfold ofLexemes ofItems
  cases Assembler.start.pushAll (lexemes.map .ok) with
  | error fault => simp
  | ok last => simp

theorem isDirective_of_isStructural {token : Token} (layout : token.isStructural = true) :
    token.isDirective = false := by
  cases token <;> first | rfl | contradiction

theorem decided_start : Assembler.Decided none Profile.standard Assembler.start :=
  ⟨rfl, rfl, by simp [Assembler.start]⟩

/-- A directive has only layout in front of it, no directive behind it, and declares
the header of the program. -/
theorem header_of_directive {before after : List Lexeme} {kind : Text} {line : Nat}
    (assembled : ofLexemes (before ++ ⟨.directive kind, line⟩ :: after) = .ok program) :
    (∀ lexeme ∈ before, lexeme.token.isStructural = true) ∧
      (∀ lexeme ∈ after, lexeme.token.isDirective = false) ∧
      ∃ header, program.header = some header ∧
        Header.ofDirective line { kind := kind, attributes := leadingAttributes after } =
          .ok (header, program.profile) := by
  obtain ⟨last, pushed, finished⟩ := ofLexemes_eq_ok_iff.mp assembled
  rw [List.map_append, Assembler.pushAll_append_eq_ok] at pushed
  obtain ⟨middle, pushedBefore, pushedRest⟩ := pushed
  simp only [List.map_cons, Assembler.pushAll] at pushedRest
  split at pushedRest
  · contradiction
  · rename_i next accepted
    have layout : ∀ lexeme ∈ before, lexeme.token.isStructural = true := by
      have begun := Assembler.begun_pushAll pushedBefore
      rw [Assembler.unbegun_of_push accepted] at begun
      simpa [Assembler.start] using begun.symm
    have decided : Assembler.Decided none Profile.standard middle := by
      refine (Assembler.kept_decided _ _).pushAll ?_ decided_start pushedBefore
      intro lexeme member
      exact isDirective_of_isStructural (layout lexeme (by simpa using member))
    have begun : next.begun = true := by
      rw [Assembler.begun_push accepted]
      simp [Token.isStructural]
    have plain := Assembler.isDirective_of_begun begun pushedRest
    have waiting := Assembler.waiting_of_push decided accepted
    exact ⟨layout, plain, waiting.finish plain pushedRest finished⟩

theorem undeclared_of_plain (plain : ∀ lexeme ∈ lexemes, lexeme.token.isDirective = false)
    (assembled : ofLexemes lexemes = .ok program) :
    program.header = none ∧ program.profile = Profile.standard := by
  obtain ⟨last, pushed, finished⟩ := ofLexemes_eq_ok_iff.mp assembled
  exact Assembler.finish_of_decided decided_start plain pushed finished

/-- Lexemes have no directive, or can be split at one. -/
theorem plain_or_split (lexemes : List Lexeme) :
    (∀ lexeme ∈ lexemes, lexeme.token.isDirective = false) ∨
      ∃ before kind line after, lexemes = before ++ ⟨.directive kind, line⟩ :: after := by
  by_cases directed : ∃ lexeme ∈ lexemes, lexeme.token.isDirective = true
  · obtain ⟨⟨token, line⟩, member, directive⟩ := directed
    obtain ⟨before, after, split⟩ := List.append_of_mem member
    cases token with
    | directive kind => exact .inr ⟨before, kind, line, after, split⟩
    | _ => contradiction
  · refine .inl ?_
    intro lexeme member
    cases directive : lexeme.token.isDirective with
    | false => rfl
    | true => exact absurd ⟨lexeme, member, directive⟩ directed

private theorem countP_directive_eq_zero
    (plain : ∀ lexeme ∈ lexemes, lexeme.token.isDirective = false) :
    (lexemes.countP fun lexeme => lexeme.token.isDirective) = 0 := by
  rw [List.countP_eq_zero]
  intro lexeme member
  simp [plain lexeme member]

theorem countP_directive_le_one (assembled : ofLexemes lexemes = .ok program) :
    (lexemes.countP fun lexeme => lexeme.token.isDirective) ≤ 1 := by
  rcases plain_or_split lexemes with plain | ⟨before, kind, line, after, rfl⟩
  · rw [countP_directive_eq_zero plain]
    exact Nat.zero_le 1
  · obtain ⟨layout, plain, -⟩ := header_of_directive assembled
    have plainBefore : ∀ lexeme ∈ before, lexeme.token.isDirective = false :=
      fun lexeme member => isDirective_of_isStructural (layout lexeme member)
    rw [List.countP_append, List.countP_cons, countP_directive_eq_zero plainBefore,
      countP_directive_eq_zero plain]
    exact Nat.le_refl 1

theorem isSome_header_iff (assembled : ofLexemes lexemes = .ok program) :
    program.header.isSome = true ↔ ∃ lexeme ∈ lexemes, lexeme.token.isDirective = true := by
  rcases plain_or_split lexemes with plain | ⟨before, kind, line, after, rfl⟩
  · rw [(undeclared_of_plain plain assembled).1]
    constructor
    · intro impossible
      contradiction
    · rintro ⟨lexeme, member, directive⟩
      rw [plain lexeme member] at directive
      contradiction
  · obtain ⟨-, -, header, given, -⟩ := header_of_directive assembled
    rw [given]
    exact ⟨fun _ => ⟨⟨.directive kind, line⟩, by simp, rfl⟩, fun _ => rfl⟩

/-- At most one lexeme is a directive.  It comes first, apart from layout, and together
with the literal attributes right after it, it declares the header.  Without one there
is no header and the profile is the standard one. -/
theorem directive_first_and_once (assembled : ofLexemes lexemes = .ok program) :
    (lexemes.countP fun lexeme => lexeme.token.isDirective) ≤ 1 ∧
      (∀ before kind line after, lexemes = before ++ ⟨.directive kind, line⟩ :: after →
        (∀ lexeme ∈ before, lexeme.token.isStructural = true) ∧
        ∃ header, program.header = some header ∧
          Header.ofDirective line { kind := kind, attributes := leadingAttributes after } =
            .ok (header, program.profile)) ∧
      (program.header.isSome = true ↔ ∃ lexeme ∈ lexemes, lexeme.token.isDirective = true) ∧
      ((∀ lexeme ∈ lexemes, lexeme.token.isDirective = false) →
        program.profile = Profile.standard) := by
  refine ⟨countP_directive_le_one assembled, ?_, isSome_header_iff assembled, ?_⟩
  · rintro before kind line after rfl
    obtain ⟨layout, -, declared⟩ := header_of_directive assembled
    exact ⟨layout, declared⟩
  · intro plain
    exact (undeclared_of_plain plain assembled).2

/-- A blank line, a directive with one attribute and an element. -/
theorem directive_first_and_once_version :
    ∃ program, ofLexemes [⟨.blankLine, 1⟩, ⟨.directive "xml".toList, 2⟩,
        ⟨.literalAttribute "version".toList "1.1".toList, 2⟩, ⟨.element ['p'], 3⟩,
        ⟨.literalAttribute ['k'] ['v'], 3⟩] = .ok program ∧
      ∃ header, program.header = some header ∧
        Header.ofDirective 2
            { kind := "xml".toList, attributes := [("version".toList, "1.1".toList)] } =
          .ok (header, program.profile) := by
  have declares (program : Program) (assembled : ofLexemes _ = .ok program) :=
    (directive_first_and_once assembled).2.1 [⟨.blankLine, 1⟩] "xml".toList 2
      [⟨.literalAttribute "version".toList "1.1".toList, 2⟩, ⟨.element ['p'], 3⟩,
        ⟨.literalAttribute ['k'] ['v'], 3⟩] rfl
  exact ⟨_, rfl, (declares _ rfl).2⟩

end Program

end Stencil
