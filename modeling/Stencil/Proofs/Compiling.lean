import Stencil.Proofs.Names
import Stencil.Template

/-! Compiling is cutting into lexemes and assembling them.

A text compiles exactly when it can be cut into lexemes and these can be assembled.
Without a meta directive among them the program has no header. -/

namespace Stencil

/-! ### Compiled texts -/

theorem Assembler.pushAll_error (lexemes : List Lexeme) (fault : Fault)
    (assembler last : Assembler) :
    assembler.pushAll (lexemes.map .ok ++ [.error fault]) ≠ .ok last := by
  induction lexemes generalizing assembler with
  | nil =>
      intro pushed
      contradiction
  | cons lexeme others ih =>
      intro pushed
      simp only [List.map_cons, List.cons_append, pushAll] at pushed
      split at pushed
      · contradiction
      · exact ih _ pushed

namespace Program

theorem ofSource_eq_ok_iff {source : Source} {program : Program} :
    ofSource source = .ok program ↔
      source.lexemes.2 = none ∧ ofLexemes source.lexemes.1 = .ok program := by
  unfold ofSource ofLexemes Source.items
  cases broken : source.lexemes.2 with
  | none => simp
  | some fault =>
      constructor
      · intro compiled
        unfold ofItems at compiled
        split at compiled
        · contradiction
        · rename_i assembler pushed
          exact absurd pushed (Assembler.pushAll_error _ fault _ _)
      · rintro ⟨impossible, -⟩
        contradiction

/-- A text compiles exactly when it can be cut into lexemes that can be assembled. -/
theorem compile_eq_ok_iff {text : Text} {program : Program} :
    compile text = .ok program ↔
      ∃ lexemes, tokenize text = .ok lexemes ∧ ofLexemes lexemes = .ok program := by
  unfold compile tokenize
  cases Source.ofText text with
  | error fault => simp
  | ok source =>
      simp only [ofSource_eq_ok_iff]
      cases scanned : source.lexemes with
      | mk lexemes broken =>
          cases broken with
          | none => simp
          | some fault => simp

theorem ofLexemes_of_compile {text : Text} {lexemes : List Lexeme} {program : Program}
    (scanned : tokenize text = .ok lexemes) (compiled : compile text = .ok program) :
    ofLexemes lexemes = .ok program := by
  obtain ⟨found, foundScanned, assembled⟩ := compile_eq_ok_iff.mp compiled
  rw [scanned] at foundScanned
  cases foundScanned
  exact assembled

end Program

theorem allNamed_tokenize {text : Text} {lexemes : List Lexeme}
    (scanned : tokenize text = .ok lexemes)
    (plain : ∀ lexeme ∈ lexemes, lexeme.token.isDirective = false) :
    Scanner.AllNamed lexemes := by
  unfold tokenize at scanned
  split at scanned
  · contradiction
  · rename_i source _
    split at scanned
    · rename_i yielded complete
      cases scanned
      have run : (Scanner.ofSource source).run = (lexemes, none) := complete
      have named := Scanner.allNamed_run (Scanner.ofSource source)
      rw [run] at named
      exact named plain
    · contradiction

/-! ### Programs without a header -/

def Construct.isDirective : Construct → Bool
  | .directive _ _ _ => true
  | _ => false

namespace Assembler

/-- The header and the profile are settled: no directive waits that could set them. -/
structure Decided (header : Option Markup.Header) (profile : Markup.Profile)
    (assembler : Assembler) : Prop where
  sameHeader : assembler.header = header
  sameProfile : assembler.profile = profile
  depth : ∀ construct ∈ assembler.depth, construct.isDirective = false

section Deciding

variable {header : Option Markup.Header} {profile : Markup.Profile} {assembler next : Assembler}
  {construct : Construct} {others : List Construct}

private theorem Decided.innermost (decided : Decided header profile assembler)
    (top : assembler.depth = construct :: others) : construct.isDirective = false :=
  decided.depth construct (by simp [top])

theorem Decided.outer (decided : Decided header profile assembler)
    (top : assembler.depth = construct :: others) :
    ∀ other ∈ others, other.isDirective = false :=
  fun other member => decided.depth other (by simp [top, member])

theorem Decided.settled (decided : Decided header profile assembler)
    (settled : Settled assembler next) : Decided header profile next := by
  cases settled with
  | element top complete => exact ⟨decided.sameHeader, decided.sameProfile, decided.outer top⟩
  | comment top => exact ⟨decided.sameHeader, decided.sameProfile, decided.outer top⟩
  | blank top => exact ⟨decided.sameHeader, decided.sameProfile, decided.outer top⟩
  | directive top declared =>
      have plain := decided.innermost top
      contradiction
  | block top => exact decided
  | empty top => exact decided

private theorem Decided.push_construct (decided : Decided header profile assembler)
    (sameHeader : next.header = assembler.header) (sameProfile : next.profile = assembler.profile)
    (depth : next.depth = construct :: others)
    (rest : ∀ other ∈ others, other.isDirective = false)
    (undirected : construct.isDirective = false) : Decided header profile next where
  sameHeader := by rw [sameHeader, decided.sameHeader]
  sameProfile := by rw [sameProfile, decided.sameProfile]
  depth := by
    rw [depth]
    exact List.forall_mem_cons.mpr ⟨undirected, rest⟩

theorem Decided.placed {token : Token} {line : Nat} (decided : Decided header profile assembler)
    (plain : token.isDirective = false) (placed : Placed token line assembler next) :
    Decided header profile next := by
  cases placed with
  | element tag line => exact decided.push_construct rfl rfl rfl decided.depth rfl
  | attributed given top growing =>
      exact decided.push_construct rfl rfl rfl (decided.outer top) rfl
  | declared top =>
      have undirected := decided.innermost top
      contradiction
  | selfClose top => exact decided.push_construct rfl rfl rfl (decided.outer top) rfl
  | data given top settled =>
      refine Decided.settled ?_ settled
      exact decided.push_construct rfl rfl rfl (decided.outer top) rfl
  | leaf given => exact ⟨decided.sameHeader, decided.sameProfile, decided.depth⟩
  | joinedComment top => exact decided.push_construct rfl rfl rfl (decided.outer top) rfl
  | comment top => exact decided.push_construct rfl rfl rfl decided.depth rfl
  | directive kind line => contradiction
  | indent top growing complete =>
      exact decided.push_construct rfl rfl rfl (decided.outer top) rfl
  | dedent top => exact ⟨decided.sameHeader, decided.sameProfile, decided.outer top⟩
  | markedBlank after top => exact decided.push_construct rfl rfl rfl (decided.outer top) rfl
  | writtenBlank after top => exact ⟨decided.sameHeader, decided.sameProfile, decided.depth⟩
  | waitingBlank after => exact decided.push_construct rfl rfl rfl decided.depth rfl

theorem kept_decided (header : Option Markup.Header) (profile : Markup.Profile) :
    Kept (fun lexeme => lexeme.token.isDirective = false) (Decided header profile) where
  settled := Decided.settled
  placed := fun plain decided placed => decided.placed plain placed
  recorded := fun _ _ decided => ⟨decided.sameHeader, decided.sameProfile, decided.depth⟩
  dropped := fun decided top => ⟨decided.sameHeader, decided.sameProfile, decided.outer top⟩

end Deciding

/-- No header was declared and no directive waits. -/
structure Undeclared (assembler : Assembler) : Prop where
  header : assembler.header = none
  depth : ∀ construct ∈ assembler.depth, construct.isDirective = false

theorem Undeclared.decided {assembler : Assembler} (undeclared : assembler.Undeclared) :
    Decided none assembler.profile assembler :=
  ⟨undeclared.header, rfl, undeclared.depth⟩

theorem Decided.undeclared {profile : Markup.Profile} {assembler : Assembler}
    (decided : Decided none profile assembler) : assembler.Undeclared :=
  ⟨decided.sameHeader, decided.depth⟩

theorem Undeclared.settled {assembler next : Assembler} (undeclared : assembler.Undeclared)
    (settled : Settled assembler next) : next.Undeclared :=
  (undeclared.decided.settled settled).undeclared

theorem kept_undeclared : Kept (fun lexeme => lexeme.token.isDirective = false) Undeclared where
  settled := Undeclared.settled
  placed := fun plain undeclared placed => (undeclared.decided.placed plain placed).undeclared
  recorded := fun _ _ undeclared => ⟨undeclared.header, undeclared.depth⟩
  dropped := fun undeclared top => ⟨undeclared.header, undeclared.decided.outer top⟩

end Assembler

/-- Lexemes without a directive give a program without a header. -/
theorem Program.header_ofLexemes {lexemes : List Lexeme} {program : Program}
    (plain : ∀ lexeme ∈ lexemes, lexeme.token.isDirective = false)
    (assembled : ofLexemes lexemes = .ok program) : program.header = none := by
  obtain ⟨assembler, undeclared, rfl⟩ :=
    Assembler.kept_undeclared.ofItems (by simpa using plain)
      ⟨rfl, by simp [Assembler.start]⟩ assembled
  exact undeclared.header

end Stencil
