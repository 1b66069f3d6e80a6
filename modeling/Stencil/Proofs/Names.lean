import Stencil.Proofs.Guarded
import Stencil.Proofs.Scanning

/-! Names that a scanner reads.

A name starts with a letter or an underscore and goes on with letters, digits,
underscores and hyphens.  Every tag and every attribute name that a scanner yields
is one, apart from the attributes of a meta directive, which has a grammar of its
own. -/

namespace Stencil

/-! ### Names -/

def isName : Text → Bool
  | [] => false
  | first :: rest =>
      (first.isAlpha || first = '_') &&
        rest.all fun character => character.isAlphanum || character = '_' || character = '-'

theorem isName_cons (first : Char) (rest : Text) :
    isName (first :: rest) = (isNameStart first && rest.all isNameCharacter) := rfl

theorem isNameCharacter_of_isName {name : Text} (named : isName name = true) :
    name ≠ [] ∧ ∀ character ∈ name, isNameCharacter character = true := by
  cases name with
  | nil => contradiction
  | cons first rest =>
      rw [isName_cons, Bool.and_eq_true, List.all_eq_true] at named
      refine ⟨by simp, List.forall_mem_cons.mpr ⟨?_, named.2⟩⟩
      exact isNameCharacter_of_isNameStart named.1

theorem newline_not_mem_of_isName {name : Text} (named : isName name = true) :
    '\n' ∉ name := by
  intro member
  have impossible := (isNameCharacter_of_isName named).2 '\n' member
  revert impossible
  decide

def Token.Named (token : Token) : Prop :=
  ∀ name ∈ token.name?, isName name = true

def Token.isDirective : Token → Bool
  | .directive _ => true
  | _ => false

namespace Source

theorem all_readWhile (test : Char → Bool) (source : Source) :
    ∀ character ∈ (source.readWhile test).1, test character = true := by
  fun_induction readWhile test source with
  | case1 source ended => simp
  | case2 source character next passes others ih =>
      simp only [List.forall_mem_cons]
      exact ⟨passes, ih⟩
  | case3 source character next fails => simp

theorem readWhile_eq_cons {test : Char → Bool} {source : Source} {character : Char}
    (next : source.readChar.1 = some character) (passes : test character = true) :
    ∃ rest, (source.readWhile test).1 = character :: rest := by
  unfold readWhile
  split
  · rename_i ended
    rw [ended] at next
    contradiction
  · rename_i found same
    rw [same] at next
    obtain rfl := Option.some.inj next
    simp [passes]

theorem isName_of_readName {role : NameRole} {source after : Source} {name : Text}
    (read : source.readName role = .ok (name, after)) : isName name = true := by
  unfold readName at read
  split at read
  · rename_i character next
    split at read
    · rename_i start
      simp only [Except.ok.injEq] at read
      obtain ⟨rest, taken⟩ :=
        @readWhile_eq_cons isNameCharacter source character next
          (isNameCharacter_of_isNameStart start)
      have passed := all_readWhile isNameCharacter source
      rw [read] at taken passed
      simp only at taken passed
      subst taken
      rw [isName_cons, Bool.and_eq_true, List.all_eq_true]
      exact ⟨start, fun other member => passed other (by simp [member])⟩
    · split at read <;> contradiction
  · contradiction

theorem isName_of_shortcutAttribute {shortcut : Char} {name : Text}
    (named : shortcutAttribute shortcut = some name) : isName name = true := by
  unfold shortcutAttribute at named
  repeat' split at named
  all_goals
    cases named
    try decide

theorem isName_of_readShortcuts {source after : Source} {attributes : List (Text × Text)}
    (read : source.readShortcuts = .ok (attributes, after)) :
    ∀ entry ∈ attributes, isName entry.1 = true := by
  fun_induction readShortcuts source generalizing attributes after with
  | case1 source next =>
      cases read
      simp
  | case2 source shortcut next none =>
      cases read
      simp
  | case3 => contradiction
  | case4 => contradiction
  | case5 source shortcut next name named value middle valueRead others last othersRead ih =>
      cases read
      exact List.forall_mem_cons.mpr ⟨isName_of_shortcutAttribute named, ih othersRead⟩

end Source

/-! ### Names in lexemes -/

theorem Token.named_of_none {token : Token} (nameless : token.name? = none) : token.Named := by
  intro name given
  rw [nameless] at given
  contradiction

namespace Scanner

def AllNamed (lexemes : List Lexeme) : Prop :=
  ∀ lexeme ∈ lexemes, lexeme.token.Named

theorem allNamed_append {first second : List Lexeme} (namedFirst : AllNamed first)
    (namedSecond : AllNamed second) : AllNamed (first ++ second) := by
  intro lexeme member
  rcases List.mem_append.mp member with early | late
  · exact namedFirst lexeme early
  · exact namedSecond lexeme late

theorem allNamed_onLine {line : Nat} {tokens : List Token}
    (named : ∀ token ∈ tokens, token.Named) : AllNamed (onLine line tokens) := by
  intro lexeme member
  obtain ⟨token, among, rfl⟩ := List.mem_map.mp member
  exact named token among

private theorem allNamed_startElement {tag : Text} {line : Nat} {source after : Source}
    {mode : Mode} {lexemes : List Lexeme} (named : isName tag = true)
    (read : startElement tag line source = .ok (after, mode, lexemes)) : AllNamed lexemes := by
  unfold startElement at read
  split at read
  · contradiction
  · rename_i attributes last shortcuts
    cases read
    apply allNamed_onLine
    refine List.forall_mem_cons.mpr ⟨?_, ?_⟩
    · intro name given
      cases given
      exact named
    · intro token member
      obtain ⟨entry, among, rfl⟩ := List.mem_map.mp member
      intro name given
      cases given
      exact Source.isName_of_readShortcuts shortcuts entry among

private theorem named_readAttribute {parentheses line : Nat} {source after : Source}
    {token : Token} (read : readAttribute parentheses line source = .ok (token, after)) :
    token.Named := by
  unfold readAttribute at read
  split at read
  · contradiction
  · rename_i name middle nameRead
    have named := Source.isName_of_readName nameRead
    suffices token.name? = some name by
      intro given same
      rw [this] at same
      cases same
      exact named
    split at read
    · simp only [readBareValue, Except.map] at read
      repeat' split at read
      all_goals
        first
        | contradiction
        | (cases read
           rfl)
    · cases read
      rfl

theorem allNamed_pieceRead {parentheses : Nat} {source after : Source} {mode : Mode}
    {lexemes : List Lexeme} (read : PieceRead source parentheses after mode lexemes) :
    AllNamed lexemes := by
  cases read with
  | selfClose next =>
      apply allNamed_onLine
      split <;> simp [Token.Named, Token.name?]
  | attributed next start attributeRead =>
      apply allNamed_onLine
      simp only [List.mem_singleton, forall_eq]
      exact named_readAttribute attributeRead
  | _ => exact List.forall_mem_nil _

theorem allNamed_readConstruct {opening : Opening} {width line : Nat} {source after : Source}
    {mode : Mode} {lexemes : List Lexeme} (notDirective : opening ≠ .directive)
    (read : readConstruct opening width line source = .ok (after, mode, lexemes)) :
    AllNamed lexemes := by
  cases opening with
  | element =>
      simp only [readConstruct, readElement] at read
      split at read
      · contradiction
      · rename_i tag middle nameRead
        exact allNamed_startElement (Source.isName_of_readName nameRead) read
  | shortcut => exact allNamed_startElement (by decide) read
  | comment =>
      cases read
      exact allNamed_onLine (by simp [Token.Named, Token.name?])
  | directive => contradiction
  | code =>
      simp only [readConstruct, readCode] at read
      split at read
      · contradiction
      · rename_i payload _
        cases read
        apply allNamed_onLine
        cases payload <;> simp [Payload.content, Token.Named, Token.name?]
  | filter =>
      simp only [readConstruct, readFilterHeading] at read
      split at read
      · contradiction
      · cases read
        exact List.forall_mem_nil _
  | rawCode =>
      simp only [readConstruct, readRawCode] at read
      split at read
      · contradiction
      · cases read
        exact allNamed_onLine (by simp [Token.Named, Token.name?])
  | verbatim =>
      cases read
      exact allNamed_onLine (by simp [Token.Named, Token.name?])
  | text =>
      cases read
      exact allNamed_onLine (by simp [Token.Named, Token.name?])

theorem exists_directive_of_readDirective {width line : Nat} {source after : Source}
    {mode : Mode} {lexemes : List Lexeme}
    (read : readConstruct .directive width line source = .ok (after, mode, lexemes)) :
    ∃ lexeme ∈ lexemes, lexeme.token.isDirective = true := by
  simp only [readConstruct, readDirective] at read
  split at read
  · contradiction
  · rename_i directive _
    cases read
    exact ⟨{ token := .directive directive.kind, line := line }, by simp [onLine], rfl⟩

private theorem allNamed_enterLevel {width line : Nat} {levels left : Levels}
    {lexemes : List Lexeme} (entered : enterLevel width line levels = .ok (left, lexemes)) :
    AllNamed lexemes := by
  unfold enterLevel at entered
  split at entered
  · cases entered
    exact allNamed_onLine (by simp [Token.Named, Token.name?])
  · cases entered
    exact List.forall_mem_nil _
  · split at entered
    · cases entered
      apply allNamed_onLine
      intro token member
      rw [List.eq_of_mem_replicate member]
      exact Token.named_of_none rfl
    · contradiction

theorem allNamed_stepped {scanner next : Scanner} {lexemes : List Lexeme}
    (plain : ∀ lexeme ∈ lexemes, lexeme.token.isDirective = false)
    (stepped : Stepped scanner next lexemes) : AllNamed lexemes := by
  cases stepped with
  | ended reading noLine =>
      apply allNamed_onLine
      intro token member
      rw [List.eq_of_mem_replicate member]
      exact Token.named_of_none rfl
  | blank reading found isBlank => exact List.forall_mem_nil _
  | line reading found visible => exact List.forall_mem_nil _
  | @construct width text levels after mode structural constructLexemes reading found indent
      entered read =>
      refine allNamed_append (allNamed_append (allNamed_enterLevel entered) ?_) ?_
      · split
        · exact allNamed_onLine (by simp [Token.Named, Token.name?])
        · exact List.forall_mem_nil _
      · apply allNamed_readConstruct ?_ read
        -- The attributes of a directive need not be names, but it would have been yielded.
        intro opensDirective
        rw [opensDirective] at read
        obtain ⟨lexeme, member, directive⟩ := exists_directive_of_readDirective read
        rw [plain lexeme (by simp [member])] at directive
        contradiction
  | piece reading read => exact allNamed_pieceRead read
  | @data payload reading read =>
      apply allNamed_onLine
      cases payload <;> simp [Payload.data, Token.Named, Token.name?]
  | filterBody reading => exact allNamed_onLine (by simp [Token.Named, Token.name?])
  | done reading => exact List.forall_mem_nil _

theorem allNamed_run (scanner : Scanner)
    (plain : ∀ lexeme ∈ scanner.run.1, lexeme.token.isDirective = false) :
    AllNamed scanner.run.1 := by
  fun_induction run scanner with
  | case1 scanner finished => exact List.forall_mem_nil _
  | case2 scanner active fault failed => exact List.forall_mem_nil _
  | case3 scanner active next lexemes stepped others ih =>
      obtain ⟨acted, steps, -⟩ := step_cases stepped
      apply allNamed_append
      · exact allNamed_stepped (fun lexeme member => plain lexeme (by simp [member])) steps
      · exact ih (fun lexeme member => plain lexeme (by simp [others, member]))

end Scanner

end Stencil
