import Stencil.Proofs.AssemblyAfter
import Stencil.Proofs.JoinedLexemes
import Stencil.Proofs.Stacking

/-! Two texts one after the other, and their programs.

At the end of a text the assembler has nothing open but a construct that the end closes, and
so does an element in the first column.  From there on it takes the lexemes of a second text
as a new assembler does, with what it emitted before in front.  So the program of both texts
is the program of the first followed by that of the second. -/

namespace Stencil

open Source (Recast)

namespace Assembler

/-! ### Blank lines that wait -/

/-- A blank line waits only right after its token, and on top of all else. -/
structure Spaced (assembler : Assembler) : Prop where
  below : .blank ∉ assembler.depth.tail
  top : assembler.previous ≠ some .blankLine → .blank ∉ assembler.depth

theorem blank_not_mem_settled {assembler next : Assembler} (below : .blank ∉ assembler.depth.tail)
    (settled : Settled assembler next) : .blank ∉ next.depth := by
  cases settled with
  | block top =>
      rw [top] at below ⊢
      simpa using below
  | empty top => simp [top]
  | element top complete =>
      rw [top] at below
      exact below
  | comment top =>
      rw [top] at below
      exact below
  | blank top =>
      rw [top] at below
      exact below
  | directive top declared =>
      rw [top] at below
      exact below

theorem blank_not_mem_placed {token : Token} {line : Nat} {prepared placed : Assembler}
    (other : token ≠ .blankLine) (below : .blank ∉ prepared.depth.tail)
    (whole : prepared.settlesFor token = true → .blank ∉ prepared.depth)
    (places : Placed token line prepared placed) : .blank ∉ placed.depth := by
  cases places with
  | element tag line => simpa using whole rfl
  | attributed given top growing =>
      rw [top] at below
      simpa using below
  | declared top =>
      rw [top] at below
      simpa using below
  | selfClose top =>
      rw [top] at below
      simpa using below
  | data given top settled =>
      rw [top] at below
      exact blank_not_mem_settled below settled
  | leaf given =>
      have settles : prepared.settlesFor token = true := by
        cases token <;> first | rfl | contradiction
      exact whole settles
  | joinedComment top =>
      rw [top] at below
      simpa using below
  | comment top =>
      have settles (lines : List Text) : prepared.settlesFor (.comment lines) = true := by
        simp only [settlesFor]
      simpa using whole (settles _)
  | directive kind line => simpa using whole rfl
  | indent top growing complete =>
      rw [top] at below
      simpa using below
  | dedent top =>
      rw [top] at below
      exact below
  | markedBlank after top => contradiction
  | writtenBlank after top => contradiction
  | waitingBlank after => contradiction

theorem Spaced.push {lexeme : Lexeme} {assembler next : Assembler} (spaced : assembler.Spaced)
    (pushed : assembler.push lexeme = .ok next) : next.Spaced := by
  obtain ⟨token, line⟩ := lexeme
  obtain ⟨-, prepared, placed, prepares, places, rfl⟩ := push_cases pushed
  have below : .blank ∉ prepared.depth.tail := by
    rcases prepares with ⟨-, rfl⟩ | ⟨-, settled⟩
    · exact spaced.below
    · intro member
      exact blank_not_mem_settled spaced.below settled (List.mem_of_mem_tail member)
  -- a token that leaves the stack as it is, or adds to it, has closed what waited
  have whole (settles : prepared.settlesFor token = true) : .blank ∉ prepared.depth := by
    rcases prepares with ⟨keeps, rfl⟩ | ⟨-, settled⟩
    · rw [settles] at keeps
      contradiction
    · exact blank_not_mem_settled spaced.below settled
  by_cases blank : token = .blankLine
  · subst blank
    refine ⟨?_, fun other => absurd rfl other⟩
    cases places with
    | leaf given => contradiction
    | markedBlank after top =>
        rw [top] at below
        exact below
    | writtenBlank after top => exact below
    | waitingBlank after => exact whole rfl
    | attributed given top growing => contradiction
    | data given top settled => contradiction
  · have nowhere := blank_not_mem_placed blank below whole places
    exact ⟨fun member => nowhere (List.mem_of_mem_tail member), fun _ => nowhere⟩

theorem Spaced.pushAll {lexemes : List Lexeme} {assembler last : Assembler}
    (spaced : assembler.Spaced) (pushed : assembler.pushAll (lexemes.map .ok) = .ok last) :
    last.Spaced := by
  induction lexemes generalizing assembler with
  | nil =>
      cases pushed
      exact spaced
  | cons lexeme others ih =>
      rw [List.map_cons, Assembler.pushAll] at pushed
      split at pushed
      · contradiction
      · rename_i next accepted
        exact ih (spaced.push accepted) pushed

theorem previous_pushAll {lexemes : List Lexeme} {last : Assembler}
    (pushed : start.pushAll (lexemes.map .ok) = .ok last) :
    last.previous = lexemes.getLast?.map fun lexeme => lexeme.token.kind := by
  rcases List.eq_nil_or_concat' lexemes with rfl | ⟨earlier, lexeme, rfl⟩
  · cases pushed
    rfl
  · rw [List.map_append, pushAll_append_eq_ok] at pushed
    obtain ⟨middle, -, pushed⟩ := pushed
    rw [List.map_singleton, pushAll_singleton] at pushed
    obtain ⟨-, prepared, placed, -, -, rfl⟩ := push_cases pushed
    simp

end Assembler

/-! ### The end of a text -/

/-- The last token of a template ends a line or closes a level. -/
theorem LineGrammar.IsTemplate.kind_getLast {tokens : List Token} {token : Token}
    (template : IsTemplate tokens) (last : tokens.getLast? = some token) :
    token.kind ≠ .indent ∧ token.kind ≠ .blankLine := by
  obtain ⟨lines, closed, ⟨each, -⟩, rfl⟩ := template.lines
  cases closed with
  | succ closed =>
      rw [List.replicate_succ', ← List.append_assoc, List.getLast?_concat] at last
      cases last
      exact ⟨nofun, nofun⟩
  | zero =>
      rw [List.replicate_zero, List.append_nil] at last
      rcases List.eq_nil_or_concat' lines with rfl | ⟨before, line, rfl⟩
      · contradiction
      · cases each line (by simp) with
        | @mk lead construct leads given =>
            rw [List.flatten_concat, ← List.append_assoc,
              List.getLast?_append_of_ne_nil _ given.ne_nil] at last
            have plain := given.plain token (List.mem_of_getLast? last)
            constructor
            · intro same
              cases token <;> contradiction
            · intro same
              cases token <;> contradiction

namespace Assembler

/-- At the end of a text nothing is open but a construct that the end closes. -/
theorem settle_of_ofLexemes {text : Text} {lexemes : List Lexeme} {program : Program}
    (cut : tokenize text = .ok lexemes) (assembled : Program.ofLexemes lexemes = .ok program) :
    ∃ last settled, start.pushAll (lexemes.map .ok) = .ok last ∧ last.previous ≠ some .indent ∧
      last.settle = .ok settled ∧ settled.depth = [] ∧ program = settled.ended := by
  obtain ⟨source, -, ran⟩ := tokenize_eq_ok_iff.mp cut
  have template := Scanner.isTemplate_run source
  rw [Source.lexemes] at ran
  rw [ran] at template
  unfold Program.ofLexemes Program.ofItems at assembled
  split at assembled
  · contradiction
  · rename_i last pushed
    have remembered : last.previous ≠ some .indent ∧ last.previous ≠ some .blankLine := by
      rw [previous_pushAll pushed]
      cases final : lexemes.getLast? with
      | none => simp
      | some lexeme =>
          have token : (lexemes.map Lexeme.token).getLast? = some lexeme.token := by
            rw [List.getLast?_map, final]
            rfl
          simpa using template.kind_getLast token
    have starts : start.Spaced := ⟨by simp [start], by simp [start]⟩
    have unblanked : ∀ outer, last.depth ≠ .blank :: outer := by
      intro outer waits
      have nowhere := (starts.pushAll pushed).top remembered.2
      rw [waits] at nowhere
      exact nowhere List.mem_cons_self
    obtain ⟨top, moves⟩ := template.takeable .other
    have empty : Stacked 0 .other start.depth := .blocks ⟨rfl, by simp [start]⟩
    have stacked := empty.pushAll moves (depthAfter_of_tokenize cut)
    rw [pushed] at stacked
    have settles := Stacked.settle stacked
    rw [finish_of_ne_blank unblanked] at assembled
    cases closes : last.settle with
    | error fault =>
        rw [closes] at assembled
        contradiction
    | ok settled =>
        rw [closes] at assembled settles
        cases assembled
        exact ⟨last, settled, pushed, remembered.1, closes, List.eq_nil_of_length_eq_zero settles.1,
          rfl⟩

/-! ### Closing levels on another line -/

theorem push_dedent_line {assembler next : Assembler} {line : Nat} (other : Nat)
    (pushed : assembler.push ⟨.dedent, line⟩ = .ok next) :
    assembler.push ⟨.dedent, other⟩ = .ok next := by
  simp only [push, prepare, allow, settlesFor, place, placeDedent] at pushed ⊢
  cases closes : assembler.settle with
  | error fault => simp [closes] at pushed
  | ok prepared =>
      simp only [closes, ↓reduceIte] at pushed ⊢
      cases top : prepared.depth with
      | nil => simp [top] at pushed
      | cons construct outer =>
          rw [top] at pushed
          cases construct with
          | block tag blankBeforeClose => exact pushed
          | _ => contradiction

theorem pushAll_dedents_line {assembler last : Assembler} {line count : Nat} (other : Nat)
    (pushed : assembler.pushAll ((Scanner.onLine line (List.replicate count .dedent)).map .ok) =
      .ok last) :
    assembler.pushAll ((Scanner.onLine other (List.replicate count .dedent)).map .ok) = .ok last := by
  induction count generalizing assembler with
  | zero => exact pushed
  | succ count ih =>
      simp only [Scanner.onLine, List.replicate_succ, List.map_cons, pushAll] at pushed ⊢
      split at pushed
      · contradiction
      · rename_i next accepted
        rw [push_dedent_line other accepted]
        exact ih pushed

/-! ### A gap of blank lines -/

/-- A blank line after a construct is emitted when the next construct comes. -/
theorem settle_gap {last settled : Assembler} (gap : Bool) (line : Nat)
    (unindented : last.previous ≠ some .indent) (closes : last.settle = .ok settled)
    (empty : settled.depth = []) :
    ∃ current reached,
      last.pushAll ((if gap then Scanner.onLine line [.blankLine] else []).map .ok) = .ok current ∧
      current.settle = .ok reached ∧ reached.depth = [] ∧ reached.header = settled.header ∧
      reached.profile = settled.profile ∧
      reached.instructions = settled.instructions ++ if gap then [.blank] else [] := by
  cases gap with
  | false => exact ⟨last, settled, rfl, closes, empty, rfl, rfl, (List.append_nil _).symm⟩
  | true =>
      have prepares : last.prepare ⟨.blankLine, line⟩ = .ok settled := closes
      have places : settled.place ⟨.blankLine, line⟩ = .ok (settled.withDepth [.blank]) := by
        rw [← previous_settle closes] at unindented
        simp only [place, placeBlank, if_neg unindented, empty]
      have pushed := push_eq prepares places
      rw [← pushAll_singleton] at pushed
      exact ⟨_, _, pushed, rfl, rfl, rfl, rfl, rfl⟩

end Assembler

/-! ### Programs -/

/-- Lexemes of a second text behind those of a first, with the levels that the first leaves open
closed on a line of the second. -/
theorem Program.ofLexemes_joined {first tag : Text} {lexemes body following others : List Lexeme}
    {one two : Program} {closed ended line : Nat} (gap : Bool) (next shift : Nat)
    (cut : tokenize first = .ok lexemes) (assembled : ofLexemes lexemes = .ok one)
    (split : lexemes = body ++ Scanner.onLine ended (List.replicate closed .dedent))
    (opens : following = ⟨.element tag, line⟩ :: others)
    (assembledSecond : ofLexemes following = .ok two) :
    ofLexemes (body ++ (Scanner.onLine next (List.replicate closed .dedent) ++
        (if gap then Scanner.onLine next [.blankLine] else []) ++
        following.map (Recast.renumber shift).lexeme)) =
      .ok { header := one.header
            profile := one.profile
            instructions := one.instructions ++ (if gap then [.blank] else []) ++
              two.instructions } := by
  obtain ⟨last, settled, pushed, unindented, closes, empty, rfl⟩ :=
    Assembler.settle_of_ofLexemes cut assembled
  have isXml := Assembler.profile_settled (Assembler.profile_pushAll pushed)
    (Assembler.settled_of_settle closes)
  obtain ⟨current, reached, passes, closesGap, emptyGap, header, profile, instructions⟩ :=
    Assembler.settle_gap gap next unindented closes empty
  obtain ⟨final, pushedSecond, finished⟩ := Assembler.finish_following shift closesGap emptyGap
    (profile.trans isXml) opens assembledSecond
  rw [split, List.map_append, Assembler.pushAll_append_eq_ok] at pushed
  obtain ⟨middle, pushedBody, pushedDedents⟩ := pushed
  have moved := Assembler.pushAll_dedents_line next pushedDedents
  have all : Assembler.start.pushAll ((body ++ (Scanner.onLine next (List.replicate closed .dedent) ++
      (if gap then Scanner.onLine next [.blankLine] else []) ++
      following.map (Recast.renumber shift).lexeme)).map .ok) = .ok final := by
    simp only [List.map_append, Assembler.pushAll_append_eq_ok]
    exact ⟨middle, pushedBody, current, ⟨last, moved, passes⟩, pushedSecond⟩
  have same : settled.ended.instructions = settled.instructions := by
    rw [Assembler.ended, empty]
    exact List.append_nil _
  unfold ofLexemes ofItems
  rw [all, same]
  simp only [finished, header, profile, instructions]
  rfl

theorem Program.compile_joined_gap {first second : Text} {one two : Program} (blanks : List Nat)
    (free : '\r' ∉ first) (visible : first.lastLine.isAllBlank = false)
    (unmarked : Encoding.pragma first.lastLine = none)
    (uncontinued : first.lastLine.getLast? ≠ some '\\') (sign : second.head? = some '%')
    (compilesFirst : compile first = .ok one) (compilesSecond : compile second = .ok two) :
    compile (Text.joined blanks first second) =
      .ok { header := one.header
            profile := one.profile
            instructions := one.instructions ++ (if !blanks.isEmpty then [.blank] else []) ++
              two.instructions } := by
  obtain ⟨lexemes, cutFirst, assembledFirst⟩ := compile_eq_ok_iff.mp compilesFirst
  obtain ⟨following, cutSecond, assembledSecond⟩ := compile_eq_ok_iff.mp compilesSecond
  obtain ⟨tag, others, opens⟩ := tokenize_sign sign cutSecond
  obtain ⟨body, closed, ended, next, shift, split, cut⟩ := tokenize_joined blanks free visible
    unmarked uncontinued sign cutFirst cutSecond
  exact compile_eq_ok_iff.mpr ⟨_, cut, ofLexemes_joined _ next shift cutFirst assembledFirst split
    opens assembledSecond⟩

/-- The program of two texts with blank lines between them is that of the first, a blank line
if there are any, and that of the second.  A text that ends in a newline has an empty last
line; without that newline it is a first text with one blank line more after it. -/
theorem Program.compile_joined {first second : Text} {one two : Program} (blanks : List Nat)
    (free : '\r' ∉ first) (visible : first.lastLine.isAllBlank = false)
    (unmarked : Encoding.pragma first.lastLine = none)
    (uncontinued : first.lastLine.getLast? ≠ some '\\') (sign : second.head? = some '%')
    (compilesFirst : compile first = .ok one) (compilesSecond : compile second = .ok two) :
    compile (Text.joined blanks first second) =
      .ok { header := one.header
            profile := one.profile
            instructions := one.instructions ++ (if blanks = [] then [] else [.blank]) ++
              two.instructions } := by
  have spaced : (if !blanks.isEmpty then [Instruction.blank] else []) =
      if blanks = [] then [] else [.blank] := by
    cases blanks <;> rfl
  rw [← spaced]
  exact compile_joined_gap blanks free visible unmarked uncontinued sign compilesFirst compilesSecond

/-- A filter inside an element, and then blank lines, which the filter reads up to the element
after them. -/
theorem Program.compile_joined_filter :
    ∃ one two : Program,
      compile "!!! xml\n%a\n  :code\n    b".toList = .ok one ∧
      compile "%c\n  d".toList = .ok two ∧
      one.instructions = [.openElement ['a'] [], .rawCode ['b'], .closeElement ['a']] ∧
      two.instructions =
        [.openElement ['c'] [], .content (.text ['d']), .closeElement ['c']] ∧
      compile "!!! xml\n%a\n  :code\n    b\n\n   \n%c\n  d".toList =
        .ok { header := one.header
              profile := one.profile
              instructions := one.instructions ++ [.blank] ++ two.instructions } := by
  have cutFirst : tokenize "!!! xml\n%a\n  :code\n    b".toList =
      .ok [⟨.directive "xml".toList, 1⟩, ⟨.element ['a'], 2⟩, ⟨.indent, 3⟩,
        ⟨.filter "code".toList [['b']], 3⟩, ⟨.dedent, 4⟩] :=
    tokenize_of_runWithin 30 (by decide +kernel)
  have cutSecond : tokenize "%c\n  d".toList =
      .ok [⟨.element ['c'], 1⟩, ⟨.indent, 2⟩, ⟨.content ['d'], 2⟩, ⟨.dedent, 2⟩] :=
    tokenize_of_runWithin 30 (by decide +kernel)
  have compilesFirst := compile_eq_ok_iff.mpr ⟨_, cutFirst, rfl⟩
  have compilesSecond := compile_eq_ok_iff.mpr ⟨_, cutSecond, rfl⟩
  exact ⟨_, _, compilesFirst, compilesSecond, rfl, rfl,
    compile_joined [0, 3] (by decide) (by decide) (by decide) (by decide) rfl compilesFirst
      compilesSecond⟩

theorem Program.compile_append_newline {text : Text} (free : '\r' ∉ text)
    (given : text.lastLine ≠ []) : compile (text ++ ['\n']) = compile text := by
  rw [compile, compile, Source.ofText_append_newline free given]

/-- If the first text ends in a newline, one blank line stands between the programs, however many
blank lines follow that newline. -/
theorem Program.compile_joined_newline {first second : Text} {one two : Program}
    (blanks : List Nat) (free : '\r' ∉ first) (visible : first.lastLine.isAllBlank = false)
    (unmarked : Encoding.pragma first.lastLine = none)
    (uncontinued : first.lastLine.getLast? ≠ some '\\') (sign : second.head? = some '%')
    (compilesFirst : compile (first ++ ['\n']) = .ok one)
    (compilesSecond : compile second = .ok two) :
    compile (Text.joined blanks (first ++ ['\n']) second) =
      .ok { header := one.header
            profile := one.profile
            instructions := one.instructions ++ [.blank] ++ two.instructions } := by
  have given : first.lastLine ≠ [] := by
    intro empty
    rw [empty] at visible
    contradiction
  rw [compile_append_newline free given] at compilesFirst
  rw [Text.joined_newline]
  exact compile_joined_gap (0 :: blanks) free visible unmarked uncontinued sign compilesFirst
    compilesSecond

end Stencil
