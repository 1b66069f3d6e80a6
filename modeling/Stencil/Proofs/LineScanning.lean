import Mathlib.Data.List.Chain
import Stencil.Proofs.LineGrammar

/-! Every run of a scanner yields the tokens of a template.

The readers are taken one by one: what a construct, a piece of an attribute list, inline
data and a filter yield, and in which mode they leave the scanner.  A step then keeps
that the tokens so far are whole lines and the beginning of a further one. -/

namespace Stencil

open LineGrammar

namespace Source

theorem peekLine_unreadLine (line : Text) (source : Source) :
    (source.unreadLine line).peekLine = some line := by
  obtain ⟨lines, current, number⟩ := source
  cases current <;> rfl

theorem peekLine_readLine_of_none {source : Source} (ended : source.readLine.1 = none) :
    source.readLine.2.peekLine = none := by
  obtain ⟨lines, current, number⟩ := source
  cases current with
  | some rest => contradiction
  | none =>
      cases lines with
      | nil => rfl
      | cons first others => contradiction

end Source

namespace Scanner

/-! ### What readers yield -/

theorem isCode_of_payloadOf {line : Nat} {text code : Text} {escape : Bool}
    (read : payloadOf line text = .ok (.code code escape)) : IsCode code := by
  unfold payloadOf at read
  split at read
  · cases read
  · rename_i found sign split
    split at read
    · contradiction
    · rename_i visible
      cases read
      exact ⟨by simpa using visible, Text.trim_trim found⟩

theorem kind_readAttribute {parentheses line : Nat} {source after : Source} {token : Token}
    (read : readAttribute parentheses line source = .ok (token, after)) :
    token.kind = .anyAttribute := by
  unfold readAttribute at read
  split at read
  · contradiction
  · split at read
    · simp only [readBareValue, Except.map] at read
      repeat' split at read
      all_goals
        first
        | contradiction
        | (cases read
           rfl)
    · cases read
      rfl

theorem begins_of_startElement {tag : Text} {line : Nat} {source after : Source} {mode : Mode}
    {lexemes : List Lexeme} (named : AllNamed lexemes)
    (read : startElement tag line source = .ok (after, mode, lexemes)) :
    Begins (lexemes.map Lexeme.token) mode := by
  unfold startElement at read
  split at read
  · contradiction
  · rename_i attributes last shortcuts
    cases read
    rw [tokens_onLine]
    refine .tagged (named ⟨.element tag, line⟩ (by simp [onLine]) tag rfl) ?_
    intro token member
    refine ⟨?_, named ⟨token, line⟩ ?_⟩
    · obtain ⟨entry, -, rfl⟩ := List.mem_map.mp member
      rfl
    · exact List.mem_map.mpr ⟨token, List.mem_cons_of_mem _ member, rfl⟩

theorem begins_of_readConstruct {opening : Opening} {width line : Nat} {source after : Source}
    {mode : Mode} {lexemes : List Lexeme}
    (read : readConstruct opening width line source = .ok (after, mode, lexemes)) :
    Begins (lexemes.map Lexeme.token) mode := by
  cases opening with
  | element =>
      have named := allNamed_readConstruct (by simp) read
      simp only [readConstruct, readElement] at read
      split at read
      · contradiction
      · exact begins_of_startElement named read
  | shortcut =>
      have named := allNamed_readConstruct (by simp) read
      exact begins_of_startElement named read
  | comment =>
      cases read
      exact .comment _ _
  | directive =>
      simp only [readConstruct, readDirective] at read
      split at read
      · contradiction
      · rename_i directive _
        cases read
        rw [tokens_onLine]
        exact .directive directive.kind directive.attributes
  | code =>
      simp only [readConstruct, readCode] at read
      split at read
      · contradiction
      · rename_i payload payloadRead
        cases read
        cases payload with
        | literal text => exact .content text
        | code code escape => exact .codeContent escape (isCode_of_payloadOf payloadRead)
  | filter =>
      simp only [readConstruct, readFilterHeading] at read
      split at read
      · contradiction
      · cases read
        rfl
  | rawCode =>
      simp only [readConstruct, readRawCode] at read
      split at read
      · contradiction
      · rename_i visible
        cases read
        exact .rawCode ⟨by simpa using visible, Text.trim_trim _⟩
  | verbatim =>
      cases read
      exact .content _
  | text =>
      cases read
      exact .content _

theorem extends_of_pieceRead {parentheses : Nat} {source after : Source} {mode : Mode}
    {lexemes : List Lexeme} (read : PieceRead source parentheses after mode lexemes) :
    Extends (lexemes.map Lexeme.token) mode := by
  have named := allNamed_pieceRead read
  cases read with
  | ended next => exact .nothing
  | lineEnd next => exact .nothing
  | data next => rfl
  | selfClose next =>
      simp only [readSelfClose, tokens_onLine]
      split
      · exact .selfClose
      · exact .contentAfter _
  | attributed next start attributeRead =>
      intro token member
      rw [tokens_onLine, List.mem_singleton] at member
      subst token
      exact ⟨kind_readAttribute attributeRead, named _ List.mem_cons_self⟩
  | _ => exact List.forall_mem_nil _

theorem isEnding_of_payload {line : Nat} {text : Text} {payload : Payload}
    (read : payloadOf line text = .ok payload) : IsEnding [payload.data] := by
  cases payload with
  | literal text => exact .data text
  | code code escape => exact .codeData escape (isCode_of_payloadOf read)

theorem isOpening_of_entered {width line : Nat} {levels left : Levels} {lexemes : List Lexeme}
    (entered : Entered width line levels left lexemes) :
    IsOpening (lexemes.map Lexeme.token) := by
  cases entered with
  | opens wider => exact .indent
  | stays same => exact .dedents 0
  | closes narrower dedents =>
      rw [tokens_onLine]
      exact .dedents _

/-! ### Comments -/

/-- A comment ends in front of a line that does not go on with it. -/
theorem readCommentLines_stops (width : Nat) (source : Source) :
    ∀ line ∈ (readCommentLines width source).2.peekLine, continuesComment width line = false := by
  fun_induction readCommentLines width source with
  | case1 source ended =>
      rw [Source.peekLine_readLine_of_none ended]
      simp
  | case2 source line next continues others ih => exact ih
  | case3 source line next stops =>
      rw [Source.peekLine_unreadLine]
      simpa using stops

private theorem readConstruct_plain {opening : Opening} {width line : Nat}
    {source after : Source} {mode : Mode} {lexemes : List Lexeme}
    (notComment : opening ≠ .comment)
    (read : readConstruct opening width line source = .ok (after, mode, lexemes)) :
    ∀ token ∈ lexemes.map Lexeme.token, token.kind ≠ .comment := by
  have begins := begins_of_readConstruct read
  cases opening with
  | element =>
      simp only [readConstruct, readElement, startElement] at read
      split at read
      · contradiction
      · split at read
        · contradiction
        · cases read
          exact fun token member => (IsElement.plain begins token member).2
  | shortcut =>
      simp only [readConstruct, startElement] at read
      split at read
      · contradiction
      · cases read
        exact fun token member => (IsElement.plain begins token member).2
  | comment => contradiction
  | directive =>
      simp only [readConstruct, readDirective] at read
      split at read
      · contradiction
      · cases read
        rw [tokens_onLine]
        refine List.forall_mem_cons.mpr ⟨by simp [Token.kind], ?_⟩
        intro token member
        obtain ⟨entry, -, rfl⟩ := List.mem_map.mp member
        simp [Token.kind]
  | code =>
      simp only [readConstruct, readCode] at read
      split at read
      · contradiction
      · rename_i payload _
        cases read
        cases payload <;> simp [onLine, Payload.content, Token.kind]
  | filter =>
      simp only [readConstruct, readFilterHeading] at read
      split at read
      · contradiction
      · cases read
        simp
  | rawCode =>
      simp only [readConstruct, readRawCode] at read
      split at read
      · contradiction
      · cases read
        simp [onLine, Token.kind]
  | verbatim =>
      cases read
      simp [onLine, Token.kind]
  | text =>
      cases read
      simp [onLine, Token.kind]

theorem comment_of_readConstruct {opening : Opening} {width line : Nat} {source after : Source}
    {mode : Mode} {lexemes : List Lexeme} {token : Token}
    (read : readConstruct opening width line source = .ok (after, mode, lexemes))
    (member : token ∈ lexemes.map Lexeme.token) (comment : token.kind = .comment) :
    opening = .comment ∧ mode = .lineStart ∧
      ∀ next ∈ after.peekLine, continuesComment width next = false := by
  by_cases isComment : opening = .comment
  · subst opening
    cases read
    exact ⟨rfl, rfl, readCommentLines_stops width _⟩
  · exact absurd comment (readConstruct_plain isComment read token member)

private theorem slashes_of_openingOf {line : Text} (comment : openingOf line = .comment) :
    ∃ rest, line = '/' :: '/' :: rest := by
  unfold openingOf at comment
  repeat' split at comment
  all_goals try contradiction
  rename_i first rest _ _ slashes
  obtain ⟨rfl, second⟩ := slashes
  obtain ⟨others, rfl⟩ := List.head?_eq_some_iff.mp second
  exact ⟨others, rfl⟩

theorem continuesComment_of_openingOf {text : Text}
    (comment : openingOf (text.drop text.leadingSpaces) = .comment) :
    continuesComment text.leadingSpaces text = true := by
  obtain ⟨rest, body⟩ := slashes_of_openingOf comment
  simp [continuesComment, body, Text.startsWith, Text.afterLead]

/-! ### Tokens so far -/

/-- What holds behind a comment: the next line does not go on with it. -/
def AfterComment (scanner : Scanner) : Prop :=
  match scanner.mode with
  | .lineStart | .indentation =>
      scanner.blankPending = true ∨
        ∀ line ∈ scanner.source.peekLine, continuesComment scanner.levels.current line = false
  | .pieces _ | .data => False
  | .filterBody _ _ _ | .done => True

/-- A scanner that yielded these tokens has yielded lines of a template. -/
structure Conforms (tokens : List Token) (scanner : Scanner) : Prop where
  yielded : Yielded tokens scanner.mode
  begun : scanner.begun = true ↔ tokens ≠ []
  spaced : scanner.blankPending = true → tokens ≠ []
  apart : CommentsApart tokens
  comment : ∀ last ∈ tokens.getLast?, last.kind = .comment → scanner.AfterComment

theorem conforms_ofSource (source : Source) : Conforms [] (ofSource source) where
  yielded := ⟨[], ⟨by simp, by simp⟩, rfl⟩
  begun := by simp [ofSource]
  spaced := by simp [ofSource]
  apart := .nil
  comment := by simp

section Steps

variable {tokens : List Token} {scanner next : Scanner} {lexemes : List Lexeme}

theorem begun_of_stepped (stepped : Stepped scanner next lexemes) :
    next.begun = scanner.begun := by
  cases stepped <;> rfl

private theorem isLead_of_entered {width line : Nat} {levels left : Levels} {pending : Bool}
    (entered : Entered width line levels left lexemes) :
    IsLead ((lexemes ++ if pending then onLine line [.blankLine] else []).map Lexeme.token) := by
  have opens := isOpening_of_entered entered
  rw [List.map_append]
  cases pending with
  | false =>
      rw [if_neg Bool.false_ne_true, List.map_nil, List.append_nil]
      exact .close opens
  | true =>
      rw [if_pos rfl, tokens_onLine]
      exact .spaced opens

theorem yielded_of_stepped (conforms : Conforms tokens scanner)
    (stepped : Stepped scanner next lexemes) :
    Yielded (tokens ++ lexemes.map Lexeme.token) next.mode := by
  have yielded := conforms.yielded
  cases stepped with
  | ended reading noLine =>
      rw [reading] at yielded
      rw [tokens_onLine]
      exact ⟨tokens, _, rfl, yielded⟩
  | blank reading found isBlank =>
      rw [List.map_nil, List.append_nil]
      exact yielded
  | line reading found visible =>
      rw [reading] at yielded
      rw [List.map_nil, List.append_nil]
      exact yielded
  | @construct width text levels after mode structural construct reading found indent entered
      read =>
      rw [reading] at yielded
      rw [List.map_append]
      refine Led.begins ⟨yielded, ?_, ?_⟩ (begins_of_readConstruct read)
      · exact isLead_of_entered (entered_of_enterLevel entered)
      · intro first
        have unspaced : scanner.blankPending = false := by
          cases pending : scanner.blankPending with
          | false => rfl
          | true => exact absurd first (conforms.spaced pending)
        rw [unspaced, if_neg Bool.false_ne_true, List.append_nil]
        intro member
        exact ((isOpening_of_entered (entered_of_enterLevel entered)).plain _ member).1 rfl
  | piece reading read =>
      rw [reading] at yielded
      obtain ⟨before, lead, start, rfl, led, element⟩ := yielded
      exact led.extend element (extends_of_pieceRead read)
  | data reading read =>
      rw [reading] at yielded
      obtain ⟨before, lead, start, rfl, led, element⟩ := yielded
      have ends : Extends [_] .lineStart := isEnding_of_payload read
      rw [tokens_onLine]
      exact led.extend element ends
  | filterBody reading =>
      rw [reading] at yielded
      obtain ⟨before, lead, rfl, led⟩ := yielded
      rw [List.append_assoc]
      exact led.construct (.filter _ _)
  | done reading =>
      rw [List.map_nil, List.append_nil]
      exact yielded

theorem spaced_of_stepped (conforms : Conforms tokens scanner)
    (stepped : Stepped scanner next lexemes) :
    next.blankPending = true → tokens ++ lexemes.map Lexeme.token ≠ [] := by
  have kept (pending : scanner.blankPending = true) (others : List Token) :
      tokens ++ others ≠ [] := by
    simp [conforms.spaced pending]
  cases stepped with
  | blank reading found isBlank =>
      intro pending
      rcases (Bool.or_eq_true _ _).mp pending with earlier | begun
      · exact kept earlier _
      · simp [conforms.begun.mp begun]
  | construct => simp
  | filterBody reading =>
      intro pending
      simp [readFilterBody, onLine]
  | _ => exact fun pending => kept pending _

private theorem mem_of_getLast_append {last : Token} {earlier later : List Token}
    (ends : last ∈ (earlier ++ later).getLast?) :
    last ∈ later ∨ later = [] ∧ last ∈ earlier.getLast? := by
  rcases List.eq_nil_or_concat later with rfl | ⟨others, final, rfl⟩
  · rw [List.append_nil] at ends
    exact .inr ⟨rfl, ends⟩
  · left
    rw [List.concat_eq_append, ← List.append_assoc, List.getLast?_concat] at ends
    cases ends
    simp

theorem afterComment_of_stepped (conforms : Conforms tokens scanner)
    (stepped : Stepped scanner next lexemes) :
    ∀ last ∈ (tokens ++ lexemes.map Lexeme.token).getLast?,
      last.kind = .comment → next.AfterComment := by
  intro last ends comment
  have earlier := conforms.comment last
  cases stepped with
  | ended reading noLine => trivial
  | blank reading found isBlank =>
      rw [List.map_nil, List.append_nil] at ends
      have begun : scanner.begun = true := by
        rw [conforms.begun]
        rintro rfl
        contradiction
      simp [AfterComment, reading, begun]
  | line reading found visible =>
      rw [List.map_nil, List.append_nil] at ends
      have after := earlier ends comment
      unfold AfterComment at after ⊢
      rw [reading] at after
      exact after
  | @construct width text levels after mode structural construct reading found indent entered
      read =>
      rw [List.map_append, ← List.append_assoc] at ends
      rcases mem_of_getLast_append ends with member | ⟨nothing, -⟩
      · obtain ⟨-, rfl, stops⟩ := comment_of_readConstruct read member comment
        right
        rw [current_of_entered (entered_of_enterLevel entered)]
        exact stops
      · -- only the heading of a filter yields nothing
        have begins := begins_of_readConstruct read
        rw [nothing] at begins
        obtain ⟨name, heading, indentation, rfl⟩ := begins.of_nil
        trivial
  | piece reading read =>
      rcases mem_of_getLast_append ends with member | ⟨-, before⟩
      · exact absurd comment ((extends_of_pieceRead read).plain last member).2
      · have after := earlier before comment
        unfold AfterComment at after
        rw [reading] at after
        exact after.elim
  | data reading read =>
      rcases mem_of_getLast_append ends with member | ⟨nothing, -⟩
      · rw [tokens_onLine] at member
        exact absurd comment ((isEnding_of_payload read).plain last member).2
      · contradiction
  | filterBody reading =>
      rw [readFilterBody, tokens_onLine, List.getLast?_concat] at ends
      cases ends
      contradiction
  | done reading =>
      rw [List.map_nil, List.append_nil] at ends
      exact earlier ends comment

private theorem lead_ne_nil {last : Token} {token : Token} {width : Nat} {text : Text}
    {levels : Levels} {after : Source} {mode : Mode} {structural construct : List Lexeme}
    (conforms : Conforms tokens scanner) (reading : scanner.mode = .indentation)
    (found : scanner.source.peekLine.getD [] = text) (indent : text.leadingSpaces = width)
    (entered : Entered width scanner.source.lineNumber scanner.levels levels structural)
    (read : readConstruct (openingOf (text.drop width)) width scanner.source.lineNumber
      (scanner.source.skip width) = .ok (after, mode, construct))
    (ends : last ∈ tokens.getLast?) (comment : last.kind = .comment)
    (member : token ∈ construct.map Lexeme.token) (another : token.kind = .comment) :
    structural ++ (if scanner.blankPending then onLine scanner.source.lineNumber [.blankLine]
      else []) ≠ [] := by
  intro nothing
  obtain ⟨noLevel, noBlank⟩ := List.append_eq_nil_iff.mp nothing
  have same : scanner.levels.current = width := by
    cases entered with
    | opens wider => contradiction
    | stays same => exact same
    | closes narrower dedents =>
        have positive := Levels.pos_of_dedentTo narrower dedents
        simp only [onLine, List.map_eq_nil_iff, List.replicate_eq_nil_iff] at noLevel
        omega
  obtain ⟨opens, -, -⟩ := comment_of_readConstruct read member another
  subst indent
  have continues := continuesComment_of_openingOf opens
  have behind := conforms.comment last ends comment
  unfold AfterComment at behind
  rw [reading] at behind
  rcases behind with pending | stops
  · rw [if_pos pending] at noBlank
    contradiction
  · cases peeked : scanner.source.peekLine with
    | none =>
        rw [peeked] at found
        subst found
        contradiction
    | some line =>
        rw [peeked, Option.getD_some] at found
        subst found
        rw [← same, stops line peeked] at continues
        contradiction

theorem apart_of_stepped (conforms : Conforms tokens scanner)
    (stepped : Stepped scanner next lexemes) :
    CommentsApart (tokens ++ lexemes.map Lexeme.token) := by
  have apart := conforms.apart
  cases stepped with
  | ended reading noLine =>
      refine apart.append_plain ?_
      intro token member
      rw [tokens_onLine] at member
      rw [List.eq_of_mem_replicate member]
      simp [Token.kind]
  | @construct width text levels after mode structural construct reading found indent entered
      read =>
      have enters := entered_of_enterLevel entered
      rw [List.map_append, ← List.append_assoc]
      refine List.isChain_append.mpr ⟨?_, (begins_of_readConstruct read).apart, ?_⟩
      · exact apart.append_plain (isLead_of_entered enters).plain
      · rintro last ends token first ⟨comment, another⟩
        rcases mem_of_getLast_append ends with member | ⟨nothing, before⟩
        · exact (isLead_of_entered enters).plain last member comment
        · exact lead_ne_nil conforms reading found indent enters read before comment
            (List.mem_of_mem_head? first) another (List.map_eq_nil_iff.mp nothing)
  | piece reading read =>
      exact apart.append_plain fun token member => ((extends_of_pieceRead read).plain token member).2
  | data reading read =>
      refine apart.append_plain ?_
      rw [tokens_onLine]
      exact fun token member => ((isEnding_of_payload read).plain token member).2
  | filterBody reading =>
      refine apart.append_plain ?_
      simp [readFilterBody, onLine, Token.kind]
  | _ =>
      rw [List.map_nil, List.append_nil]
      exact apart

theorem Conforms.step (conforms : Conforms tokens scanner)
    (stepped : scanner.step = .ok (next, lexemes)) :
    Conforms (tokens ++ lexemes.map Lexeme.token) next := by
  obtain ⟨acted, steps, rfl⟩ := step_cases stepped
  have yielded := yielded_of_stepped conforms steps
  have spaced := spaced_of_stepped conforms steps
  have comment := afterComment_of_stepped conforms steps
  refine ⟨yielded, ?_, spaced, apart_of_stepped conforms steps, comment⟩
  simp only [begun_of_stepped steps, Bool.or_eq_true, conforms.begun]
  cases tokens <;> cases lexemes <;> simp

/-- A scanner that reads on in any mode but the body of a filter has yielded a template. -/
theorem Conforms.isTemplate (conforms : Conforms tokens scanner)
    (outside : ∀ name line width, scanner.mode ≠ .filterBody name line width) :
    IsTemplate tokens := by
  refine ⟨?_, conforms.apart⟩
  have yielded := conforms.yielded
  have whole (given : Whole tokens) : ∃ lines closed, AreLines lines ∧
      tokens = lines.flatten ++ List.replicate closed .dedent := by
    obtain ⟨lines, areLines, rfl⟩ := given
    exact ⟨lines, 0, areLines, (List.append_nil _).symm⟩
  cases reading : scanner.mode with
  | lineStart =>
      rw [reading] at yielded
      exact whole yielded
  | indentation =>
      rw [reading] at yielded
      exact whole yielded
  | pieces parentheses =>
      rw [reading] at yielded
      obtain ⟨before, lead, start, rfl, led, element⟩ := yielded
      have unfinished := led.construct (.element element .nothing)
      rw [List.append_nil] at unfinished
      exact whole unfinished
  | data =>
      rw [reading] at yielded
      obtain ⟨before, lead, start, rfl, led, element⟩ := yielded
      have unfinished := led.construct (.element element .nothing)
      rw [List.append_nil] at unfinished
      exact whole unfinished
  | filterBody name line width => exact absurd reading (outside name line width)
  | done =>
      rw [reading] at yielded
      obtain ⟨before, closed, rfl, lines, areLines, rfl⟩ := yielded
      exact ⟨lines, closed, areLines, rfl⟩

end Steps

/-- What a scanner yields until it is done or fails is a template. -/
theorem isTemplate_run (source : Source) :
    IsTemplate ((ofSource source).run.1.map Lexeme.token) := by
  obtain ⟨last, reaches, finished, failed⟩ := reaches_run (ofSource source)
  have conforms := reaches.kept Conforms.step (conforms_ofSource source)
  refine conforms.isTemplate ?_
  intro name line width reading
  cases ran : (ofSource source).run.2 with
  | none =>
      rw [finished ran] at reading
      contradiction
  | some fault =>
      have failing := failed fault ran
      simp only [step, act, reading] at failing
      contradiction

end Scanner

/-- Whatever text is cut into lexemes, their tokens are lines of a template. -/
theorem isTemplate_of_tokenize {text : Text} {lexemes : List Lexeme}
    (cut : tokenize text = .ok lexemes) : IsTemplate (lexemes.map Lexeme.token) := by
  unfold tokenize at cut
  split at cut
  · contradiction
  · rename_i source loaded
    have template := Scanner.isTemplate_run source
    split at cut
    · rename_i found ran
      cases cut
      rw [Source.lexemes] at ran
      rwa [ran] at template
    · contradiction

/-- Comments on one level that a blank line keeps apart, behind content on a line of its own. -/
theorem isTemplate_of_tokenize_comments :
    ∃ lexemes : List Lexeme,
      tokenize "%a(c=1)/ d\n  // e\n  // f\n\n  // g\n= h".toList = .ok lexemes ∧
      lexemes.map Lexeme.token =
        [.element ['a'], .literalAttribute ['c'] ['1'], .selfClose, .content ['d'], .indent,
          .comment [['e'], ['f']], .blankLine, .comment [['g']], .dedent,
          .codeContent ['h'] true] ∧
      IsTemplate (lexemes.map Lexeme.token) := by
  have cut : tokenize "%a(c=1)/ d\n  // e\n  // f\n\n  // g\n= h".toList =
      .ok [⟨.element ['a'], 1⟩, ⟨.literalAttribute ['c'] ['1'], 1⟩, ⟨.selfClose, 1⟩,
        ⟨.content ['d'], 1⟩, ⟨.indent, 2⟩, ⟨.comment [['e'], ['f']], 2⟩, ⟨.blankLine, 5⟩,
        ⟨.comment [['g']], 5⟩, ⟨.dedent, 6⟩, ⟨.codeContent ['h'] true, 6⟩] :=
    tokenize_of_runWithin 30 (by decide +kernel)
  exact ⟨_, cut, rfl, isTemplate_of_tokenize cut⟩

end Stencil
