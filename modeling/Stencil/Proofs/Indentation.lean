import Stencil.Proofs.LineScanning
import Stencil.Proofs.Origins

/-! Levels that a scanner opens and closes.

`depthAfter` walks over tokens and counts the open levels.  The depth of a scanner's
levels is where the walk over its tokens ends, whether they were handed out or are still
waiting; so levels are closed as often as they are opened, and never before. -/

namespace Stencil

/-! ### Walks over tokens -/

/-- The depth after tokens; a level that is not open cannot be closed. -/
def depthAfter : Nat → List Token → Option Nat
  | depth, [] => some depth
  | depth, .indent :: others => depthAfter (depth + 1) others
  | 0, .dedent :: _ => none
  | outer + 1, .dedent :: others => depthAfter outer others
  | depth, _ :: others => depthAfter depth others

theorem depthAfter_append (depth : Nat) (first second : List Token) :
    depthAfter depth (first ++ second) =
      (depthAfter depth first).bind fun middle => depthAfter middle second := by
  induction first generalizing depth with
  | nil => rfl
  | cons token others ih =>
      cases token with
      | indent => exact ih (depth + 1)
      | dedent =>
          cases depth with
          | zero => rfl
          | succ outer => exact ih outer
      | _ => exact ih depth

/-- Tokens other than indents and dedents keep the depth. -/
theorem depthAfter_plain {tokens : List Token} (depth : Nat)
    (plain : ∀ token ∈ tokens, token ≠ .indent ∧ token ≠ .dedent) :
    depthAfter depth tokens = some depth := by
  induction tokens with
  | nil => rfl
  | cons token others ih =>
      obtain ⟨⟨notIndent, notDedent⟩, later⟩ := List.forall_mem_cons.mp plain
      have same : depthAfter depth (token :: others) = depthAfter depth others := by
        cases token <;> first | rfl | contradiction
      rw [same, ih later]

theorem depthAfter_dedents (outer closed : Nat) :
    depthAfter (outer + closed) (List.replicate closed .dedent) = some outer := by
  induction closed with
  | zero => rfl
  | succ closed ih => exact ih

theorem count_of_depthAfter {depth reached : Nat} {tokens : List Token}
    (walk : depthAfter depth tokens = some reached) :
    reached + tokens.count .dedent = depth + tokens.count .indent := by
  induction tokens generalizing depth with
  | nil =>
      cases walk
      rfl
  | cons token others ih =>
      cases token with
      | indent =>
          have later : reached + others.count .dedent = depth + 1 + others.count .indent :=
            ih walk
          rw [List.count_cons_self, List.count_cons_of_ne (by decide)]
          omega
      | dedent =>
          cases depth with
          | zero => contradiction
          | succ outer =>
              have later : reached + others.count .dedent = outer + others.count .indent :=
                ih walk
              rw [List.count_cons_self, List.count_cons_of_ne (by decide)]
              omega
      | _ =>
          rw [List.count_cons_of_ne (by simp), List.count_cons_of_ne (by simp)]
          exact ih walk

/-- On the way, levels are not closed more often than they are opened. -/
theorem count_le_of_depthAfter {depth reached : Nat} {tokens first : List Token}
    (walk : depthAfter depth tokens = some reached) (begins : first <+: tokens) :
    first.count .dedent ≤ depth + first.count .indent := by
  obtain ⟨rest, rfl⟩ := begins
  rw [depthAfter_append] at walk
  obtain ⟨middle, early, -⟩ := Option.bind_eq_some_iff.mp walk
  have counted := count_of_depthAfter early
  omega

/-! ### Levels of a scanner -/

namespace Scanner

/-- The levels of a scanner are those that the tokens so far leave open. -/
structure Tracked (tokens : List Token) (scanner : Scanner) : Prop where
  base : scanner.levels.base = 0
  increasing : scanner.levels.Increasing
  depth : depthAfter 0 tokens = some scanner.levels.depth
  closed : scanner.mode = .done → scanner.levels.depth = 0

theorem tracked_ofSource (source : Source) : Tracked [] (ofSource source) where
  base := rfl
  increasing := Levels.increasing_iff.mpr ⟨.nil, by simp [ofSource, Levels.ofBase]⟩
  depth := rfl
  closed := by simp [ofSource]

section Steps

variable {tokens : List Token} {scanner next : Scanner} {lexemes : List Lexeme}

theorem depthAfter_entered {width line : Nat} {levels left : Levels}
    (entered : Entered width line levels left lexemes) :
    depthAfter levels.depth (lexemes.map Lexeme.token) = some left.depth := by
  cases entered with
  | opens wider => rfl
  | stays same => rfl
  | closes narrower dedents =>
      rw [tokens_onLine, ← Levels.depth_dedentTo dedents]
      exact depthAfter_dedents _ _

theorem base_entered {width line : Nat} {levels left : Levels}
    (entered : Entered width line levels left lexemes) : left.base = levels.base := by
  cases entered with
  | opens wider => rfl
  | stays same => rfl
  | closes narrower dedents =>
      have kept := Levels.base_dedentTo width levels
      rwa [dedents] at kept

theorem increasing_entered {width line : Nat} {levels left : Levels}
    (increasing : levels.Increasing) (entered : Entered width line levels left lexemes) :
    left.Increasing := by
  cases entered with
  | opens wider => exact increasing.push wider
  | stays same => exact increasing
  | closes narrower dedents =>
      have kept := increasing.dedentTo width
      rwa [dedents] at kept

theorem depth_dedentTo_zero {levels : Levels} (base : levels.base = 0)
    (increasing : levels.Increasing) :
    ∃ left, levels.dedentTo 0 = (some levels.depth, left) ∧ left.depth = 0 := by
  have opened : 0 ∈ levels.widths := Levels.mem_widths.mpr (.inl base.symm)
  cases count : (levels.dedentTo 0).1 with
  | none => exact absurd opened ((Levels.dedentTo_eq_none_iff increasing).mp count)
  | some closed =>
      have dedents : levels.dedentTo 0 = (some closed, (levels.dedentTo 0).2) :=
        Prod.ext count rfl
      have reached := Levels.current_dedentTo dedents
      have above := (Levels.increasing_iff.mp (increasing.dedentTo 0)).2
      have counted := Levels.depth_dedentTo dedents
      have empty : (levels.dedentTo 0).2.depth = 0 := by
        unfold Levels.current at reached
        unfold Levels.depth
        cases inner : (levels.dedentTo 0).2.inner with
        | nil => rfl
        | cons innermost others =>
            rw [inner] at reached above
            have positive := above innermost List.mem_cons_self
            simp only [List.headD_cons] at reached
            omega
      refine ⟨_, ?_, empty⟩
      rw [dedents, ← counted, empty, Nat.zero_add]

private theorem moves_of_isStructural {token : Token} (plain : token.isStructural = false) :
    token ≠ .indent ∧ token ≠ .dedent := by
  constructor <;> rintro rfl <;> contradiction

private theorem depthAfter_construct {opening : Opening} {width line : Nat}
    {source after : Source} {mode : Mode} {pending : Bool} (depth : Nat)
    (read : readConstruct opening width line source = .ok (after, mode, lexemes)) :
    depthAfter depth
      (((if pending then onLine line [.blankLine] else []) ++ lexemes).map Lexeme.token) =
      some depth := by
  refine depthAfter_plain depth ?_
  intro token member
  rw [List.map_append] at member
  rcases List.mem_append.mp member with blank | constructed
  · cases pending with
    | false => contradiction
    | true =>
        rw [if_pos rfl, tokens_onLine, List.mem_singleton] at blank
        subst token
        decide
  · exact moves_of_isStructural ((begins_of_readConstruct read).plain token constructed)

/-- Only lines and the end of the source move the levels, and they yield what moves the
walk with them. -/
theorem Tracked.stepped (tracked : Tracked tokens scanner)
    (stepped : Stepped scanner next lexemes) :
    Tracked (tokens ++ lexemes.map Lexeme.token) next := by
  obtain ⟨base, increasing, depth, closed⟩ := tracked
  have later (others : List Token) :
      depthAfter 0 (tokens ++ others) = depthAfter scanner.levels.depth others := by
    rw [depthAfter_append, depth, Option.bind_some]
  have kept (yielded : List Token) (plain : ∀ token ∈ yielded, token.isStructural = false) :
      depthAfter 0 (tokens ++ yielded) = some scanner.levels.depth := by
    rw [later]
    exact depthAfter_plain _ fun token member => moves_of_isStructural (plain token member)
  cases stepped with
  | ended reading noLine =>
      obtain ⟨left, dedents, empty⟩ := depth_dedentTo_zero base increasing
      have narrower := increasing.dedentTo 0
      rw [dedents] at narrower
      refine ⟨?_, ?_, ?_, ?_⟩
      · exact (Levels.base_dedentTo 0 scanner.levels).trans base
      · rw [dedents]
        exact narrower
      · rw [later, dedents, tokens_onLine]
        have closes := depthAfter_dedents 0 scanner.levels.depth
        rw [Nat.zero_add] at closes
        rw [empty]
        exact closes
      · intro _
        rw [dedents]
        exact empty
  | blank reading found isBlank => exact ⟨base, increasing, kept [] (by simp), closed⟩
  | line reading found visible =>
      refine ⟨base, increasing, kept [] (by simp), ?_⟩
      intro finished
      contradiction
  | @construct width text levels after mode structural construct reading found indent entered
      read =>
      have enters := entered_of_enterLevel entered
      refine ⟨(base_entered enters).trans base, increasing_entered increasing enters, ?_, ?_⟩
      · rw [later, List.append_assoc, List.map_append, depthAfter_append,
          depthAfter_entered enters, Option.bind_some]
        exact depthAfter_construct _ read
      · intro finished
        obtain rfl : mode = .done := finished
        exact (begins_of_readConstruct read).elim
  | @piece parentheses after mode construct reading read =>
      have extension := extends_of_pieceRead read
      refine ⟨base, increasing, kept _ fun token member => (extension.plain token member).1, ?_⟩
      intro finished
      obtain rfl : mode = .done := finished
      exact extension.elim
  | data reading read =>
      rw [tokens_onLine]
      have plain := (isEnding_of_payload read).plain
      refine ⟨base, increasing, kept _ fun token member => (plain token member).1, ?_⟩
      intro finished
      contradiction
  | filterBody reading =>
      refine ⟨base, increasing, kept _ (by simp [readFilterBody, onLine, Token.isStructural]), ?_⟩
      intro finished
      contradiction
  | done reading => exact ⟨base, increasing, kept [] (by simp), closed⟩

theorem Tracked.step (tracked : Tracked tokens scanner)
    (stepped : scanner.step = .ok (next, lexemes)) :
    Tracked (tokens ++ lexemes.map Lexeme.token) next := by
  obtain ⟨acted, steps, rfl⟩ := step_cases stepped
  obtain ⟨base, increasing, depth, closed⟩ := tracked.stepped steps
  exact ⟨base, increasing, depth, closed⟩

/-- A step refuses the indentation of a line exactly when it goes back to no open level. -/
theorem Tracked.step_unaligned_iff (tracked : Tracked tokens scanner) :
    (∃ line cause, scanner.step = .error (.parse line cause) ∧
        "inconsistent indentation".toList <+: cause.message.toList) ↔
      scanner.mode = .indentation ∧
        ∃ line ∈ scanner.source.peekLine, line.leadingSpaces < scanner.levels.current ∧
          line.leadingSpaces ∉ scanner.levels.widths := by
  constructor
  · rintro ⟨line, cause, failed, begins⟩
    rcases step_error_cases failed with ⟨reading, entering⟩ | origin
    · obtain ⟨same, narrower, unmet⟩ := (enterLevel_eq_error_iff tracked.increasing).mp entering
      refine ⟨reading, ?_⟩
      cases found : scanner.source.peekLine with
      | none =>
          rw [found] at unmet
          exact absurd (Levels.mem_widths.mpr (.inl tracked.base.symm)) unmet
      | some text =>
          rw [found] at narrower unmet
          exact ⟨text, rfl, narrower, unmet⟩
    · have reads : cause.origin = .reading := Option.some.inj origin
      have marked : ['i', 'n', 'c'] <+: cause.message.toList :=
        List.IsPrefix.trans (by decide) begins
      exact absurd marked ((Cause.unmarked_message (.inl reads)).not_begins (by decide)).1
  · rintro ⟨reading, text, found, narrower, unmet⟩
    have peeked : scanner.source.peekLine = some text := found
    have entering : enterLevel text.leadingSpaces scanner.source.lineNumber scanner.levels =
        .error (.parse scanner.source.lineNumber (.unalignedIndent text.leadingSpaces)) :=
      (enterLevel_eq_error_iff tracked.increasing).mpr ⟨rfl, narrower, unmet⟩
    refine ⟨scanner.source.lineNumber, _, ?_, Cause.begins_unaligned text.leadingSpaces⟩
    simp only [Scanner.step, act, reading, readIndentation, peeked, Option.getD_some, entering]

end Steps

end Scanner

/-! ### Handing out lexemes -/

namespace Feed

/-- The points of a run: what was handed out so far, and the feed then.  Each step of the
scanner is a point, and so is each call that hands out a lexeme. -/
inductive Visits (source : Source) : List Lexeme → Feed → Prop
  | start : Visits source [] (ofSource source)
  | step {handed lexemes : List Lexeme} {scanner next : Scanner}
      (visits : Visits source handed ⟨scanner, []⟩) (active : scanner.mode ≠ .done)
      (stepped : scanner.step = .ok (next, lexemes)) : Visits source handed ⟨next, lexemes⟩
  | next {handed : List Lexeme} {feed later : Feed} {lexeme : Lexeme}
      (visits : Visits source handed feed) (hands : feed.next = (some (.ok lexeme), later)) :
      Visits source (handed ++ [lexeme]) later

/-- What a call hands out and leaves was ready, or it was yielded during the call. -/
theorem reaches_of_next {feed later : Feed} {lexeme : Lexeme}
    (hands : feed.next = (some (.ok lexeme), later)) :
    ∃ tokens, Scanner.Reaches feed.scanner tokens later.scanner ∧
      feed.ready.map Lexeme.token ++ tokens = lexeme.token :: later.ready.map Lexeme.token := by
  fun_induction next feed with
  | case1 feed first others ready =>
      cases hands
      exact ⟨[], .refl _, by simp [ready]⟩
  | case2 feed ready finished => cases hands
  | case3 feed ready active fault failed => cases hands
  | case4 feed ready active scanner lexemes stepped ih =>
      obtain ⟨tokens, reaches, same⟩ := ih hands
      refine ⟨lexemes.map Lexeme.token ++ tokens, .step active stepped reaches, ?_⟩
      rw [ready]
      exact same

theorem Visits.reaches {source : Source} {handed : List Lexeme} {feed : Feed}
    (visits : Visits source handed feed) :
    Scanner.Reaches (Scanner.ofSource source) ((handed ++ feed.ready).map Lexeme.token)
      feed.scanner := by
  induction visits with
  | start => exact .refl _
  | step visits active stepped ih =>
      rw [List.append_nil] at ih
      rw [List.map_append]
      exact ih.trans (.of_step active stepped)
  | next visits hands ih =>
      obtain ⟨tokens, reaches, same⟩ := reaches_of_next hands
      have further := ih.trans reaches
      rw [List.map_append, List.append_assoc, same] at further
      simpa using further

theorem Visits.tracked {source : Source} {handed : List Lexeme} {feed : Feed}
    (visits : Visits source handed feed) :
    Scanner.Tracked ((handed ++ feed.ready).map Lexeme.token) feed.scanner :=
  visits.reaches.kept Scanner.Tracked.step (Scanner.tracked_ofSource source)

end Feed

theorem depthAfter_of_tokenize {text : Text} {lexemes : List Lexeme}
    (cut : tokenize text = .ok lexemes) : depthAfter 0 (lexemes.map Lexeme.token) = some 0 := by
  unfold tokenize at cut
  split at cut
  · contradiction
  · rename_i source loaded
    obtain ⟨last, reaches, finished, -⟩ := Scanner.reaches_run (Scanner.ofSource source)
    have tracked := reaches.kept Scanner.Tracked.step (Scanner.tracked_ofSource source)
    split at cut
    · rename_i found ran
      cases cut
      rw [Source.lexemes] at ran
      rw [ran] at tracked finished
      have depth := tracked.depth
      rwa [tracked.closed (finished rfl)] at depth
    · contradiction

/-- At every point of a run the widths go up from zero and there are as many levels as were
opened and not closed; a whole text closes what it opens, and never earlier; and a line is
refused for its indentation exactly when it goes back to no open level. -/
theorem levels_balanced :
    (∀ (source : Source) (handed : List Lexeme) (feed : Feed),
      Feed.Visits source handed feed →
      feed.scanner.levels.widths.head? = some 0 ∧
      feed.scanner.levels.widths.Pairwise (· < ·) ∧
      feed.scanner.levels.depth + ((handed ++ feed.ready).map Lexeme.token).count .dedent =
        ((handed ++ feed.ready).map Lexeme.token).count .indent ∧
      ((∃ line cause, feed.scanner.step = .error (.parse line cause) ∧
          "inconsistent indentation".toList <+: cause.message.toList) ↔
        feed.scanner.mode = .indentation ∧
          ∃ line ∈ feed.scanner.source.peekLine,
            line.leadingSpaces < feed.scanner.levels.current ∧
              line.leadingSpaces ∉ feed.scanner.levels.widths)) ∧
    ∀ (text : Text) (lexemes : List Lexeme), tokenize text = .ok lexemes →
      (lexemes.map Lexeme.token).count .indent = (lexemes.map Lexeme.token).count .dedent ∧
      ∀ first, first <+: lexemes.map Lexeme.token →
        first.count .dedent ≤ first.count .indent := by
  constructor
  · intro source handed feed visits
    have tracked := visits.tracked
    have counted := count_of_depthAfter tracked.depth
    refine ⟨?_, tracked.increasing, by omega, tracked.step_unaligned_iff⟩
    rw [← tracked.base]
    rfl
  · intro text lexemes cut
    have walk := depthAfter_of_tokenize cut
    have counted := count_of_depthAfter walk
    refine ⟨by omega, ?_⟩
    intro first begins
    have early := count_le_of_depthAfter walk begins
    omega

/-- A line that closes two levels at once, and a level that the end of the text closes. -/
theorem levels_balanced_twice :
    ∃ lexemes : List Lexeme,
      tokenize "%a\n  %b\n    c\n%d\n e".toList = .ok lexemes ∧
      lexemes.map Lexeme.token =
        [.element ['a'], .indent, .element ['b'], .indent, .content ['c'], .dedent, .dedent,
          .element ['d'], .indent, .content ['e'], .dedent] ∧
      (lexemes.map Lexeme.token).count .indent = (lexemes.map Lexeme.token).count .dedent := by
  have cut : tokenize "%a\n  %b\n    c\n%d\n e".toList =
      .ok [⟨.element ['a'], 1⟩, ⟨.indent, 2⟩, ⟨.element ['b'], 2⟩, ⟨.indent, 3⟩,
        ⟨.content ['c'], 3⟩, ⟨.dedent, 4⟩, ⟨.dedent, 4⟩, ⟨.element ['d'], 4⟩, ⟨.indent, 5⟩,
        ⟨.content ['e'], 5⟩, ⟨.dedent, 5⟩] :=
    tokenize_of_runWithin 30 (by decide +kernel)
  exact ⟨_, cut, rfl, (levels_balanced.2 _ _ cut).1⟩

end Stencil
