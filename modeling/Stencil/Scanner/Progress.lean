import Stencil.Scanner.Basic

/-! Every step of a scanner that is not done brings it nearer to its end.

The measure counts unread characters three times over and adds a rank of the
mode.  A step either reads a character, or it moves to a mode of lower rank: the
start of a line to its indentation, and an attribute list, inline data or a filter
body at the end of the source back to the start of a line. -/

namespace Stencil

def Mode.rank (left : Nat) : Mode → Nat
  | .done => 0
  | .lineStart => 1
  | .indentation => if left = 0 then 2 else 0
  | .pieces _ | .data | .filterBody _ _ _ => 2

theorem Mode.rank_le_two (left : Nat) (mode : Mode) : mode.rank left ≤ 2 := by
  cases mode <;> simp [Mode.rank]
  split <;> omega

namespace Scanner

/-- The measure that every step lowers. -/
def remaining (scanner : Scanner) : Nat :=
  3 * scanner.source.size + scanner.mode.rank scanner.source.size

/-! ### Sizes after constructs -/

theorem size_readCommentLines_le (width : Nat) (source : Source) :
    (readCommentLines width source).2.size ≤ source.size := by
  fun_induction readCommentLines width source with
  | case1 source next => exact Source.size_readLine_le source
  | case2 source line next continues others ih =>
      exact Nat.le_trans ih (Source.size_readLine_le source)
  | case3 source line next stops =>
      exact Nat.le_of_eq (Source.size_unreadLine_readLine next)

theorem size_readFilterLines_le (least : Nat) (bodyWidth : Option Nat) (blanks : Nat)
    (source : Source) :
    (readFilterLines least bodyWidth blanks source).source.size ≤ source.size := by
  fun_induction readFilterLines least bodyWidth blanks source with
  | case1 _ _ source next => exact Source.size_readLine_le source
  | case2 _ _ source line next indent blank ih =>
      exact Nat.le_trans ih (Source.size_readLine_le source)
  | case3 _ _ source line next indent text outside =>
      exact Nat.le_of_eq (Source.size_unreadLine_readLine next)
  | case4 _ _ source line next indent text inside width others ih =>
      exact Nat.le_trans ih (Source.size_readLine_le source)

private theorem size_startElement_le {tag : Text} {line : Nat} {source after : Source}
    {mode : Mode} {lexemes : List Lexeme}
    (read : startElement tag line source = .ok (after, mode, lexemes)) :
    after.size ≤ source.size := by
  unfold startElement at read
  split at read
  · simp at read
  · rename_i attributes last shortcuts
    simp only [Except.ok.injEq, Prod.mk.injEq] at read
    rw [← read.1]
    exact Source.size_readShortcuts_le shortcuts

private theorem size_startElement_lt {tag name : Text} {line : Nat} {source after : Source}
    {mode : Mode} {lexemes : List Lexeme} {shortcut : Char}
    (next : source.readChar.1 = some shortcut)
    (named : shortcutAttribute shortcut = some name)
    (read : startElement tag line source = .ok (after, mode, lexemes)) :
    after.size < source.size := by
  unfold startElement at read
  split at read
  · simp at read
  · rename_i attributes last shortcuts
    simp only [Except.ok.injEq, Prod.mk.injEq] at read
    rw [← read.1]
    exact Source.size_readShortcuts_lt next named shortcuts

private theorem size_readElement_lt {line : Nat} {source after : Source} {mode : Mode}
    {lexemes : List Lexeme} (read : readElement line source = .ok (after, mode, lexemes)) :
    after.size < source.size := by
  unfold readElement at read
  split at read
  · simp at read
  · rename_i tag middle named
    have := size_startElement_le read
    have := Source.size_readName_lt named
    have := Source.size_readChar_le source
    omega

private theorem size_readLine_lt {source : Source} (unread : 0 < source.size) :
    source.readLine.2.size < source.size := by
  cases next : source.readLine.1 with
  | none =>
      have := (Source.readLine_eq_none_iff source).mp next
      omega
  | some line =>
      have := Source.size_readLine next
      omega

private theorem size_lineConstruct_le {opening : Opening} {width line : Nat}
    {source after : Source} {mode : Mode} {lexemes : List Lexeme}
    (notElement : opening ≠ .element) (notShortcut : opening ≠ .shortcut)
    (read : readConstruct opening width line source = .ok (after, mode, lexemes)) :
    after.size ≤ source.readLine.2.size := by
  cases opening with
  | element => contradiction
  | shortcut => contradiction
  | comment =>
      simp only [readConstruct, readComment, Except.ok.injEq, Prod.mk.injEq] at read
      rw [← read.1]
      exact size_readCommentLines_le width _
  | directive =>
      simp only [readConstruct, readDirective] at read
      split at read
      · simp at read
      · simp only [Except.ok.injEq, Prod.mk.injEq] at read
        simp [← read.1]
  | code =>
      simp only [readConstruct, readCode] at read
      split at read
      · simp at read
      · simp only [Except.ok.injEq, Prod.mk.injEq] at read
        simp [← read.1]
  | filter =>
      simp only [readConstruct, readFilterHeading] at read
      split at read
      · simp at read
      · simp only [Except.ok.injEq, Prod.mk.injEq] at read
        simp [← read.1]
  | rawCode =>
      simp only [readConstruct, readRawCode] at read
      split at read
      · simp at read
      · simp only [Except.ok.injEq, Prod.mk.injEq] at read
        simp [← read.1]
  | verbatim =>
      simp only [readConstruct, readContent, Except.ok.injEq, Prod.mk.injEq] at read
      simp [← read.1]
  | text =>
      simp only [readConstruct, readContent, Except.ok.injEq, Prod.mk.injEq] at read
      simp [← read.1]

private theorem size_readConstruct_le {opening : Opening} {width line : Nat}
    {source after : Source} {mode : Mode} {lexemes : List Lexeme}
    (read : readConstruct opening width line source = .ok (after, mode, lexemes)) :
    after.size ≤ source.size := by
  by_cases isElement : opening = .element
  · subst isElement
    exact Nat.le_of_lt (size_readElement_lt read)
  · by_cases isShortcut : opening = .shortcut
    · subst isShortcut
      exact size_startElement_le read
    · exact Nat.le_trans (size_lineConstruct_le isElement isShortcut read)
        (Source.size_readLine_le source)

private theorem openingOf_eq_shortcut {text : Text} (opens : openingOf text = .shortcut) :
    ∃ first rest name, text = first :: rest ∧ shortcutAttribute first = some name := by
  cases text with
  | nil => simp [openingOf] at opens
  | cons first rest =>
      refine ⟨first, rest, ?_⟩
      cases named : shortcutAttribute first with
      | some name => exact ⟨name, rfl, rfl⟩
      | none =>
          unfold openingOf at opens
          simp only [named, Option.isSome_none] at opens
          repeat' split at opens
          all_goals contradiction

private theorem size_readConstruct_lt {width line : Nat} {source after : Source}
    {mode : Mode} {lexemes : List Lexeme} {text : Text}
    (next : source.peekLine = some text)
    (read : readConstruct (openingOf text) width line source = .ok (after, mode, lexemes)) :
    after.size < source.size := by
  have unread : 0 < source.size := by
    have := @Source.size_readLine source _ next
    omega
  by_cases isElement : openingOf text = .element
  · rw [isElement] at read
    exact size_readElement_lt read
  · by_cases isShortcut : openingOf text = .shortcut
    · obtain ⟨first, rest, name, rfl, named⟩ := openingOf_eq_shortcut isShortcut
      rw [isShortcut] at read
      exact size_startElement_lt (Source.readChar_of_peekLine next) named read
    · exact Nat.lt_of_le_of_lt (size_lineConstruct_le isElement isShortcut read)
        (size_readLine_lt unread)

private theorem size_skip_lt {source : Source} (unread : 0 < source.size) (count : Nat) :
    (source.skip (count + 1)).size < source.size := by
  have dropped : (source.skip (count + 1)).size ≤ source.readChar.2.size :=
    Source.size_skip_le count source.readChar.2
  cases next : source.readChar.1 with
  | none =>
      have := (Source.readChar_eq_none_iff source).mp next
      omega
  | some character =>
      have := Source.size_readChar next
      omega

private theorem size_readBareValue_le {name : Text} {line : Nat} {source after : Source}
    {token : Token} (read : readBareValue name line source = .ok (token, after)) :
    after.size ≤ source.size := by
  unfold readBareValue at read
  simp only at read
  split at read
  · simp at read
  · simp only [Except.ok.injEq, Prod.mk.injEq] at read
    have := Source.size_readWhile Source.isBare source
    rw [← read.2]
    omega

private theorem size_mapQuoted_le {quote : Char} {multiline : Bool} {line : Nat}
    {source after : Source} {token : Token} {wrap : Text → Token}
    (read : (source.readQuoted quote multiline line).map
      (fun (value, last) => (wrap value, last)) = .ok (token, after)) :
    after.size ≤ source.size := by
  cases quoted : source.readQuoted quote multiline line with
  | error fault => simp [quoted, Except.map] at read
  | ok result =>
      obtain ⟨value, last⟩ := result
      simp only [quoted, Except.map, Except.ok.injEq, Prod.mk.injEq] at read
      rw [← read.2]
      exact Source.size_readQuoted_le quoted

theorem size_readAttribute_lt {parentheses line : Nat} {source after : Source}
    {token : Token} (read : readAttribute parentheses line source = .ok (token, after)) :
    after.size < source.size := by
  unfold readAttribute at read
  split at read
  · simp at read
  · rename_i name named nameRead
    have nameTaken := Source.size_readName_lt nameRead
    split at read
    · have assigned := Source.size_readChar_le named
      have opened := Source.size_readChar_le named.readChar.2
      simp only at read
      split at read
      · split at read
        · have := size_mapQuoted_le read
          omega
        · split at read
          · have := size_mapQuoted_le read
            omega
          · have := size_readBareValue_le read
            omega
      · have := size_readBareValue_le read
        omega
    · simp only [Except.ok.injEq, Prod.mk.injEq] at read
      rw [← read.2, Source.size_peekChar]
      exact nameTaken

theorem size_readPiece {parentheses : Nat} {source after : Source} {mode : Mode}
    {lexemes : List Lexeme} (read : readPiece parentheses source = .ok (after, mode, lexemes)) :
    after.size < source.size ∨ (after.size = source.size ∧ mode = .lineStart) := by
  unfold readPiece at read
  simp only at read
  split at read
  · split at read
    · simp at read
    · simp only [Except.ok.injEq, Prod.mk.injEq] at read
      right
      rw [← read.1, ← read.2.1]
      simp
  · rename_i character next
    left
    have taken := @Source.size_readChar source _ next
    have further := Source.size_readChar_le source.readChar.2
    have line := Source.size_readLine_le source.readChar.2
    repeat' split at read
    all_goals
      first
      | contradiction
      | (rename_i attributeRead
         simp only [Except.ok.injEq, Prod.mk.injEq] at read
         have := size_readAttribute_lt attributeRead
         rw [← read.1]
         omega)
      | (simp only [readSelfClose, Except.ok.injEq, Prod.mk.injEq] at read
         rw [← read.1]
         omega)

/-! ### Steps -/

private theorem remaining_startLine_lt {scanner : Scanner}
    (reading : scanner.mode = .lineStart) :
    scanner.startLine.1.remaining < scanner.remaining := by
  unfold startLine
  split
  · simp [remaining, Mode.rank, reading]
  · rename_i line next
    have taken := @Source.size_readLine scanner.source _ next
    split
    · simp [remaining, Mode.rank, reading]
      omega
    · have unread : scanner.source.size ≠ 0 := by omega
      simp [remaining, Mode.rank, reading, unread]

private theorem remaining_readIndentation_lt {scanner next : Scanner} {lexemes : List Lexeme}
    (reading : scanner.mode = .indentation)
    (read : scanner.readIndentation = .ok (next, lexemes)) :
    next.remaining < scanner.remaining := by
  unfold readIndentation at read
  simp only at read
  split at read
  · simp at read
  · split at read
    · simp at read
    · rename_i after mode constructLexemes construct
      simp only [Except.ok.injEq, Prod.mk.injEq] at read
      have rank := Mode.rank_le_two after.size mode
      rw [← read.1]
      simp only [remaining, reading]
      cases text : scanner.source.peekLine with
      | none =>
          have ended := (Source.readLine_eq_none_iff scanner.source).mp text
          simp only [text, Option.getD_none] at construct
          have atEnd : after.size ≤ scanner.source.size := by
            simpa [Text.leadingSpaces, Source.skip] using size_readConstruct_le construct
          have atStart : mode = .lineStart := by
            simp [Text.leadingSpaces, openingOf, readConstruct, readContent] at construct
            exact construct.2.1.symm
          simp [atStart, Mode.rank, ended]
          omega
      | some line =>
          have taken := @Source.size_readLine scanner.source _ text
          simp only [text, Option.getD_some] at construct
          have shorter : after.size < scanner.source.size := by
            cases width : Text.leadingSpaces line with
            | zero =>
                rw [width] at construct
                exact size_readConstruct_lt text construct
            | succ count =>
                rw [width] at construct
                exact Nat.lt_of_le_of_lt (size_readConstruct_le construct)
                  (size_skip_lt (by omega) count)
          have unread : scanner.source.size ≠ 0 := by omega
          simp [Mode.rank, unread]
          simp only [Mode.rank] at rank
          omega

private theorem remaining_advance_lt {scanner next : Scanner} {outcome : Outcome}
    {lexemes : List Lexeme} (rank : scanner.mode.rank scanner.source.size = 2)
    (shorter : ∀ after mode others, outcome = .ok (after, mode, others) →
      after.size < scanner.source.size ∨
        (after.size ≤ scanner.source.size ∧ mode = .lineStart))
    (read : scanner.advance outcome = .ok (next, lexemes)) :
    next.remaining < scanner.remaining := by
  cases outcome with
  | error fault => simp [advance] at read
  | ok result =>
      obtain ⟨after, mode, others⟩ := result
      simp only [advance, Except.ok.injEq, Prod.mk.injEq] at read
      rw [← read.1]
      simp only [remaining, rank]
      have := Mode.rank_le_two after.size mode
      rcases shorter after mode others rfl with less | ⟨same, atStart⟩
      · omega
      · simp [atStart, Mode.rank]
        omega

theorem remaining_act_lt {scanner next : Scanner} {lexemes : List Lexeme}
    (active : scanner.mode ≠ .done) (read : scanner.act = .ok (next, lexemes)) :
    next.remaining < scanner.remaining := by
  unfold act at read
  split at read
  · rename_i reading
    simp only [Except.ok.injEq] at read
    have := remaining_startLine_lt reading
    rwa [read] at this
  · rename_i reading
    exact remaining_readIndentation_lt reading read
  · rename_i parentheses reading
    refine remaining_advance_lt (by simp [reading, Mode.rank]) ?_ read
    intro after mode others piece
    rcases size_readPiece piece with less | ⟨same, atStart⟩
    · exact .inl less
    · exact .inr ⟨Nat.le_of_eq same, atStart⟩
  · rename_i reading
    refine remaining_advance_lt (by simp [reading, Mode.rank]) ?_ read
    intro after mode others data
    unfold readData at data
    split at data
    · simp at data
    · simp only [Except.ok.injEq, Prod.mk.injEq] at data
      rw [← data.1, ← data.2.1]
      exact .inr ⟨Source.size_readLine_le _, rfl⟩
  · rename_i name line width reading
    simp only [readFilterBody, Except.ok.injEq, Prod.mk.injEq] at read
    rw [← read.1]
    have := size_readFilterLines_le (width + 1) none 0 scanner.source
    simp [remaining, reading, Mode.rank]
    omega
  · contradiction

/-- Every step of a scanner that is not done lowers the measure. -/
theorem remaining_step_lt {scanner next : Scanner} {lexemes : List Lexeme}
    (active : scanner.mode ≠ .done) (stepped : scanner.step = .ok (next, lexemes)) :
    next.remaining < scanner.remaining := by
  unfold step at stepped
  split at stepped
  · simp at stepped
  · rename_i after others acted
    simp only [Except.ok.injEq, Prod.mk.injEq] at stepped
    have : after.remaining < scanner.remaining := remaining_act_lt active acted
    rw [← stepped.1]
    exact this

end Scanner

end Stencil
