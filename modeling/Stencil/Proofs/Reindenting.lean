import Stencil.Proofs.Placement
import Stencil.Proofs.RecastRuns

/-! Texts whose lines are indented anew.

If the leading spaces of every line are counted by an increasing function that leaves zero
as it is, the lines of the text are recast, and nothing else of it changes.  So the text is
cut into the same lexemes, as long as it has no filter, whose body keeps its spaces. -/

namespace Stencil

open Source (Recast)

/-! ### Line by line -/

namespace Text

def reindentLines (width : Nat → Nat) (text : Text) : Text :=
  ['\n'].intercalate (text.pieces.map (reindent width))

variable {width : Nat → Nat}

theorem reindentLines_unbroken {line : Text} (unbroken : '\n' ∉ line) :
    reindentLines width line = reindent width line := by
  simp [reindentLines, pieces_of_unbroken unbroken]

theorem reindentLines_newline {line : Text} (rest : Text) (unbroken : '\n' ∉ line) :
    reindentLines width (line ++ '\n' :: rest) =
      reindent width line ++ '\n' :: reindentLines width rest := by
  have some : rest.pieces.map (reindent width) ≠ [] := by simp [pieces_ne_nil]
  have joined := @intercalate_append [reindent width line] _ (by simp) some
  simpa [reindentLines, pieces_newline rest unbroken] using joined

theorem newline_not_mem_reindent {line : Text} (unbroken : '\n' ∉ line) :
    '\n' ∉ reindent width line := by
  rwa [mem_reindent (by decide)]

theorem reindent_eq_nil_iff {line : Text} (increasing : StrictMono width) (zero : width 0 = 0) :
    reindent width line = [] ↔ line = [] := by
  constructor
  · intro empty
    obtain ⟨narrow, body⟩ := List.append_eq_nil_iff.mp empty
    have none : width line.leadingSpaces = width 0 := by
      rw [zero]
      simpa [spaces] using narrow
    have unindented := increasing.injective none
    have whole := spaces_append_drop line
    rw [body, unindented] at whole
    exact whole.symm
  · rintro rfl
    simp [reindent, leadingSpaces, spaces, zero]

theorem lines_reindentLines (increasing : StrictMono width) (zero : width 0 = 0) (text : Text) :
    (reindentLines width text).lines = text.lines.map (reindent width) := by
  induction text using line_induction with
  | unbroken line free =>
      rw [reindentLines_unbroken free]
      by_cases given : line = []
      · subst given
        rw [(reindent_eq_nil_iff increasing zero).mpr rfl]
        rfl
      · rw [lines_unbroken free given, lines_unbroken (newline_not_mem_reindent free)
          (fun empty => given ((reindent_eq_nil_iff increasing zero).mp empty))]
        rfl
  | broken line rest free ih =>
      rw [reindentLines_newline rest free, lines_newline rest free,
        lines_newline _ (newline_not_mem_reindent free), ih, List.map_cons]

theorem return_not_mem_reindentLines {text : Text} (free : '\r' ∉ text) :
    '\r' ∉ reindentLines width text := by
  induction text using line_induction with
  | unbroken line unbroken =>
      rw [reindentLines_unbroken unbroken, mem_reindent (by decide)]
      exact free
  | broken line rest unbroken ih =>
      rw [reindentLines_newline rest unbroken]
      simp only [List.mem_append, List.mem_cons, not_or] at free ⊢
      rw [mem_reindent (by decide)]
      exact ⟨free.1, by decide, ih free.2.2⟩

end Text

/-! ### Loading -/

theorem Encoding.pragma_spaces (width : Nat) (body : Text) :
    pragma (Text.spaces width ++ body) = pragma body := by
  have dropped : (Text.spaces width ++ body).dropWhile isGap = body.dropWhile isGap := by
    apply List.dropWhile_append_of_pos
    intro character member
    rw [List.eq_of_mem_replicate member]
    rfl
  simp only [pragma, dropped]

theorem Encoding.pragma_reindent (width : Nat → Nat) (line : Text) :
    pragma (Text.reindent width line) = pragma line := by
  rw [Text.reindent, pragma_spaces, ← pragma_spaces line.leadingSpaces, Text.spaces_append_drop]

namespace Source

section Loading

variable {width : Nat → Nat} (increasing : StrictMono width) (zero : width 0 = 0)
include increasing zero

theorem ofLines_reindent {first : Nat} {text : Text} {source : Source} {changed : Text}
    (lines : changed.lines = text.lines.map (Text.reindent width))
    (loads : ofLines first text = .ok source) :
    ofLines first changed = .ok ((Recast.ofWidth width increasing zero).source source) := by
  obtain ⟨allowed, rfl⟩ := ofLines_eq_ok_iff.mp loads
  rw [ofLines_eq_ok_iff, lines]
  constructor
  · intro line member character inside
    obtain ⟨original, originalMember, rfl⟩ := List.mem_map.mp member
    by_cases space : character = ' '
    · subst space
      rfl
    · exact allowed original originalMember character ((Text.mem_reindent space).mp inside)
  · rw [numberFrom_map]
    simp [Recast.source, Recast.lines, Recast.ofWidth, Recast.entry]

theorem ofText_reindentLines {text : Text} {source : Source} (loads : ofText text = .ok source) :
    ofText (text.unifyBreaks.reindentLines width) =
      .ok ((Recast.ofWidth width increasing zero).source source) := by
  have free := Text.return_not_mem_unifyBreaks text
  have unified := Text.unifyBreaks_of_not_mem (@Text.return_not_mem_reindentLines width _ free)
  have lines := Text.lines_reindentLines increasing zero text.unifyBreaks
  have later : (text.unifyBreaks.reindentLines width).afterFirstLine.lines =
      text.unifyBreaks.afterFirstLine.lines.map (Text.reindent width) := by
    rw [Text.lines_afterFirstLine, Text.lines_afterFirstLine, lines, List.map_tail]
  have head : Encoding.pragma ((text.unifyBreaks.reindentLines width).lines.headD []) =
      Encoding.pragma (text.unifyBreaks.lines.headD []) := by
    rw [lines]
    cases text.unifyBreaks.lines with
    | nil => rfl
    | cons line others => exact Encoding.pragma_reindent width line
  unfold ofText at loads ⊢
  simp only [unified, head] at loads ⊢
  split at loads
  · exact ofLines_reindent increasing zero lines loads
  · split at loads
    · contradiction
    · exact ofLines_reindent increasing zero later loads

end Loading

end Source

/-! ### Lexemes -/

/-- Of the indentation of a text only the order of its widths matters. -/
theorem tokenize_reindentLines {width : Nat → Nat} {text : Text} {lexemes : List Lexeme}
    (increasing : StrictMono width) (zero : width 0 = 0) (cut : tokenize text = .ok lexemes)
    (unfiltered : ∀ name body, Token.filter name body ∉ lexemes.map Lexeme.token) :
    tokenize (text.unifyBreaks.reindentLines width) = .ok lexemes := by
  unfold tokenize at cut
  split at cut
  · contradiction
  · rename_i source loads
    split at cut
    · rename_i yielded ran
      cases cut
      obtain ⟨between, loaded⟩ := Source.IsLoaded.loaded (.inl ⟨text, loads⟩)
      have reloads := Source.ofText_reindentLines increasing zero loads
      obtain ⟨-, whole⟩ := Source.IsLoaded.loaded (.inl ⟨_, reloads⟩)
      have starts : Scanner.ofSource ((Recast.ofWidth width increasing zero).source source) =
          (Recast.ofWidth width increasing zero).scanner (Scanner.ofSource source) := by
        simp [Scanner.ofSource, Recast.scanner, Recast.levels, Recast.mode, Recast.ofWidth,
          Levels.ofBase, zero]
      unfold Source.lexemes at ran
      have again := @Recast.run_of_ended (Recast.ofWidth width increasing zero) _ _ rfl loaded whole
        (Scanner.standing_ofSource between) (by rw [ran]) (.inr (by rw [ran]; exact unfiltered))
      have kept : lexemes.map (Recast.ofWidth width increasing zero).lexeme = lexemes :=
        List.map_id' lexemes
      rw [← starts, ran, kept] at again
      simp only [tokenize, reloads, Source.lexemes, again]
    · contradiction

/-- A quoted value over two lines, a comment with a deeper line, and three times the spaces. -/
theorem tokenize_reindentLines_triple :
    ∃ lexemes : List Lexeme,
      tokenize "%a(b='c\n  d')\n // e\n   f\n%g\n  h".toList = .ok lexemes ∧
      lexemes.map Lexeme.token =
        [.element ['a'], .literalAttribute ['b'] ['c', ' ', 'd'], .indent,
          .comment [['e'], ['f']], .dedent, .element ['g'], .indent, .content ['h'], .dedent] ∧
      tokenize "%a(b='c\n      d')\n   // e\n         f\n%g\n      h".toList = .ok lexemes := by
  have cut : tokenize "%a(b='c\n  d')\n // e\n   f\n%g\n  h".toList =
      .ok [⟨.element ['a'], 1⟩, ⟨.literalAttribute ['b'] ['c', ' ', 'd'], 1⟩, ⟨.indent, 3⟩,
        ⟨.comment [['e'], ['f']], 3⟩, ⟨.dedent, 5⟩, ⟨.element ['g'], 5⟩, ⟨.indent, 6⟩,
        ⟨.content ['h'], 6⟩, ⟨.dedent, 6⟩] :=
    tokenize_of_runWithin 30 (by decide +kernel)
  have tripled : Text.reindentLines (3 * ·)
        (Text.unifyBreaks "%a(b='c\n  d')\n // e\n   f\n%g\n  h".toList) =
      "%a(b='c\n      d')\n   // e\n         f\n%g\n      h".toList := by decide +kernel
  have increasing : StrictMono (3 * · : Nat → Nat) := by
    intro narrow wide less
    simp only
    omega
  have again := tokenize_reindentLines increasing rfl cut (by simp)
  rw [tripled] at again
  exact ⟨_, cut, rfl, again⟩

end Stencil
