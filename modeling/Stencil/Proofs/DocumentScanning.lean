import Stencil.Proofs.DocumentLoading
import Stencil.Proofs.Runs

/-! Scanning the template of a document.

Each line of the template takes the scanner from the start of that line to the start
of the next one, and yields the tokens of its node after those that change the level.
So a whole template yields the tokens of its document. -/

namespace Stencil

/-! ### Reading within a line -/

namespace Source

variable {lines : List (Nat × Text)} {number : Nat}

theorem readName_within {name after : Text} (role : NameRole) (named : isName name = true)
    (stops : isNameCharacter (after.headD '\n') = false) (visible : after.head? ≠ some '\n') :
    (Source.mk lines (some (name ++ after)) number).readName role =
      .ok (name, ⟨lines, some after, number⟩) := by
  cases name with
  | nil => contradiction
  | cons first rest =>
      have start : isNameStart first = true := by
        rw [isName_cons, Bool.and_eq_true] at named
        exact named.1
      have whole : (Source.mk lines (some (first :: (rest ++ after))) number).readWhile
          isNameCharacter = (first :: rest, ⟨lines, some after, number⟩) :=
        readWhile_within (isNameCharacter_of_isName named).2 stops visible
      simp [readName, start, whole]

/-- A value in double quotes is read back from its escaped form. -/
theorem readQuotation_quoted {value : Text} (multiline : Bool) (line : Nat) (after : Text)
    (unbroken : '\n' ∉ value) :
    (Source.mk lines (some (Document.quoted value ++ '\x22' :: after)) number).readQuotation
        '\x22' multiline line =
      .ok (value, ⟨lines, some after, number⟩) := by
  induction value with
  | nil => exact readQuotation_close '\x22' multiline line after (by decide)
  | cons character rest ih =>
      simp only [List.mem_cons, not_or] at unbroken
      have visible : character ≠ '\n' := Ne.symm unbroken.1
      have later := ih unbroken.2
      rw [Document.quoted_cons, List.append_assoc]
      by_cases special : character = '\\' ∨ character = '\x22'
      · rw [if_pos special, List.cons_append, List.cons_append,
          readQuotation_escape _ _ _ _ visible, List.nil_append, later]
        rfl
      · rw [if_neg special, List.cons_append, List.nil_append,
          readQuotation_plain _ _ _ _ visible (not_or.mp special).1 (not_or.mp special).2, later]
        rfl

theorem readQuoted_quoted {value : Text} (multiline : Bool) (line : Nat) {after : Text}
    (unbroken : '\n' ∉ value) (follows : mayFollowValue (after.headD '\n') = true) :
    (Source.mk lines (some (Document.quoted value ++ '\x22' :: after)) number).readQuoted
        '\x22' multiline line =
      .ok (value, ⟨lines, some after, number⟩) := by
  have other : after.headD '\n' ≠ '\x22' := by
    intro same
    rw [same] at follows
    contradiction
  rw [readQuoted, readQuotation_quoted multiline line after unbroken]
  simp only [peekChar_within, if_neg other, if_pos follows]

end Source

/-! ### Levels at a depth -/

namespace Levels

def widthsTo (step : Nat) : Nat → List Nat
  | 0 => []
  | depth + 1 => (depth + 1) * step :: widthsTo step depth

def atDepth (step depth : Nat) : Levels where
  base := 0
  inner := widthsTo step depth

theorem current_atDepth (step depth : Nat) : (atDepth step depth).current = depth * step := by
  cases depth with
  | zero => simp [atDepth, widthsTo, current]
  | succ depth => rfl

theorem closeAbove_widthsTo {step previous depth : Nat} (positive : 0 < step)
    (higher : depth ≤ previous) :
    closeAbove (depth * step) (widthsTo step previous) =
      (previous - depth, widthsTo step depth) := by
  induction previous with
  | zero =>
      obtain rfl : depth = 0 := Nat.le_zero.mp higher
      rfl
  | succ previous ih =>
      rcases Nat.lt_or_eq_of_le higher with above | rfl
      · have wider : depth * step < (previous + 1) * step :=
          Nat.mul_lt_mul_of_pos_right above positive
        rw [widthsTo, closeAbove, if_pos wider, ih (Nat.le_of_lt_succ above)]
        simp only [Prod.mk.injEq, and_true]
        omega
      · rw [Nat.sub_self, widthsTo, closeAbove, if_neg (Nat.lt_irrefl _)]

theorem dedentTo_atDepth {step previous depth : Nat} (positive : 0 < step)
    (higher : depth ≤ previous) :
    (atDepth step previous).dedentTo (depth * step) =
      (some (previous - depth), atDepth step depth) := by
  have left : Levels.mk 0 (widthsTo step depth) = atDepth step depth := rfl
  simp only [dedentTo, atDepth, closeAbove_widthsTo positive higher]
  rw [left, current_atDepth, if_pos rfl]

end Levels

/-! ### Attribute lists -/

namespace Scanner

section Lines

variable {lines : List (Nat × Text)} {number : Nat} {levels : Levels}

/-- The scanner at the start of a line. -/
def atLine (lines : List (Nat × Text)) (number : Nat) (levels : Levels) (begun : Bool) :
    Scanner where
  source := ⟨lines, none, number⟩
  levels := levels
  mode := .lineStart
  blankPending := false
  begun := begun

def atPiece (lines : List (Nat × Text)) (rest : Text) (number : Nat) (levels : Levels)
    (parentheses : Nat) : Scanner where
  source := ⟨lines, some rest, number⟩
  levels := levels
  mode := .pieces parentheses
  blankPending := false
  begun := true

theorem passes_piece {rest : Text} {parentheses : Nat} {after : Source} {mode : Mode}
    {lexemes : List Lexeme}
    (read : readPiece parentheses ⟨lines, some rest, number⟩ = .ok (after, mode, lexemes)) :
    Passes (atPiece lines rest number levels parentheses) lexemes
      ⟨after, levels, mode, false, true⟩ := by
  apply Passes.of_step
  · simp [atPiece]
  · simp [step, act, atPiece, advance, read]

theorem passes_space (rest : Text) (parentheses : Nat) :
    Passes (atPiece lines (' ' :: rest) number levels parentheses) []
      (atPiece lines rest number levels parentheses) := by
  have read : readPiece parentheses ⟨lines, some (' ' :: rest), number⟩ =
      .ok (⟨lines, some rest, number⟩, .pieces parentheses, []) := by
    simp [readPiece]
  exact passes_piece read

theorem passes_opening (rest : Text) (parentheses : Nat) :
    Passes (atPiece lines ('(' :: rest) number levels parentheses) []
      (atPiece lines rest number levels (parentheses + 1)) := by
  have read : readPiece parentheses ⟨lines, some ('(' :: rest), number⟩ =
      .ok (⟨lines, some rest, number⟩, .pieces (parentheses + 1), []) := by
    simp [readPiece]
  exact passes_piece read

theorem passes_closing (rest : Text) (parentheses : Nat) :
    Passes (atPiece lines (')' :: rest) number levels (parentheses + 1)) []
      (atPiece lines rest number levels parentheses) := by
  have read : readPiece (parentheses + 1) ⟨lines, some (')' :: rest), number⟩ =
      .ok (⟨lines, some rest, number⟩, .pieces parentheses, []) := by
    simp [readPiece]
  exact passes_piece read

theorem passes_lineEnd :
    Passes (atPiece lines [] number levels 0) [] (atLine lines number levels true) := by
  have read : readPiece 0 ⟨lines, some [], number⟩ =
      .ok (⟨lines, none, number⟩, .lineStart, []) := by
    simp [readPiece]
  exact passes_piece read

theorem readAttribute_assignment (entry : Document.Name × Document.Line) {after : Text}
    (parentheses line : Nat) (follows : Source.mayFollowValue (after.headD '\n') = true) :
    readAttribute parentheses line
        ⟨lines, some (Document.assignment entry ++ after), number⟩ =
      .ok (.literalAttribute entry.1.text entry.2.text, ⟨lines, some after, number⟩) := by
  obtain ⟨name, value⟩ := entry
  have parts : Document.assignment (name, value) ++ after =
      name.text ++ ('=' :: '\x22' :: (Document.quoted value.text ++ '\x22' :: after)) := by
    simp [Document.assignment]
  have inline : '\n' ∉ value.text := value.newline_not_mem
  have read : (Source.mk lines (some (name.text ++
        ('=' :: '\x22' :: (Document.quoted value.text ++ '\x22' :: after)))) number).readName
        .attributeName =
      .ok (name.text, ⟨lines, some ('=' :: '\x22' ::
        (Document.quoted value.text ++ '\x22' :: after)), number⟩) := by
    apply Source.readName_within _ name.named
    · rfl
    · simp
  rw [parts, readAttribute, read]
  simp [Source.readQuoted_quoted _ _ inline follows, Except.map]

theorem passes_assignment (entry : Document.Name × Document.Line) {after : Text}
    (parentheses : Nat) (follows : Source.mayFollowValue (after.headD '\n') = true) :
    Passes (atPiece lines (Document.assignment entry ++ after) number levels parentheses)
      (onLine number [.literalAttribute entry.1.text entry.2.text])
      (atPiece lines after number levels parentheses) := by
  obtain ⟨first, rest, name, start⟩ := entry.1.exists_start
  have next : (Source.mk lines (some (Document.assignment entry ++ after)) number).peekChar.1 =
      some first := by
    simp [Document.assignment, name]
  exact passes_piece (readPiece_of_isNameStart next start
    (readAttribute_assignment entry parentheses _ follows))

theorem passes_entries (entries : List (Document.Name × Document.Line)) (rest : Text) :
    Passes (atPiece lines ([' '].intercalate (entries.map Document.assignment) ++ ')' :: rest)
        number levels 1)
      (onLine number (entries.map fun entry => .literalAttribute entry.1.text entry.2.text))
      (atPiece lines (')' :: rest) number levels 1) := by
  induction entries with
  | nil => exact .refl _
  | cons entry others ih =>
      cases others with
      | nil => simpa using passes_assignment entry 1 rfl
      | cons second others =>
          have parts : [' '].intercalate ((entry :: second :: others).map Document.assignment) ++
                ')' :: rest =
              Document.assignment entry ++ (' ' ::
                ([' '].intercalate ((second :: others).map Document.assignment) ++ ')' :: rest)) := by
            simp
          rw [parts]
          exact (passes_assignment entry 1 rfl).trans ((passes_space _ 1).trans ih)

theorem passes_list (entries : List (Document.Name × Document.Line)) (rest : Text) :
    Passes (atPiece lines ('(' :: ([' '].intercalate (entries.map Document.assignment) ++
        ')' :: rest)) number levels 0)
      (onLine number (entries.map fun entry => .literalAttribute entry.1.text entry.2.text))
      (atPiece lines rest number levels 0) := by
  have read := (@passes_entries lines number levels entries rest).trans (passes_closing rest 0)
  have whole := (passes_opening _ 0).trans read
  rwa [List.nil_append, List.append_nil] at whole

theorem reaches_attributes (attributes : Document.Attributes) :
    Reaches (atPiece lines attributes.source number levels 0)
      (attributes.entries.map fun entry => .literalAttribute entry.1.text entry.2.text)
      (atLine lines number levels true) := by
  obtain ⟨entries, distinct⟩ := attributes
  cases entries with
  | nil => exact passes_lineEnd.reaches
  | cons entry others =>
      have list := @passes_list lines number levels (entry :: others) []
      have whole := (list.trans passes_lineEnd).reaches
      rw [List.append_nil, tokens_onLine] at whole
      exact whole

end Lines

/-! ### Lines -/

theorem enterLevel_atDepth {step previous depth : Nat} (line : Nat) (positive : 0 < step)
    (stepwise : depth ≤ previous + 1) :
    enterLevel (depth * step) line (Levels.atDepth step previous) =
      .ok (Levels.atDepth step depth, onLine line (Document.crossing previous depth)) := by
  unfold enterLevel Levels.compare Document.crossing
  rw [Levels.current_atDepth]
  rcases Nat.lt_trichotomy depth previous with above | rfl | below
  · have narrower := Nat.mul_lt_mul_of_pos_right above positive
    rw [Nat.compare_eq_lt.mpr narrower, Levels.dedentTo_atDepth positive (Nat.le_of_lt above),
      if_neg (by omega)]
  · simp [onLine]
  · obtain rfl : depth = previous + 1 := by omega
    rw [Nat.compare_eq_gt.mpr (Nat.mul_lt_mul_of_pos_right below positive), if_pos below]
    rfl

/-- A line that begins with a visible character after the spaces of its depth. -/
theorem reaches_construct {step previous depth first number : Nat} {begun : Bool}
    {lines : List (Nat × Text)} {character : Char} {rest : Text} {after : Source} {mode : Mode}
    {tokens : List Token} (positive : 0 < step) (stepwise : depth ≤ previous + 1)
    (visible : Text.isBlank character = false)
    (read : ∀ source : Source, source.fill = ⟨lines, some (character :: rest), first⟩ →
      readConstruct (openingOf (character :: rest)) (depth * step) first source =
        .ok (after, mode, onLine first tokens)) (given : tokens ≠ []) :
    Reaches
      (atLine ((first, Text.spaces (depth * step) ++ character :: rest) :: lines) number
        (Levels.atDepth step previous) begun)
      (Document.crossing previous depth ++ tokens)
      ⟨after, Levels.atDepth step depth, mode, false, true⟩ := by
  have passes := @passes_construct (Levels.atDepth step previous) false begun (depth * step) first
    number character rest lines _ _ _ _ _ visible (enterLevel_atDepth first positive stepwise)
    (read _ rfl) given
  have reaches := passes.reaches
  rw [if_neg Bool.false_ne_true] at reaches
  rwa [List.append_nil, List.map_append, tokens_onLine, tokens_onLine] at reaches

/-- After its sign a tag is read up to what cannot go on with it. -/
theorem readConstruct_tag {lines : List (Nat × Text)} {number : Nat} {source : Source} {rest : Text}
    (tag : Document.Name) (width : Nat)
    (filled : source.fill = ⟨lines, some ('%' :: (tag.text ++ rest)), number⟩)
    (stops : isNameCharacter (rest.headD '\n') = false) (visible : rest.head? ≠ some '\n')
    (plain : shortcutAttribute (rest.headD '\n') = none) :
    readConstruct (openingOf ('%' :: (tag.text ++ rest))) width number source =
      .ok (⟨lines, some rest, number⟩, .pieces 0, onLine number [.element tag.text]) := by
  have opening : openingOf ('%' :: (tag.text ++ rest)) = .element := by
    simp [openingOf]
  have read : source.readChar.2 = ⟨lines, some (tag.text ++ rest), number⟩ := by
    have next : source.readChar.2 = source.fill.tail := rfl
    rw [next, filled]
    rfl
  have name := @Source.readName_within lines number _ _ .elementName tag.named stops visible
  have shortcuts : (Source.mk lines (some rest) number).readShortcuts =
      .ok ([], ⟨lines, some rest, number⟩) := by
    have next : (Source.mk lines (some rest) number).peekChar =
        (some (rest.headD '\n'), ⟨lines, some rest, number⟩) :=
      Source.peekChar_within _
    rw [Source.readShortcuts_of_none (congrArg Prod.fst next) plain, next]
  rw [opening]
  simp [readConstruct, readElement, read, name, startElement, shortcuts]

theorem readConstruct_element {lines : List (Nat × Text)} {number : Nat} {source : Source}
    (tag : Document.Name) (attributes : Document.Attributes) (width : Nat)
    (filled : source.fill = ⟨lines, some ('%' :: (tag.text ++ attributes.source)), number⟩) :
    readConstruct (openingOf ('%' :: (tag.text ++ attributes.source))) width number source =
      .ok (⟨lines, some attributes.source, number⟩, .pieces 0,
        onLine number [.element tag.text]) := by
  have stops : isNameCharacter (attributes.source.headD '\n') = false ∧
      attributes.source.head? ≠ some '\n' ∧
      shortcutAttribute (attributes.source.headD '\n') = none := by
    unfold Document.Attributes.source
    split
    · exact ⟨rfl, by simp, rfl⟩
    · exact ⟨rfl, by simp, rfl⟩
  exact readConstruct_tag tag width filled stops.1 stops.2.1 stops.2.2

theorem readConstruct_text {lines : List (Nat × Text)} {number : Nat} {source : Source}
    (content : Document.Content) (width : Nat)
    (filled : source.fill = ⟨lines, some ('\\' :: content.text), number⟩) :
    readConstruct (openingOf ('\\' :: content.text)) width number source =
      .ok (⟨lines, none, number⟩, .lineStart, onLine number [.content content.text]) := by
  have opening : openingOf ('\\' :: content.text) = .verbatim := by
    simp [openingOf, shortcutAttribute]
  rw [opening]
  simp [readConstruct, readContent, Source.readLine_of_fill filled, content.trimEnd_eq]

/-- The line of a node takes the scanner to the next line. -/
theorem reaches_node {step previous depth first number : Nat} {begun : Bool}
    {lines : List (Nat × Text)} (node : Document.Node) (positive : 0 < step)
    (stepwise : depth ≤ previous + 1) :
    Reaches
      (atLine ((first, Text.spaces (depth * step) ++ node.source) :: lines) number
        (Levels.atDepth step previous) begun)
      (Document.crossing previous depth ++ node.tokens)
      (atLine lines first (Levels.atDepth step depth) true) := by
  cases node with
  | element tag attributes =>
      have started : Reaches
          (atLine ((first, Text.spaces (depth * step) ++ '%' :: (tag.text ++ attributes.source)) ::
            lines) number (Levels.atDepth step previous) begun)
          (Document.crossing previous depth ++ [.element tag.text])
          (atPiece lines attributes.source first (Levels.atDepth step depth) 0) :=
        reaches_construct positive stepwise (by decide)
          (fun source filled => readConstruct_element tag attributes _ filled) (by simp)
      have whole := started.trans (reaches_attributes attributes)
      rw [List.append_assoc] at whole
      exact whole
  | text content =>
      exact reaches_construct positive stepwise (by decide)
        (fun source filled => readConstruct_text content _ filled) (by simp [Document.Node.tokens])

theorem reaches_end {step previous number : Nat} {begun : Bool} (positive : 0 < step) :
    ∃ last, last.mode = .done ∧
      Reaches (atLine [] number (Levels.atDepth step previous) begun)
        (List.replicate previous .dedent) last := by
  have closed : (Levels.atDepth step previous).dedentTo 0 =
      (some previous, Levels.atDepth step 0) := by
    have all := Levels.dedentTo_atDepth positive (Nat.zero_le previous)
    rwa [Nat.zero_mul] at all
  have stepped : (atLine [] number (Levels.atDepth step previous) begun).step =
      .ok (⟨⟨[], none, number⟩, Levels.atDepth step 0, .done, false,
        begun || !(onLine number (List.replicate previous .dedent)).isEmpty⟩,
        onLine number (List.replicate previous .dedent)) := by
    simp [Scanner.step, act, atLine, startLine, Source.peekLine, Source.readLine, closed,
      Source.lineNumber]
  have reaches := Reaches.of_step (by simp [atLine]) stepped
  rw [tokens_onLine] at reaches
  exact ⟨_, rfl, reaches⟩

/-- Lines that go down step by step yield their tokens. -/
theorem run_lines {step previous first number : Nat} {begun : Bool}
    {entries : List (Nat × Document.Node)} (positive : 0 < step)
    (stepwise : Document.Stepwise previous entries) :
    ∃ lexemes : List Lexeme, lexemes.map Lexeme.token = Document.lineTokens previous entries ∧
      (atLine (Source.numberFrom first (entries.map (Document.sourceLine step))) number
        (Levels.atDepth step previous) begun).run = (lexemes, none) := by
  induction entries generalizing previous first number begun with
  | nil =>
      obtain ⟨last, finished, reaches⟩ := reaches_end positive
      obtain ⟨lexemes, yielded, ran⟩ := reaches.run
      refine ⟨lexemes, yielded, ?_⟩
      simp only [run_of_done finished, List.append_nil] at ran
      exact ran
  | cons entry others ih =>
      obtain ⟨depth, node⟩ := entry
      obtain ⟨lexemes, yielded, ran⟩ := (reaches_node node positive stepwise.1).run
      obtain ⟨later, laterYielded, laterRan⟩ := ih stepwise.2
      refine ⟨lexemes ++ later, ?_, ?_⟩
      · rw [List.map_append, yielded, laterYielded]
        rfl
      · rw [laterRan] at ran
        exact ran

end Scanner

/-- The template of a document is cut into the tokens of the document. -/
theorem Document.tokenize_source (terminated : Bool) {step : Nat} (forest : List Document.Tree)
    (positive : 0 < step) :
    ∃ lexemes : List Lexeme, tokenize (Document.source terminated step forest) = .ok lexemes ∧
      lexemes.map Lexeme.token = Document.tokensAll forest := by
  have returns : Document.Returns 0 [] := by simp [Document.Returns]
  have stepwise := Document.stepwise_outlineAll forest returns trivial
  have tokens := Document.lineTokens_outlineAll forest returns
  rw [List.append_nil] at stepwise tokens
  obtain ⟨lexemes, yielded, ran⟩ := Scanner.run_lines positive stepwise
  refine ⟨lexemes, ?_, ?_⟩
  · have lexed : (Source.mk (Source.numberFrom 1 (Document.sourceLines step forest)) none
        1).lexemes = (lexemes, none) := ran
    simp only [tokenize, Document.ofText_source, lexed]
  · rw [yielded, tokens]
    exact List.append_nil _

end Stencil
