import Stencil.Scanner.Run

/-! Everything that one step of a scanner can do.

`PieceRead` lists the ways in which a piece of an attribute list is read, and
`Stepped` the steps themselves, one for each mode and outcome. -/

namespace Stencil
namespace Scanner

theorem tokens_onLine (line : Nat) (tokens : List Token) :
    (onLine line tokens).map Lexeme.token = tokens := by
  rw [onLine, List.map_map]
  exact List.map_id tokens

/-- The ways in which a piece of an attribute list is read. -/
inductive PieceRead (source : Source) : Nat → Source → Mode → List Lexeme → Prop
  | ended (next : source.peekChar.1 = none) :
      PieceRead source 0 source.peekChar.2 .lineStart []
  | lineEnd (next : source.peekChar.1 = some '\n') :
      PieceRead source 0 source.readChar.2 .lineStart []
  | newline {parentheses : Nat} (next : source.peekChar.1 = some '\n') (opened : parentheses ≠ 0) :
      PieceRead source parentheses source.readChar.2 (.pieces parentheses) []
  | space {parentheses : Nat} (next : source.peekChar.1 = some ' ') :
      PieceRead source parentheses source.readChar.2 (.pieces parentheses) []
  | opening {parentheses : Nat} (next : source.peekChar.1 = some '(') :
      PieceRead source parentheses source.readChar.2 (.pieces (parentheses + 1)) []
  | closing {parentheses : Nat} (next : source.peekChar.1 = some ')') :
      PieceRead source (parentheses + 1) source.readChar.2 (.pieces parentheses) []
  | continued {parentheses : Nat} (next : source.peekChar.1 = some '\\')
      (ends : source.readChar.2.readChar.1 = some '\n') :
      PieceRead source parentheses source.readChar.2.readChar.2 (.pieces parentheses) []
  | data (next : source.peekChar.1 = some ':') :
      PieceRead source 0 source.readChar.2 .data []
  | selfClose (next : source.peekChar.1 = some '/') :
      PieceRead source 0 (readSelfClose source.lineNumber source.readChar.2).1 .lineStart
        (readSelfClose source.lineNumber source.readChar.2).2.2
  | attributed {parentheses : Nat} {character : Char} {token : Token} {after : Source}
      (next : source.peekChar.1 = some character) (start : isNameStart character = true)
      (read : readAttribute parentheses source.lineNumber source = .ok (token, after)) :
      PieceRead source parentheses after (.pieces parentheses)
        (onLine source.lineNumber [token])

section Pieces

variable {parentheses : Nat} {source after : Source} {mode : Mode} {lexemes : List Lexeme}

theorem pieceRead_ended (next : source.peekChar.1 = none)
    (read : readPiece parentheses source = .ok (after, mode, lexemes)) :
    PieceRead source parentheses after mode lexemes := by
  simp only [readPiece, next] at read
  split at read
  · contradiction
  · rename_i closed
    obtain rfl : parentheses = 0 := by omega
    cases read
    exact .ended next

theorem pieceRead_newline (next : source.peekChar.1 = some '\n')
    (read : readPiece parentheses source = .ok (after, mode, lexemes)) :
    PieceRead source parentheses after mode lexemes := by
  simp only [readPiece, next, ↓reduceIte] at read
  split at read
  · rename_i closed
    subst closed
    cases read
    exact .lineEnd next
  · rename_i opened
    cases read
    exact .newline next opened

theorem pieceRead_space (next : source.peekChar.1 = some ' ')
    (read : readPiece parentheses source = .ok (after, mode, lexemes)) :
    PieceRead source parentheses after mode lexemes := by
  simp only [readPiece, next, Char.reduceEq, ↓reduceIte] at read
  cases read
  exact .space next

theorem pieceRead_opening (next : source.peekChar.1 = some '(')
    (read : readPiece parentheses source = .ok (after, mode, lexemes)) :
    PieceRead source parentheses after mode lexemes := by
  simp only [readPiece, next, Char.reduceEq, ↓reduceIte] at read
  cases read
  exact .opening next

theorem pieceRead_closing (next : source.peekChar.1 = some ')')
    (read : readPiece parentheses source = .ok (after, mode, lexemes)) :
    PieceRead source parentheses after mode lexemes := by
  simp only [readPiece, next, Char.reduceEq, ↓reduceIte] at read
  cases parentheses with
  | zero => contradiction
  | succ outer =>
      cases read
      exact .closing next

theorem pieceRead_backslash (next : source.peekChar.1 = some '\\')
    (read : readPiece parentheses source = .ok (after, mode, lexemes)) :
    PieceRead source parentheses after mode lexemes := by
  simp only [readPiece, next, Char.reduceEq, ↓reduceIte] at read
  split at read
  · rename_i ends
    cases read
    exact .continued next ends
  · contradiction

theorem pieceRead_colon (next : source.peekChar.1 = some ':')
    (read : readPiece parentheses source = .ok (after, mode, lexemes)) :
    PieceRead source parentheses after mode lexemes := by
  simp only [readPiece, next, Char.reduceEq, ↓reduceIte] at read
  split at read
  · contradiction
  · rename_i closed
    obtain rfl : parentheses = 0 := by omega
    cases read
    exact .data next

theorem pieceRead_slash (next : source.peekChar.1 = some '/')
    (read : readPiece parentheses source = .ok (after, mode, lexemes)) :
    PieceRead source parentheses after mode lexemes := by
  simp only [readPiece, next, Char.reduceEq, ↓reduceIte] at read
  split at read
  · contradiction
  · rename_i closed
    obtain rfl : parentheses = 0 := by omega
    cases read
    exact .selfClose next

/-- The characters that are a piece, or start one, by themselves. -/
def pieceSigns : List Char := ['\n', ' ', '(', ')', '\\', ':', '/']

theorem pieceRead_attribute {character : Char} (next : source.peekChar.1 = some character)
    (unsigned : character ∉ pieceSigns)
    (read : readPiece parentheses source = .ok (after, mode, lexemes)) :
    PieceRead source parentheses after mode lexemes := by
  simp only [pieceSigns, List.mem_cons, List.not_mem_nil, or_false, not_or] at unsigned
  simp only [readPiece, next, unsigned, ↓reduceIte] at read
  split at read
  · rename_i start
    split at read
    · contradiction
    · rename_i token last attributeRead
      cases read
      exact .attributed next start attributeRead
  · split at read <;> contradiction

theorem pieceRead_of_readPiece
    (read : readPiece parentheses source = .ok (after, mode, lexemes)) :
    PieceRead source parentheses after mode lexemes := by
  cases next : source.peekChar.1 with
  | none => exact pieceRead_ended next read
  | some character =>
      by_cases sign : character ∈ pieceSigns
      · simp only [pieceSigns, List.mem_cons, List.not_mem_nil, or_false] at sign
        rcases sign with rfl | rfl | rfl | rfl | rfl | rfl | rfl
        · exact pieceRead_newline next read
        · exact pieceRead_space next read
        · exact pieceRead_opening next read
        · exact pieceRead_closing next read
        · exact pieceRead_backslash next read
        · exact pieceRead_colon next read
        · exact pieceRead_slash next read
      · exact pieceRead_attribute next sign read

end Pieces

/-- The steps of a scanner, before it is recorded that something was yielded. -/
inductive Stepped (scanner : Scanner) : Scanner → List Lexeme → Prop
  | ended (reading : scanner.mode = .lineStart) (next : scanner.source.peekLine = none) :
      Stepped scanner
        { scanner with levels := (scanner.levels.dedentTo 0).2, mode := .done }
        (onLine scanner.source.lineNumber
          (List.replicate ((scanner.levels.dedentTo 0).1.getD 0) .dedent))
  | blank {line : Text} (reading : scanner.mode = .lineStart)
      (next : scanner.source.peekLine = some line) (blank : Text.isAllBlank line = true) :
      Stepped scanner
        { scanner with
          source := scanner.source.readLine.2
          blankPending := scanner.blankPending || scanner.begun } []
  | line {line : Text} (reading : scanner.mode = .lineStart)
      (next : scanner.source.peekLine = some line) (visible : Text.isAllBlank line = false) :
      Stepped scanner { scanner with mode := .indentation } []
  | construct {width : Nat} {text : Text} {levels : Levels} {after : Source} {mode : Mode}
      {structural lexemes : List Lexeme} (reading : scanner.mode = .indentation)
      (next : scanner.source.peekLine.getD [] = text) (indent : text.leadingSpaces = width)
      (entered : enterLevel width scanner.source.lineNumber scanner.levels =
        .ok (levels, structural))
      (read : readConstruct (openingOf (text.drop width)) width scanner.source.lineNumber
        (scanner.source.skip width) = .ok (after, mode, lexemes)) :
      Stepped scanner
        { scanner with source := after, levels := levels, mode := mode, blankPending := false }
        (structural ++
          (if scanner.blankPending then onLine scanner.source.lineNumber [.blankLine] else []) ++
          lexemes)
  | piece {parentheses : Nat} {after : Source} {mode : Mode} {lexemes : List Lexeme}
      (reading : scanner.mode = .pieces parentheses)
      (read : PieceRead scanner.source parentheses after mode lexemes) :
      Stepped scanner { scanner with source := after, mode := mode } lexemes
  | data {payload : Payload} (reading : scanner.mode = .data)
      (read : payloadOf scanner.source.lineNumber
        (Text.trim (scanner.source.readLine.1.getD [])) = .ok payload) :
      Stepped scanner
        { scanner with source := scanner.source.readLine.2, mode := .lineStart }
        (onLine scanner.source.lineNumber [payload.data])
  | filterBody {name : Text} {line width : Nat}
      (reading : scanner.mode = .filterBody name line width) :
      Stepped scanner (scanner.readFilterBody name line width).1
        (scanner.readFilterBody name line width).2
  | done (reading : scanner.mode = .done) : Stepped scanner scanner []

theorem stepped_of_act {scanner next : Scanner} {lexemes : List Lexeme}
    (acted : scanner.act = .ok (next, lexemes)) : Stepped scanner next lexemes := by
  unfold act at acted
  split at acted
  · rename_i reading
    unfold startLine at acted
    split at acted
    · rename_i noLine
      cases acted
      exact .ended reading noLine
    · rename_i line found
      split at acted
      · rename_i blank
        cases acted
        exact .blank reading found blank
      · rename_i visible
        cases acted
        exact .line reading found (by simpa using visible)
  · rename_i reading
    unfold readIndentation at acted
    simp only at acted
    split at acted
    · contradiction
    · rename_i levels structural entered
      split at acted
      · contradiction
      · rename_i after mode constructLexemes read
        cases acted
        exact .construct reading rfl rfl entered read
  · rename_i parentheses reading
    unfold advance at acted
    split at acted
    · contradiction
    · rename_i after mode pieceLexemes read
      cases acted
      exact .piece reading (pieceRead_of_readPiece read)
  · rename_i reading
    unfold advance readData at acted
    split at acted
    · contradiction
    · rename_i after mode dataLexemes read
      split at read
      · contradiction
      · rename_i payload payloadRead
        cases read
        cases acted
        exact .data reading payloadRead
  · rename_i name line width reading
    cases acted
    exact .filterBody reading
  · rename_i reading
    cases acted
    exact .done reading

/-- Every step is one of these, and a record of whether anything was yielded. -/
theorem step_cases {scanner next : Scanner} {lexemes : List Lexeme}
    (stepped : scanner.step = .ok (next, lexemes)) :
    ∃ acted, Stepped scanner acted lexemes ∧
      next = { acted with begun := acted.begun || !lexemes.isEmpty } := by
  unfold step at stepped
  split at stepped
  · contradiction
  · rename_i acted others act
    cases stepped
    exact ⟨acted, stepped_of_act act, rfl⟩

/-! ### Runs -/

theorem run_of_done {scanner : Scanner} (finished : scanner.mode = .done) :
    scanner.run = ([], none) := by
  rw [run, if_pos finished]

/-- A run is its first step and the run after it. -/
theorem run_of_step {scanner next : Scanner} {lexemes : List Lexeme}
    (active : scanner.mode ≠ .done) (stepped : scanner.step = .ok (next, lexemes)) :
    scanner.run = (lexemes ++ next.run.1, next.run.2) := by
  rw [run, if_neg active]
  split
  · rename_i failed
    rw [stepped] at failed
    contradiction
  · rename_i found same
    rw [stepped] at same
    cases same
    rfl

theorem run_of_step_error {scanner : Scanner} {fault : Fault} (active : scanner.mode ≠ .done)
    (failed : scanner.step = .error fault) : scanner.run = ([], some fault) := by
  rw [run, if_neg active]
  split
  · rename_i same
    rw [failed] at same
    cases same
    rfl
  · rename_i same
    rw [failed] at same
    contradiction

/-! ### From state to state -/

/-- The scanner comes from one state to another and yields tokens on its way. -/
inductive Reaches : Scanner → List Token → Scanner → Prop
  | refl (scanner : Scanner) : Reaches scanner [] scanner
  | step {scanner middle last : Scanner} {lexemes : List Lexeme} {tokens : List Token}
      (active : scanner.mode ≠ .done) (stepped : scanner.step = .ok (middle, lexemes))
      (later : Reaches middle tokens last) :
      Reaches scanner (lexemes.map Lexeme.token ++ tokens) last

namespace Reaches

variable {scanner middle last : Scanner} {first second : List Token}

theorem trans (reachesFirst : Reaches scanner first middle)
    (reachesSecond : Reaches middle second last) : Reaches scanner (first ++ second) last := by
  induction reachesFirst with
  | refl scanner => exact reachesSecond
  | step active stepped later ih =>
      rw [List.append_assoc]
      exact .step active stepped (ih reachesSecond)

theorem of_step {lexemes : List Lexeme} (active : scanner.mode ≠ .done)
    (stepped : scanner.step = .ok (last, lexemes)) :
    Reaches scanner (lexemes.map Lexeme.token) last := by
  have once := Reaches.step active stepped (.refl last)
  rwa [List.append_nil] at once

theorem run (reaches : Reaches scanner first last) :
    ∃ lexemes : List Lexeme, lexemes.map Lexeme.token = first ∧
      scanner.run = (lexemes ++ last.run.1, last.run.2) := by
  induction reaches with
  | refl scanner => exact ⟨[], rfl, rfl⟩
  | @step scanner middle last lexemes tokens active stepped later ih =>
      obtain ⟨others, yielded, ran⟩ := ih
      refine ⟨lexemes ++ others, by rw [List.map_append, yielded], ?_⟩
      rw [run_of_step active stepped, ran, List.append_assoc]

/-- What every step keeps of the tokens so far and the scanner holds wherever the
scanner comes. -/
theorem kept {Holds : List Token → Scanner → Prop}
    (step : ∀ {tokens : List Token} {scanner next : Scanner} {lexemes : List Lexeme},
      Holds tokens scanner → scanner.step = .ok (next, lexemes) →
        Holds (tokens ++ lexemes.map Lexeme.token) next)
    {earlier : List Token} (holds : Holds earlier scanner) (reaches : Reaches scanner first last) :
    Holds (earlier ++ first) last := by
  induction reaches generalizing earlier with
  | refl scanner =>
      rw [List.append_nil]
      exact holds
  | step active stepped later ih =>
      rw [← List.append_assoc]
      exact ih (step holds stepped)

end Reaches

/-- A run ends where the scanner is done, or where its next step fails. -/
theorem reaches_run (scanner : Scanner) :
    ∃ last, Reaches scanner (scanner.run.1.map Lexeme.token) last ∧
      (scanner.run.2 = none → last.mode = .done) ∧
      ∀ fault, scanner.run.2 = some fault → last.step = .error fault := by
  fun_induction run scanner with
  | case1 scanner finished => exact ⟨scanner, .refl scanner, fun _ => finished, by simp⟩
  | case2 scanner active fault failed =>
      refine ⟨scanner, .refl scanner, by simp, ?_⟩
      intro same found
      cases found
      exact failed
  | case3 scanner active next lexemes stepped others ih =>
      obtain ⟨last, reaches, finished, failed⟩ := ih
      refine ⟨last, ?_, finished, failed⟩
      rw [List.map_append]
      exact .step active stepped reaches

/-! ### Evaluating a run -/

/-- A run that may take so many steps; unlike `run` it can be evaluated. -/
def runWithin : Nat → Scanner → Option (List Lexeme × Option Fault)
  | 0, _ => none
  | steps + 1, scanner =>
      if scanner.mode = .done then some ([], none)
      else
        match scanner.step with
        | .error fault => some ([], some fault)
        | .ok (next, lexemes) =>
            (runWithin steps next).map fun others => (lexemes ++ others.1, others.2)

theorem run_of_runWithin {steps : Nat} {scanner : Scanner}
    {result : List Lexeme × Option Fault} (ran : runWithin steps scanner = some result) :
    scanner.run = result := by
  induction steps generalizing scanner result with
  | zero => contradiction
  | succ steps ih =>
      unfold runWithin at ran
      split at ran
      · rename_i finished
        cases ran
        exact run_of_done finished
      · rename_i active
        split at ran
        · rename_i fault failed
          cases ran
          exact run_of_step_error active failed
        · rename_i next lexemes stepped
          obtain ⟨others, later, rfl⟩ := Option.map_eq_some_iff.mp ran
          rw [run_of_step active stepped, ih later]

end Scanner

theorem tokenize_eq_ok_iff {text : Text} {lexemes : List Lexeme} :
    tokenize text = .ok lexemes ↔
      ∃ source, Source.ofText text = .ok source ∧ source.lexemes = (lexemes, none) := by
  unfold tokenize
  cases Source.ofText text with
  | error fault => simp
  | ok source =>
      cases ran : source.lexemes with
      | mk found broken =>
          cases broken with
          | none => simp [ran]
          | some fault => simp [ran]

/-- The lexemes of a text whose scanner takes at most so many steps. -/
theorem tokenize_of_runWithin (steps : Nat) {text : Text} {lexemes : List Lexeme}
    (ran : (Source.ofText text).toOption.bind
      (fun source => (Scanner.ofSource source).runWithin steps) = some (lexemes, none)) :
    tokenize text = .ok lexemes := by
  cases loaded : Source.ofText text with
  | error fault =>
      rw [loaded] at ran
      contradiction
  | ok source =>
      rw [loaded] at ran
      exact tokenize_eq_ok_iff.mpr ⟨source, loaded, Scanner.run_of_runWithin ran⟩

end Stencil
