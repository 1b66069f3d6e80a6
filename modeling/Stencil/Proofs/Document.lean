import Stencil.Layout
import Stencil.Markup.Profile
import Stencil.Proofs.Names

/-! Documents and the two ways to write them down.

A document is a forest of elements and texts.  As a template it is written with one
node to a line, each a step deeper than its parent.  As markup it is written with
the lines of every element between its opening and its closing line.  The parts of a
document carry what makes both forms possible: names are names, values and texts
stay within a line, and no text ends in blank characters. -/

namespace Stencil
namespace Document

/-! ### Documents -/

structure Name where
  text : Text
  named : isName text = true

theorem Name.exists_start (name : Name) :
    ∃ first rest, name.text = first :: rest ∧ isNameStart first = true := by
  obtain ⟨text, named⟩ := name
  cases text with
  | nil => contradiction
  | cons first rest =>
      rw [isName_cons, Bool.and_eq_true] at named
      exact ⟨first, rest, rfl, named.1⟩

def isInline (character : Char) : Bool :=
  character ≠ '\r' && character ≠ '\n' && !Source.isDisallowed character

structure Line where
  text : Text
  inline : text.all isInline = true

theorem Line.newline_not_mem (line : Line) : '\n' ∉ line.text := by
  intro member
  have inline := List.all_eq_true.mp line.inline '\n' member
  revert inline
  decide

theorem Line.return_not_mem (line : Line) : '\r' ∉ line.text := by
  intro member
  have inline := List.all_eq_true.mp line.inline '\r' member
  revert inline
  decide

theorem Line.allowed (line : Line) :
    ∀ character ∈ line.text, Source.isDisallowed character = false := by
  intro character member
  have inline := List.all_eq_true.mp line.inline character member
  simp only [isInline, Bool.and_eq_true, Bool.not_eq_true'] at inline
  exact inline.2

structure Attributes where
  entries : List (Name × Line)
  distinct : (entries.map fun entry => entry.1.text).Nodup

/-- A line of text that does not end in a blank character. -/
structure Content extends Line where
  trimmed : text.getLast?.all (fun last => !Text.isBlank last) = true

theorem Content.trimEnd_eq (content : Content) : Text.trimEnd content.text = content.text := by
  have trimmed := content.trimmed
  rcases List.eq_nil_or_concat content.text with empty | ⟨before, last, ends⟩
  · rw [empty]
    rfl
  · rw [List.concat_eq_append] at ends
    simp only [ends, List.getLast?_concat, Option.all_some, Bool.not_eq_true'] at trimmed
    rw [ends, Text.trimEnd, List.reverse_concat, List.dropWhile_cons_of_neg (by simp [trimmed])]
    simp

/-- An element with its children, or a line of text. -/
inductive Tree where
  | element (tag : Name) (attributes : Attributes) (children : List Tree)
  | text (content : Content)

/-- Induction over a forest: the first node is a text, or an element with a forest
of children. -/
theorem forest_induction {motive : List Tree → Prop} (nil : motive [])
    (text : ∀ content others, motive others → motive (.text content :: others))
    (element : ∀ tag attributes children others, motive children → motive others →
      motive (.element tag attributes children :: others)) : ∀ forest, motive forest
  | [] => nil
  | .text content :: others => text content others (forest_induction nil text element others)
  | .element tag attributes children :: others =>
      element tag attributes children others (forest_induction nil text element children)
        (forest_induction nil text element others)

/-! ### As a template -/

inductive Node where
  | element (tag : Name) (attributes : Attributes)
  | text (content : Content)

mutual

/-- The nodes of a tree, each with its depth and in front of its children. -/
def outline (depth : Nat) : Tree → List (Nat × Node)
  | .element tag attributes children =>
      (depth, .element tag attributes) :: outlineAll (depth + 1) children
  | .text content => [(depth, .text content)]

def outlineAll (depth : Nat) : List Tree → List (Nat × Node)
  | [] => []
  | tree :: others => outline depth tree ++ outlineAll depth others

end

/-- A value between double quotes: a backslash stands in front of every backslash
and every double quote. -/
def quoted (value : Text) : Text :=
  value.flatMap fun character =>
    if character = '\\' ∨ character = '\x22' then ['\\', character] else [character]

theorem quoted_cons (character : Char) (rest : Text) :
    quoted (character :: rest) =
      (if character = '\\' ∨ character = '\x22' then ['\\', character] else [character]) ++
        quoted rest :=
  List.flatMap_cons

def assignment (entry : Name × Line) : Text :=
  entry.1.text ++ "=\x22".toList ++ quoted entry.2.text ++ ['\x22']

def Attributes.source (attributes : Attributes) : Text :=
  if attributes.entries.isEmpty then []
  else '(' :: [' '].intercalate (attributes.entries.map assignment) ++ [')']

def Node.source : Node → Text
  | .element tag attributes => '%' :: tag.text ++ attributes.source
  | .text content => '\\' :: content.text

def sourceLine (step : Nat) (entry : Nat × Node) : Text :=
  Text.spaces (entry.1 * step) ++ entry.2.source

def sourceLines (step : Nat) (forest : List Tree) : List Text :=
  (outlineAll 0 forest).map (sourceLine step)

def source (terminated : Bool) (step : Nat) (forest : List Tree) : Text :=
  if terminated then (sourceLines step forest).flatMap fun line => line ++ ['\n']
  else ['\n'].intercalate (sourceLines step forest)

/-! ### As markup -/

def Attributes.markup (attributes : Attributes) : Text :=
  attributes.entries.flatMap fun entry =>
    ' ' :: entry.1.text ++ "=\x22".toList ++ Markup.escapeAttribute entry.2.text ++ ['\x22']

def indented (layout : Layout) (level : Nat) (line : Text) : Text :=
  if line.isEmpty then []
  else Text.spaces ((layout.baseIndent + level) * layout.indentWidth) ++ line

mutual

def markupLines (layout : Layout) (level : Nat) : Tree → List Text
  | .element tag attributes children =>
      if children.isEmpty then
        [indented layout level ('<' :: tag.text ++ attributes.markup ++ "/>".toList)]
      else
        indented layout level ('<' :: tag.text ++ attributes.markup ++ ['>']) ::
          markupLinesAll layout (level + 1) children ++
            [indented layout level ("</".toList ++ tag.text ++ ['>'])]
  | .text content => [indented layout level (Markup.escapeText content.text)]

def markupLinesAll (layout : Layout) (level : Nat) : List Tree → List Text
  | [] => []
  | tree :: others => markupLines layout level tree ++ markupLinesAll layout level others

end

def markup (layout : Layout) (forest : List Tree) : Text :=
  ['\n'].intercalate (markupLinesAll layout 0 forest)

/-! ### Tokens of a document -/

def Node.tokens : Node → List Token
  | .element tag attributes =>
      .element tag.text ::
        attributes.entries.map fun entry => .literalAttribute entry.1.text entry.2.text
  | .text content => [.content content.text]

mutual

/-- The tokens of a tree: an element stands in front of the level of its children. -/
def tokens : Tree → List Token
  | .element tag attributes children =>
      (Node.element tag attributes).tokens ++
        if children.isEmpty then [] else .indent :: tokensAll children ++ [.dedent]
  | .text content => (Node.text content).tokens

def tokensAll : List Tree → List Token
  | [] => []
  | tree :: others => tokens tree ++ tokensAll others

end

/-- The tokens between a line and the next. -/
def crossing (previous depth : Nat) : List Token :=
  if previous < depth then [.indent] else List.replicate (previous - depth) .dedent

def lineTokens (previous : Nat) : List (Nat × Node) → List Token
  | [] => List.replicate previous .dedent
  | (depth, node) :: others => crossing previous depth ++ node.tokens ++ lineTokens depth others

/-- Lines that go at most one level deeper than the line before. -/
def Stepwise (previous : Nat) : List (Nat × Node) → Prop
  | [] => True
  | (depth, _) :: others => depth ≤ previous + 1 ∧ Stepwise depth others

/-- Lines of which the first is not deeper than the given depth. -/
def Returns (depth : Nat) (lines : List (Nat × Node)) : Prop :=
  ∀ line ∈ lines.head?, line.1 ≤ depth

theorem Returns.deeper {depth : Nat} {lines : List (Nat × Node)} (returns : Returns depth lines) :
    Returns (depth + 1) lines :=
  fun line first => Nat.le_succ_of_le (returns line first)

theorem returns_outlineAll {depth : Nat} {others : List (Nat × Node)} (forest : List Tree)
    (returns : Returns depth others) : Returns depth (outlineAll depth forest ++ others) := by
  cases forest with
  | nil => exact returns
  | cons tree siblings =>
      cases tree with
      | element tag attributes children => simp [Returns, outlineAll, outline]
      | text content => simp [Returns, outlineAll, outline]

theorem stepwise_of_returns {previous depth : Nat} {lines : List (Nat × Node)}
    (returns : Returns (previous + 1) lines) (stepwise : Stepwise depth lines) :
    Stepwise previous lines := by
  cases lines with
  | nil => trivial
  | cons line others => exact ⟨returns line rfl, stepwise.2⟩

theorem stepwise_outlineAll {depth : Nat} {others : List (Nat × Node)} (forest : List Tree)
    (returns : Returns depth others) (stepwise : Stepwise depth others) :
    Stepwise depth (outlineAll depth forest ++ others) := by
  induction forest using forest_induction generalizing depth others with
  | nil => exact stepwise
  | text content siblings ih => exact ⟨by omega, ih returns stepwise⟩
  | element tag attributes children siblings ihChildren ihSiblings =>
      -- Behind the children the lines may return by any number of levels.
      have later := ihSiblings returns stepwise
      have laterReturns := returns_outlineAll siblings returns
      have inside := ihChildren laterReturns.deeper
        (stepwise_of_returns laterReturns.deeper.deeper later)
      simp only [outlineAll, outline, List.cons_append, List.append_assoc]
      exact ⟨by omega, stepwise_of_returns (returns_outlineAll children laterReturns.deeper) inside⟩

theorem crossing_self (depth : Nat) : crossing depth depth = [] := by
  simp [crossing]

theorem lineTokens_deeper {depth : Nat} {children : List Tree} (others : List (Nat × Node))
    (given : children ≠ []) :
    lineTokens depth (outlineAll (depth + 1) children ++ others) =
      .indent :: lineTokens (depth + 1) (outlineAll (depth + 1) children ++ others) := by
  have opens : crossing depth (depth + 1) = [.indent] := by simp [crossing]
  cases children with
  | nil => contradiction
  | cons tree siblings =>
      cases tree with
      | element tag attributes inner =>
          simp [outlineAll, outline, lineTokens, opens, crossing_self]
      | text content => simp [outlineAll, outline, lineTokens, opens, crossing_self]

theorem lineTokens_return {depth : Nat} {lines : List (Nat × Node)}
    (returns : Returns depth lines) :
    lineTokens (depth + 1) lines = .dedent :: lineTokens depth lines := by
  cases lines with
  | nil => rfl
  | cons line others =>
      obtain ⟨level, node⟩ := line
      have higher : level ≤ depth := returns _ rfl
      have closes : crossing (depth + 1) level = .dedent :: crossing depth level := by
        rw [crossing, crossing, if_neg (by omega), if_neg (by omega), Nat.succ_sub higher,
          List.replicate_succ]
      simp [lineTokens, closes]

theorem lineTokens_outlineAll {depth : Nat} {others : List (Nat × Node)} (forest : List Tree)
    (returns : Returns depth others) :
    lineTokens depth (outlineAll depth forest ++ others) =
      tokensAll forest ++ lineTokens depth others := by
  induction forest using forest_induction generalizing depth others with
  | nil => rfl
  | text content siblings ih =>
      simp [outlineAll, outline, lineTokens, crossing_self, tokensAll, tokens, ih returns]
  | element tag attributes children siblings ihChildren ihSiblings =>
      have laterReturns := returns_outlineAll siblings returns
      simp only [outlineAll, outline, List.cons_append, List.append_assoc, lineTokens,
        crossing_self, tokensAll, tokens, List.nil_append]
      congr 1
      -- Without children no level is opened, and the next line does not close one.
      by_cases given : children = []
      · subst given
        exact ihSiblings returns
      · rw [lineTokens_deeper _ given, ihChildren laterReturns.deeper,
          lineTokens_return laterReturns, ihSiblings returns]
        simp [given]

end Document
end Stencil
