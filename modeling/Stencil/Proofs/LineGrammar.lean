import Mathlib.Data.List.Chain
import Mathlib.Data.List.DropRight
import Stencil.Proofs.Names
import Stencil.Proofs.OpenLevels

/-! The tokens of a template stand in lines.

A line opens a level or closes some, may have a blank line in front of it, and holds one
construct.  After every step of a scanner the tokens so far are whole lines and, depending
on its mode, the beginning of a further one.  Two comments never stand side by side: a
comment takes every line that would go on with it, so the next one stands behind a blank
line or on another level. -/

namespace Stencil

namespace Text

theorem trimEnd_trimEnd (text : Text) : trimEnd (trimEnd text) = trimEnd text :=
  List.rdropWhile_idempotent isBlank text

theorem trimStart_trim (text : Text) : trimStart (trim text) = trim text := by
  have kept : trim text <+: trimStart text := List.rdropWhile_prefix isBlank (trimStart text)
  cases trimmed : trim text with
  | nil => rfl
  | cons first rest =>
      rw [trimmed] at kept
      obtain ⟨after, whole⟩ := kept
      have visible := List.head?_dropWhile_not isBlank text
      unfold trimStart at whole
      rw [← whole] at visible
      exact List.dropWhile_cons_of_neg (by simpa using visible)

theorem trim_trim (text : Text) : trim (trim text) = trim text := by
  rw [trim, trimStart_trim]
  exact trimEnd_trimEnd (trimStart text)

end Text

/-! ### The grammar -/

namespace LineGrammar

def IsCode (code : Text) : Prop :=
  code ≠ [] ∧ Text.trim code = code

def AreAttributes (tokens : List Token) : Prop :=
  ∀ token ∈ tokens, token.kind = .anyAttribute ∧ token.Named

/-- An element up to the end of its attributes. -/
inductive IsElement : List Token → Prop
  | tagged {tag : Text} {attributes : List Token} (named : isName tag = true)
      (given : AreAttributes attributes) : IsElement (.element tag :: attributes)

/-- What may follow the attributes of an element on its line. -/
inductive IsEnding : List Token → Prop
  | nothing : IsEnding []
  | selfClose : IsEnding [.selfClose]
  | contentAfter (text : Text) : IsEnding [.selfClose, .content text]
  | data (text : Text) : IsEnding [.data text]
  | codeData {code : Text} (escape : Bool) (given : IsCode code) :
      IsEnding [.codeData code escape]

inductive IsConstruct : List Token → Prop
  | element {start ending : List Token} (begins : IsElement start) (ends : IsEnding ending) :
      IsConstruct (start ++ ending)
  | content (text : Text) : IsConstruct [.content text]
  | codeContent {code : Text} (escape : Bool) (given : IsCode code) :
      IsConstruct [.codeContent code escape]
  | comment (first : Text) (others : List Text) : IsConstruct [.comment (first :: others)]
  | directive (kind : Text) (attributes : List (Text × Text)) :
      IsConstruct (.directive kind ::
        attributes.map fun entry => .literalAttribute entry.1 entry.2)
  | filter (name : Text) (lines : List Text) : IsConstruct [.filter name lines]
  | rawCode {code : Text} (given : IsCode code) : IsConstruct [.rawCode code]

inductive IsOpening : List Token → Prop
  | indent : IsOpening [.indent]
  | dedents (count : Nat) : IsOpening (List.replicate count .dedent)

inductive IsLead : List Token → Prop
  | close {opening : List Token} (opens : IsOpening opening) : IsLead opening
  | spaced {opening : List Token} (opens : IsOpening opening) : IsLead (opening ++ [.blankLine])

inductive IsLine : List Token → Prop
  | mk {lead construct : List Token} (leads : IsLead lead) (given : IsConstruct construct) :
      IsLine (lead ++ construct)

/-- Lines, of which the first has no blank line in front of it. -/
def AreLines (lines : List (List Token)) : Prop :=
  (∀ line ∈ lines, IsLine line) ∧ ∀ first ∈ lines.head?, Token.blankLine ∉ first

/-- No two comments stand side by side. -/
def CommentsApart (tokens : List Token) : Prop :=
  tokens.IsChain fun first second => ¬(first.kind = .comment ∧ second.kind = .comment)

/-- Lines, and then the end of the levels that are still open. -/
structure IsTemplate (tokens : List Token) : Prop where
  lines : ∃ lines closed, AreLines lines ∧
    tokens = lines.flatten ++ List.replicate closed .dedent
  apart : CommentsApart tokens

/-! ### Kinds of tokens -/

theorem IsElement.ne_nil {tokens : List Token} (element : IsElement tokens) : tokens ≠ [] := by
  cases element
  simp

theorem IsElement.append {tokens attributes : List Token} (element : IsElement tokens)
    (given : AreAttributes attributes) : IsElement (tokens ++ attributes) := by
  cases element with
  | tagged named earlier =>
      refine .tagged named ?_
      intro token member
      rcases List.mem_append.mp member with early | late
      · exact earlier token early
      · exact given token late

theorem IsConstruct.ne_nil {tokens : List Token} (construct : IsConstruct tokens) :
    tokens ≠ [] := by
  cases construct with
  | element begins ends =>
      intro empty
      exact begins.ne_nil (List.append_eq_nil_iff.mp empty).1
  | _ => simp

private theorem isStructural_of_kind {token : Token} (isAttribute : token.kind = .anyAttribute) :
    token.isStructural = false := by
  cases token <;> first | rfl | contradiction

theorem IsElement.plain {tokens : List Token} (element : IsElement tokens) :
    ∀ token ∈ tokens, token.isStructural = false ∧ token.kind ≠ .comment := by
  cases element with
  | tagged named given =>
      refine List.forall_mem_cons.mpr ⟨⟨rfl, by simp [Token.kind]⟩, ?_⟩
      intro token member
      have isAttribute := (given token member).1
      exact ⟨isStructural_of_kind isAttribute, by simp [isAttribute]⟩

theorem IsEnding.plain {tokens : List Token} (ending : IsEnding tokens) :
    ∀ token ∈ tokens, token.isStructural = false ∧ token.kind ≠ .comment := by
  cases ending <;> simp [Token.isStructural, Token.kind]

theorem IsConstruct.plain {tokens : List Token} (construct : IsConstruct tokens) :
    ∀ token ∈ tokens, token.isStructural = false := by
  cases construct with
  | element begins ends =>
      intro token member
      rcases List.mem_append.mp member with early | late
      · exact (begins.plain token early).1
      · exact (ends.plain token late).1
  | directive kind attributes =>
      refine List.forall_mem_cons.mpr ⟨rfl, ?_⟩
      intro token member
      obtain ⟨entry, -, rfl⟩ := List.mem_map.mp member
      rfl
  | _ => simp [Token.isStructural]

theorem IsOpening.plain {tokens : List Token} (opening : IsOpening tokens) :
    ∀ token ∈ tokens, token ≠ .blankLine ∧ token.kind ≠ .comment := by
  cases opening with
  | indent => simp [Token.kind]
  | dedents count =>
      intro token member
      rw [List.eq_of_mem_replicate member]
      simp [Token.kind]

theorem IsLead.plain {tokens : List Token} (lead : IsLead tokens) :
    ∀ token ∈ tokens, token.kind ≠ .comment := by
  cases lead with
  | close opens => exact fun token member => (opens.plain token member).2
  | spaced opens =>
      intro token member
      rcases List.mem_append.mp member with early | late
      · exact (opens.plain token early).2
      · rw [List.mem_singleton.mp late]
        simp [Token.kind]

/-! ### Comments side by side -/

theorem CommentsApart.append_plain {first second : List Token} (apart : CommentsApart first)
    (plain : ∀ token ∈ second, token.kind ≠ .comment) : CommentsApart (first ++ second) := by
  refine List.isChain_append.mpr ⟨apart, ?_, ?_⟩
  · induction second with
    | nil => exact .nil
    | cons token others ih =>
        refine List.isChain_cons.mpr ⟨?_, ih fun other member => plain other (by simp [member])⟩
        rintro other - ⟨comment, -⟩
        exact plain token (by simp) comment
  · rintro last - token next ⟨-, comment⟩
    exact plain token (List.mem_of_mem_head? next) comment

theorem CommentsApart.plain_append {first second : List Token}
    (plain : ∀ token ∈ first, token.kind ≠ .comment) (apart : CommentsApart second) :
    CommentsApart (first ++ second) := by
  induction first with
  | nil => exact apart
  | cons token others ih =>
      refine List.isChain_cons.mpr ⟨?_, ih fun other member => plain other (by simp [member])⟩
      rintro other - ⟨comment, -⟩
      exact plain token (by simp) comment

theorem IsConstruct.apart {tokens : List Token} (construct : IsConstruct tokens) :
    CommentsApart tokens := by
  cases construct with
  | element begins ends =>
      refine CommentsApart.plain_append (fun token member => (begins.plain token member).2) ?_
      have nothing : CommentsApart [] := .nil
      exact nothing.append_plain fun token member => (ends.plain token member).2
  | directive kind attributes =>
      have alone : CommentsApart [.directive kind] := .singleton _
      refine alone.append_plain ?_
      intro token member
      obtain ⟨entry, -, rfl⟩ := List.mem_map.mp member
      simp [Token.kind]
  | _ => exact .singleton _

/-! ### Whole lines and the beginning of a line -/

def Whole (tokens : List Token) : Prop :=
  ∃ lines, AreLines lines ∧ tokens = lines.flatten

/-- A line has begun behind whole lines, and its construct follows. -/
structure Led (before lead : List Token) : Prop where
  whole : Whole before
  leads : IsLead lead
  first : before = [] → Token.blankLine ∉ lead

theorem Led.construct {before lead construct : List Token} (led : Led before lead)
    (given : IsConstruct construct) : Whole (before ++ (lead ++ construct)) := by
  obtain ⟨lines, ⟨each, first⟩, rfl⟩ := led.whole
  refine ⟨lines ++ [lead ++ construct], ⟨?_, ?_⟩, by simp⟩
  · intro line member
    rcases List.mem_append.mp member with early | late
    · exact each line early
    · rw [List.mem_singleton.mp late]
      exact .mk led.leads given
  · cases lines with
    | nil =>
        have unspaced := led.first rfl
        simp only [List.nil_append, List.head?_cons, Option.mem_some_iff, forall_eq']
        intro member
        rcases List.mem_append.mp member with early | late
        · exact unspaced early
        · have structural := given.plain _ late
          contradiction
    | cons line others => exact first

/-- What was yielded when a scanner reads on in a mode. -/
def Yielded (tokens : List Token) : Mode → Prop
  | .lineStart | .indentation => Whole tokens
  | .pieces _ | .data =>
      ∃ before lead start, tokens = before ++ (lead ++ start) ∧ Led before lead ∧ IsElement start
  | .filterBody _ _ _ => ∃ before lead, tokens = before ++ lead ∧ Led before lead
  | .done => ∃ before closed, tokens = before ++ List.replicate closed .dedent ∧ Whole before

/-- What a construct yields when it leaves the scanner in a mode. -/
def Begins (tokens : List Token) : Mode → Prop
  | .lineStart => IsConstruct tokens
  | .pieces _ => IsElement tokens
  | .filterBody _ _ _ => tokens = []
  | _ => False

/-- What a part of an element yields when it leaves the scanner in a mode. -/
def Extends (tokens : List Token) : Mode → Prop
  | .lineStart => IsEnding tokens
  | .pieces _ => AreAttributes tokens
  | .data => tokens = []
  | _ => False

theorem Begins.of_nil {mode : Mode} (begins : Begins [] mode) :
    ∃ name line width, mode = .filterBody name line width := by
  cases mode with
  | lineStart => exact absurd rfl (IsConstruct.ne_nil begins)
  | pieces parentheses => exact absurd rfl (IsElement.ne_nil begins)
  | filterBody name line width => exact ⟨name, line, width, rfl⟩
  | _ => exact begins.elim

theorem Begins.apart {tokens : List Token} {mode : Mode} (begins : Begins tokens mode) :
    CommentsApart tokens := by
  cases mode with
  | lineStart => exact IsConstruct.apart begins
  | pieces parentheses =>
      have nothing : CommentsApart [] := .nil
      exact nothing.append_plain fun token member => (IsElement.plain begins token member).2
  | filterBody name line width =>
      have nothing : tokens = [] := begins
      rw [nothing]
      exact .nil
  | _ => exact begins.elim

theorem Begins.plain {tokens : List Token} {mode : Mode} (begins : Begins tokens mode) :
    ∀ token ∈ tokens, token.isStructural = false := by
  intro token member
  cases mode with
  | lineStart => exact IsConstruct.plain begins token member
  | pieces parentheses => exact (IsElement.plain begins token member).1
  | filterBody name line width =>
      have nothing : tokens = [] := begins
      rw [nothing] at member
      contradiction
  | _ => exact begins.elim

theorem Extends.plain {tokens : List Token} {mode : Mode} (extension : Extends tokens mode) :
    ∀ token ∈ tokens, token.isStructural = false ∧ token.kind ≠ .comment := by
  intro token member
  cases mode with
  | lineStart => exact IsEnding.plain extension token member
  | pieces parentheses =>
      have isAttribute := (extension token member).1
      exact ⟨isStructural_of_kind isAttribute, by simp [isAttribute]⟩
  | data =>
      have nothing : tokens = [] := extension
      rw [nothing] at member
      contradiction
  | _ => exact extension.elim

theorem Led.begins {before lead tokens : List Token} {mode : Mode} (led : Led before lead)
    (begins : Begins tokens mode) : Yielded (before ++ (lead ++ tokens)) mode := by
  cases mode with
  | lineStart => exact led.construct begins
  | pieces parentheses => exact ⟨before, lead, tokens, rfl, led, begins⟩
  | filterBody name line width =>
      have nothing : tokens = [] := begins
      rw [nothing, List.append_nil]
      exact ⟨before, lead, rfl, led⟩
  | _ => exact begins.elim

theorem Led.extend {before lead start tokens : List Token} {mode : Mode}
    (led : Led before lead) (element : IsElement start) (extension : Extends tokens mode) :
    Yielded (before ++ (lead ++ start) ++ tokens) mode := by
  rw [List.append_assoc, List.append_assoc]
  cases mode with
  | lineStart => exact led.construct (.element element extension)
  | pieces parentheses => exact ⟨before, lead, _, rfl, led, element.append extension⟩
  | data =>
      have nothing : tokens = [] := extension
      rw [nothing, List.append_nil]
      exact ⟨before, lead, start, rfl, led, element⟩
  | _ => exact extension.elim

end LineGrammar

end Stencil
