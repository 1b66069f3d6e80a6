import Stencil.Snippet.Basic
import Stencil.Snippet.Piece

/-! The structure of a snippet: its tags open and close loops and choices. -/

namespace Stencil
namespace Snippet

open Expression

/-! ### Tags -/

inductive Tag where
  | assign (name : Text) (value : Expr)
  | whether (condition : Expr)
  | otherwiseWhether (condition : Expr)
  | otherwise
  | endWhether
  | each (name : Text) (range : Expr) (guard : Option Expr)
  | endEach
  deriving Repr

def reservedNames : List Text :=
  ["true".toList, "True".toList, "false".toList, "False".toList, "none".toList, "None".toList,
    "loop".toList, "self".toList]

def parseEach (name : Text) (words : List Word) : Except Flaw Tag :=
  match parseUnconditional words with
  | .error flaw => .error flaw
  | .ok (range, []) => .ok (.each name range none)
  | .ok (range, keyword :: rest) =>
      if keyword.isKeyword "if" then
        (parseAll rest).map fun guard => .each name range (some guard)
      else .error .malformed

def plainTag (tag : Tag) (words : List Word) : Except Flaw Tag :=
  if words.isEmpty then .ok tag else .error .malformed

def parseTag : List Word → Except Flaw Tag
  | .name keyword :: words =>
      match String.ofList keyword, words with
      | "set", .name name :: .sign .assign :: value =>
          if name ∈ reservedNames then .error .malformed
          else (parseAll value).map (.assign name)
      | "if", condition => (parseAll condition).map .whether
      | "elif", condition => (parseAll condition).map .otherwiseWhether
      | "else", rest => plainTag .otherwise rest
      | "endif", rest => plainTag .endWhether rest
      | "for", .name name :: second :: rest =>
          if name ∈ reservedNames then .error .malformed
          else if second.isKeyword "in" then parseEach name rest
          else .error .malformed
      | "endfor", rest => plainTag .endEach rest
      | _, _ => .error .malformed
  | _ => .error .malformed

/-! ### Blocks -/

inductive Opening where
  | choice (condition : Expr)
  | loop (name : Text) (range : Expr) (guard : Option Expr)
  deriving Repr

structure Block where
  opening : Opening
  /-- The block stands for the rest of the choice around it and ends with it. -/
  chained : Bool
  /-- The parts before the block, last first. -/
  before : List Snippet
  /-- The body, once what follows `else` has begun. -/
  body : Option (List Snippet)
  deriving Repr

/-- A snippet that is being read: the open blocks, innermost first, and the parts of
the innermost one, last first. -/
structure Builder where
  blocks : List Block := []
  parts : List Snippet := []

def Block.closed (block : Block) (parts : List Snippet) : Snippet :=
  let body := block.body.getD parts
  let otherwise := if block.body.isSome then parts else []
  match block.opening with
  | .choice condition => .choice condition body otherwise
  | .loop name range guard => .loop name range guard body otherwise

namespace Builder

def add (builder : Builder) (part : Snippet) : Builder :=
  { builder with parts := part :: builder.parts }

def enter (builder : Builder) (opening : Opening) : Builder :=
  { blocks := { opening := opening, chained := false, before := builder.parts, body := none } ::
      builder.blocks }

def turn (builder : Builder) : Except Flaw Builder :=
  match builder.blocks with
  | [] => .error .malformed
  | block :: others =>
      if block.body.isSome then .error .malformed
      else .ok { blocks := { block with body := some builder.parts.reverse } :: others }

/-- Closes the innermost choice and those it is chained to. -/
def leaveChoice (parts : List Snippet) : List Block → Except Flaw Builder
  | [] => .error .malformed
  | block :: others =>
      match block.opening with
      | .loop _ _ _ => .error .malformed
      | .choice _ =>
          let outer := block.closed parts.reverse :: block.before
          if block.chained then leaveChoice outer others
          else .ok { blocks := others, parts := outer }

def leaveLoop (builder : Builder) : Except Flaw Builder :=
  match builder.blocks with
  | [] => .error .malformed
  | block :: others =>
      match block.opening with
      | .choice _ => .error .malformed
      | .loop _ _ _ =>
          .ok { blocks := others, parts := block.closed builder.parts.reverse :: block.before }

/-- Goes on with another condition in place of the innermost choice. -/
def chain (builder : Builder) (condition : Expr) : Except Flaw Builder :=
  match builder.blocks with
  | { opening := .choice _, .. } :: _ =>
      match builder.turn with
      | .error flaw => .error flaw
      | .ok turned =>
          .ok { blocks := { opening := .choice condition, chained := true, before := [],
                            body := none } :: turned.blocks }
  | _ => .error .malformed

def pushTag (builder : Builder) : Tag → Except Flaw Builder
  | .assign name value => .ok (builder.add (.assign name value))
  | .whether condition => .ok (builder.enter (.choice condition))
  | .otherwiseWhether condition => builder.chain condition
  | .otherwise => builder.turn
  | .endWhether => leaveChoice builder.parts builder.blocks
  | .each name range guard => .ok (builder.enter (.loop name range guard))
  | .endEach => builder.leaveLoop

def push (builder : Builder) : Piece → Except Flaw Builder
  | .text written => .ok (builder.add (.text written))
  | .print words => (parseAll words).map fun value => builder.add (.print value)
  | .tag words =>
      match parseTag words with
      | .error flaw => .error flaw
      | .ok tag => builder.pushTag tag

def pushAll (builder : Builder) : List Piece → Except Flaw Builder
  | [] => .ok builder
  | piece :: others =>
      match builder.push piece with
      | .error flaw => .error flaw
      | .ok next => pushAll next others

end Builder

def parse (text : Text) : Except Flaw (List Snippet) :=
  match pieces text with
  | .error flaw => .error flaw
  | .ok found =>
      match Builder.pushAll {} found with
      | .error flaw => .error flaw
      | .ok builder => if builder.blocks.isEmpty then .ok builder.parts.reverse
          else .error .malformed

end Snippet
end Stencil
