import Stencil.Layout

/-! The lines that a render has written so far, and the level of the next one. -/

namespace Stencil

structure Output where
  lines : List Text
  levels : Levels
  unit : Nat
  deriving DecidableEq, Repr

namespace Output

def ofLayout (layout : Layout) : Output where
  lines := []
  levels := Levels.ofBase layout.baseColumn
  unit := layout.indentWidth

/-- A line at a column; empty lines stay empty. -/
def place (column : Nat) (line : Text) : Text :=
  if line.isEmpty then [] else Text.spaces column ++ line

/-- Writes text at the current level.  Every line of it is placed, and one newline
at its end opens no further line. -/
def emit (text : Text) (output : Output) : Output :=
  { output with
    lines := output.lines ++
      text.dropFinalNewline.pieces.map (place output.levels.current) }

def blank (output : Output) : Output :=
  { output with lines := output.lines ++ [[]] }

def indent (output : Output) : Output :=
  { output with levels := output.levels.pushBy output.unit }

def dedent (output : Output) : Output :=
  { output with levels := output.levels.pop.2 }

def depth (output : Output) : Nat :=
  output.levels.depth

def text (output : Output) : Text :=
  ['\n'].intercalate output.lines

end Output

end Stencil
