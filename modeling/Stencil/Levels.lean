import Stencil.Text.Basic

/-! Indentation levels: a stack of widths over a base that is never closed.

The scanner keeps one to turn leading spaces into levels, and every render keeps
one to place the lines it writes. -/

namespace Stencil

/-- Open widths over a base width. -/
structure Levels where
  base : Nat
  /-- The widths of the open levels, innermost first. -/
  inner : List Nat
  deriving DecidableEq, Repr

namespace Levels

def ofBase (base : Nat) : Levels :=
  { base := base, inner := [] }

def current (levels : Levels) : Nat :=
  levels.inner.headD levels.base

def depth (levels : Levels) : Nat :=
  levels.inner.length

def widths (levels : Levels) : List Nat :=
  levels.base :: levels.inner.reverse

def compare (levels : Levels) (width : Nat) : Ordering :=
  Ord.compare width levels.current

def push (width : Nat) (levels : Levels) : Levels :=
  { levels with inner := width :: levels.inner }

def pushBy (unit : Nat) (levels : Levels) : Levels :=
  levels.push (levels.current + unit)

/-- Closes the innermost level and gives its width; the base stays. -/
def pop (levels : Levels) : Option Nat × Levels :=
  match levels.inner with
  | [] => (none, levels)
  | width :: others => (some width, { levels with inner := others })

def closeAbove (width : Nat) : List Nat → Nat × List Nat
  | [] => (0, [])
  | innermost :: others =>
      if width < innermost then
        let (closed, remaining) := closeAbove width others
        (closed + 1, remaining)
      else (0, innermost :: others)

/-- Closes every level wider than `width` and gives how many were closed, or
nothing if `width` is then not the innermost width. -/
def dedentTo (width : Nat) (levels : Levels) : Option Nat × Levels :=
  let (closed, remaining) := closeAbove width levels.inner
  let left := { levels with inner := remaining }
  (if left.current = width then some closed else none, left)

end Levels

end Stencil
