import Stencil.Levels

/-! Layout options of a rendered document. -/

namespace Stencil

structure Layout where
  indentWidth : Nat := 2
  baseIndent : Nat := 0
  deriving DecidableEq, Repr

namespace Layout

def baseColumn (layout : Layout) : Nat :=
  layout.baseIndent * layout.indentWidth

def describe (layout : Layout) : String :=
  "Compiler \x7b options: CompileOptions \x7b indent_width: " ++
    String.ofList (Text.decimal layout.indentWidth) ++ ", base_indent: " ++
    String.ofList (Text.decimal layout.baseIndent) ++ " \x7d, .. \x7d"

end Layout

end Stencil
