import Stencil.Expression.Basic

/-! Snippets: text with expressions, loops and choices in it. -/

namespace Stencil

inductive Snippet where
  | text (text : Text)
  | print (value : Expr)
  | assign (name : Text) (value : Expr)
  | choice (condition : Expr) (body otherwise : List Snippet)
  | loop (name : Text) (range : Expr) (guard : Option Expr) (body otherwise : List Snippet)
  deriving Repr

end Stencil
