import VideoExport.Directive.Basic

/-!
# Building lists of directives

A list of directives is built from parts, each of which adds some, in order.

* `Part`, `Directive.ofParts`: the parts and what they add up to.
-/

namespace VideoExport

/-- A part of a list of directives. -/
inductive Part
  /-- One directive. -/
  | one (d : Directive)
  /-- A directive, if there is one. -/
  | maybe (d : Option Directive)
  /-- Several directives. -/
  | several (ds : List Directive)
  /-- Several directives, if a condition holds. -/
  | given (condition : Bool) (ds : List Directive)

/-- The directives that a part adds. -/
def Part.directives : Part → List Directive
  | one d => [d]
  | maybe d => d.toList
  | several ds => ds
  | given condition ds => if condition then ds else []

namespace Directive

/-- The directives that parts add up to. -/
def ofParts (parts : List Part) : List Directive := parts.flatMap Part.directives

end Directive

end VideoExport
