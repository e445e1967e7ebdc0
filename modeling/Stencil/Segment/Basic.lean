import Stencil.Text.Basic

/-!
# Segments of a template

A template is a sequence of segments: runs of literal text, and directives between `<%` and `%>`. A
segment keeps the line on which it starts, and a directive also keeps the white space around it that
belongs to its line.
-/

namespace Stencil

/-- The kinds of directive, told apart by the mark behind `<%`. -/
inductive DirectiveKind where
  /-- Code that is run for its effect. -/
  | statement
  /-- An expression whose value is escaped and emitted, behind `=`. -/
  | escapedExpr
  /-- An expression whose value is emitted as it is, behind `==`. -/
  | rawExpr
  /-- A remark, behind `#`. -/
  | comment
  deriving Repr, DecidableEq

/-- The mark behind `<%` that selects a kind. -/
def DirectiveKind.mark : DirectiveKind → Text
  | statement => []
  | escapedExpr => ['=']
  | rawExpr => ['=', '=']
  | comment => ['#']

/-- One directive. The code lacks at most one space at each end; `lspace` is the indentation when the
directive starts its line, `rspace` the gap and line break when it ends its line. -/
structure Directive where
  kind : DirectiveKind
  code : Text
  lspace : Option Text
  rspace : Option Text
  line : Int
  deriving Repr, DecidableEq

/-- Whether only gaps stand before a directive on its line. -/
def Directive.startsLine (d : Directive) : Bool := d.lspace.isSome

/-- Whether only gaps stand between a directive and the end of its line. -/
def Directive.endsLine (d : Directive) : Bool := d.rspace.isSome

/-- Whether a directive is alone on its line. -/
def Directive.ownsLine (d : Directive) : Bool := d.startsLine && d.endsLine

/-- A segment of a template. -/
inductive Segment where
  | literal (text : Text) (line : Int)
  | directive (d : Directive)
  deriving Repr, DecidableEq

end Stencil
