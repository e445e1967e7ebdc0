import Stencil.Segment.Basic

/-!
# Instructions of a template

What a template does, step by step: emit a text, emit the value of an expression, or run a statement.
A directive becomes one instruction, together with the white space around it unless it is a statement
on a line of its own. A comment is emitted as the line breaks it holds.
-/

namespace Stencil

/-- One step of a template, with its line. -/
inductive Instruction where
  | emitText (text : Text) (line : Int)
  | emitExpr (code : Text) (escaped : Bool) (line : Int)
  | runStatement (code : Text) (line : Int)
  deriving Repr, DecidableEq

/-- The instruction to emit a text, unless the text is missing or empty. -/
def Instruction.ofSpace (space : Option Text) (line : Int) : List Instruction :=
  match space with
  | none | some [] => []
  | some t => [.emitText t line]

/-- What a directive does, white space aside. -/
def Directive.core (d : Directive) : List Instruction :=
  match d.kind with
  | .statement => [.runStatement d.code d.line]
  | .escapedExpr => [.emitExpr d.code true d.line]
  | .rawExpr => [.emitExpr d.code false d.line]
  | .comment =>
    match Text.breaks d.code with
    | 0 => []
    | n => [.emitText (List.replicate n '\n') d.line]

/-- Whether the white space around a directive is dropped. -/
def Directive.trims (d : Directive) : Bool :=
  d.kind = .statement && d.ownsLine

/-- The instructions of a directive. -/
def Directive.instructions (d : Directive) : List Instruction :=
  if d.trims then d.core
  else
    Instruction.ofSpace d.lspace d.line ++ d.core ++
      Instruction.ofSpace d.rspace (d.line + Text.breaks d.code)

/-- The instructions of a segment. -/
def Segment.instructions : Segment → List Instruction
  | literal t line => [.emitText t line]
  | directive d => d.instructions

/-- The instructions of a template. -/
def Instruction.ofSegments (segments : List Segment) : List Instruction :=
  segments.flatMap Segment.instructions

end Stencil
