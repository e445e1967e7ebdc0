import Stencil.Log
import Stencil.Settings
import Stencil.Segment.Scan
import Stencil.Program.Generate

/-!
# Compiling templates

A program is generated from instructions and checked as a script. A fault of the script is reported at
the template line that the line map gives for it.
-/

namespace Stencil

/-- A compiled template. The statements are missing from a program that was put together without being
checked. -/
structure Program where
  instructions : List Instruction
  source : Text
  name : String
  lineMap : LineMap
  body : Option (List Script.Stmt)

/-- The statements of a generated program. -/
def checkGenerated (source : Text) (name : String) (lineMap : LineMap) :
    Except CompileError (List Script.Stmt) :=
  match Script.check source with
  | .ok body => .ok body
  | .error .nullCharacter => .error .nullCharacter
  | .error (.fault line) => .error (.located name (lineMap.find? line) .invalidScript)

/-- Compiles instructions. -/
def Program.ofInstructions (settings : Settings) (name : String) (strict : Bool)
    (instructions : List Instruction) : Logged CompileError Program := do
  let b ← generate name strict instructions
  let source := b.text
  Logged.say 2 (s!"Compiled {name}: {instructions.length} instructions, " ++
    s!"{b.lines.size} lines of Python")
  if settings.logSource then
    Logged.say 3 (s!"Generated source for {name}:\n" ++ String.ofList source)
  let body ← checkGenerated source name b.lineMap
  return { instructions, source, name, lineMap := b.lineMap, body := some body }

/-- Splits a template into segments. -/
def scanLogged {ε : Type} (source : Text) (line : Int) : Logged ε (List Segment) := do
  let segments := Segment.scan source line
  Logged.say 3 s!"Tokenized {source.length} characters into {segments.length} segments"
  return segments

/-- Compiles the text of a template. -/
def Program.ofText (settings : Settings) (name : String) (source : Text) (line : Int) :
    Logged CompileError Program := do
  let segments ← scanLogged source line
  ofInstructions settings name settings.strictBlocks (Instruction.ofSegments segments)

end Stencil
