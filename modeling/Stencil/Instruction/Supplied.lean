import Stencil.Program.Compile

/-!
# Items handed in from outside

Segments and instructions may be handed in by a caller instead of being read from a template. Then an
item can be of no known kind, which is an error that shows the item.
-/

namespace Stencil

/-- An item handed in as a segment. -/
inductive SuppliedSegment where
  | segment (s : Segment)
  /-- A directive whose kind is none of the four. -/
  | ofKind (shown : Text) (line : Int)
  | other (shown : Text)

/-- An item handed in as an instruction. -/
inductive SuppliedInstruction where
  | instruction (i : Instruction)
  | other (shown : Text)

/-- The instructions of the items handed in as segments, up to the first of unknown kind. -/
def Instruction.ofSupplied (name : String) (items : List SuppliedSegment) :
    Except CompileError (List Instruction) := do
  let parts ← items.mapM fun
    | .segment s => .ok s.instructions
    | .ofKind shown line => .error (.located name (some line) (.unknownKind shown))
    | .other shown => .error (.located name none (.unknownSegment shown))
  return parts.flatten

/-- Generates the program of items handed in as instructions. -/
def generateSupplied (name : String) (strict : Bool) (items : List SuppliedInstruction) :
    Except CompileError Builder := do
  let b ← items.foldlM (fun b i =>
    match i with
    | .instruction i => b.add name i
    | .other shown => .error (.located name none (.unknownInstruction shown))) Builder.empty
  b.finish name strict

end Stencil
