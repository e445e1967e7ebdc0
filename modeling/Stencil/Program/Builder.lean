import Stencil.Text.Basic

/-!
# Building a program line by line

A builder holds the lines of a program so far, the template line of each, the current indentation, and
the blocks that are open. A block remembers how many lines there were when it was opened, so that a
block without lines gets one that does nothing when it is closed. A line map gives template lines for
lines of a program; lines without an entry belong to the nearest earlier line that has one.
-/

namespace Stencil

/-! ## Line maps -/

/-- Template lines of program lines, each program line at most once. -/
structure LineMap where
  entries : List (Int × Int)
  deriving Repr, DecidableEq

namespace LineMap

/-- The map without entries. -/
def empty : LineMap := ⟨[]⟩

/-- Writes an entry. A line that is there takes the new value, another one goes to the end. -/
def set (m : LineMap) (programLine templateLine : Int) : LineMap :=
  if m.entries.any (·.1 == programLine) then
    ⟨m.entries.map fun e => if e.1 == programLine then (programLine, templateLine) else e⟩
  else ⟨m.entries ++ [(programLine, templateLine)]⟩

/-- The map that writing entries in turn gives. -/
def ofList (es : List (Int × Int)) : LineMap :=
  es.foldl (fun m e => m.set e.1 e.2) empty

/-- The entry of a program line. -/
def get? (m : LineMap) (programLine : Int) : Option Int :=
  m.entries.lookup programLine

/-- The later of two entries by program line. -/
def later (a b : Int × Int) : Int × Int :=
  if a.1 < b.1 then b else a

/-- The template line of a program line: its own entry, or that of the nearest earlier line with an
entry. -/
def find? (m : LineMap) (programLine : Int) : Option Int :=
  match m.get? programLine with
  | some l => some l
  | none =>
    match m.entries.filter (·.1 < programLine) with
    | [] => none
    | e :: es => some (es.foldl later e).2

end LineMap

/-! ## Builders -/

/-- An open block: the word that opened it, its template line, and the number of program lines before
its body. -/
structure Block where
  word : Text
  line : Int
  size : Nat
  deriving Repr, DecidableEq

/-- A program under construction. The innermost open block comes first. -/
structure Builder where
  lines : Array Text
  lineMap : LineMap
  indent : Nat
  blocks : List Block
  deriving Repr, DecidableEq

namespace Builder

/-- The columns by which a body is indented under its header. -/
def indentStep : Nat := 4

/-- The builder of an empty program. -/
def empty : Builder := ⟨#[], LineMap.empty, 0, []⟩

/-- Adds a line that comes from a template line. A line that continues a logical line is not
indented. -/
def addLine (b : Builder) (text : Text) (line : Int) (indented : Bool) : Builder :=
  { b with
    lines := b.lines.push (if indented then List.replicate b.indent ' ' ++ text else text)
    lineMap := b.lineMap.set (b.lines.size + 1) line }

/-- Opens a block behind the lines so far. -/
def openBlock (b : Builder) (word : Text) (line : Int) : Builder :=
  { b with
    blocks := ⟨word, line, b.lines.size⟩ :: b.blocks
    indent := b.indent + indentStep }

/-- The line that does nothing. -/
def idleLine : Text := "pass".toList

/-- Closes the innermost block, which is given back. A block without lines gets an idle one. -/
def closeBlock? (b : Builder) (line : Int) : Option (Builder × Block) :=
  match b.blocks with
  | [] => none
  | block :: outer =>
    let b := { b with blocks := outer }
    let b := if b.lines.size = block.size then b.addLine idleLine line true else b
    some ({ b with indent := b.indent - indentStep }, block)

/-- The text of a program, in which every line ends with a line break. -/
def text (b : Builder) : Text :=
  b.lines.toList.flatMap (· ++ ['\n'])

end Builder

end Stencil
