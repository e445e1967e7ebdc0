import Stencil.Instruction.Basic
import Stencil.Program.Builder
import Stencil.Text.Quoted
import Stencil.Text.Letter
import Stencil.Script.Check
import Stencil.Script.Continuation

/-!
# Generating a program from instructions

Each instruction adds lines to a program. Text is appended to the output buffer, expressions are
wrapped in a call that makes text of their value, and statements are copied at the current
indentation. A statement that is an end word closes the innermost block, one that starts with a word
such as `else` closes a block and opens another, and a statement whose last logical line is a block
header opens one. The colon behind a header may be left out. The message of an error names the template
and, where it is known, the line.
-/

namespace Stencil

/-! ## Errors -/

/-- The reasons why a template cannot be compiled. -/
inductive Fault where
  /-- A segment that is neither text nor directive, as it is shown. -/
  | unknownSegment (shown : Text)
  /-- A directive whose kind is none of the four, as the kind is shown. -/
  | unknownKind (shown : Text)
  /-- An instruction of unknown kind, as it is shown. -/
  | unknownInstruction (shown : Text)
  /-- A statement that closes a block where none is open. -/
  | unopened (statement : Text)
  /-- A block that is open at the end. -/
  | unclosed (word : Text)
  /-- Code that is no script. -/
  | invalidScript
  deriving Repr, DecidableEq

/-- Whether a fault lies in the template's own text and not in the items handed in. -/
def Fault.inTemplate : Fault → Bool
  | unopened _ | unclosed _ | invalidScript => true
  | _ => false

/-- The words for a fault. -/
def Fault.text : Fault → Text
  | unknownSegment s => "unknown segment ".toList ++ s
  | unknownKind s => "unreachable directive kind ".toList ++ s
  | unknownInstruction s => "unknown instruction ".toList ++ s
  | unopened s => '\'' :: s ++ "' without an open block".toList
  | unclosed w => '\'' :: w ++ "' block is never closed (missing <% end %>)".toList
  | invalidScript => "invalid syntax".toList

/-- An error of compilation: a fault in a template and its line, or a null character in its code. -/
inductive CompileError where
  | located (template : String) (line : Option Int) (fault : Fault)
  | nullCharacter
  deriving Repr, DecidableEq

/-- A template and a line in it, as messages name them. -/
def showPlace (template : String) (line : Option Int) : String :=
  match line with
  | some l => s!"{template}:{l}"
  | none => template

/-- The message of an error. -/
def CompileError.message : CompileError → String
  | located template line fault =>
    showPlace template line ++ ": " ++ String.ofList fault.text
  | nullCharacter => "source code string cannot contain null bytes"

/-! ## Words that open and close blocks -/

/-- The words whose statements open a block. -/
def openingWords : List String := ["for", "if", "while", "with", "try", "def", "class"]

/-- The words whose statements close a block and open its sibling. -/
def siblingWords : List String := ["elif", "else", "except", "finally"]

/-- The word of a list that a text starts with, if no word character follows it. -/
def leadingWord? (words : List String) (t : Text) : Option Text :=
  (words.map String.toList).find? fun w =>
    w.isPrefixOf t && !((t.drop w.length).head?.any Text.isWord)

/-- Whether a statement is one of the words that only close a block. -/
def isEndWord (t : Text) : Bool :=
  t == "end".toList || openingWords.any fun w => t == "end".toList ++ w.toList

/-- Whether a statement opens a block: it ends with a colon, starts with a word that continues a block,
or is the header of a block once a colon and a body are added. The answer may be that the header
cannot be examined because of a null character. -/
def opensBlock (statement : Text) : Except Script.CheckError Bool :=
  let t := Text.trim statement
  if Text.endsWith t [':'] then .ok true
  else if (leadingWord? siblingWords t).isSome then .ok true
  else if (leadingWord? openingWords t).isNone then .ok false
  else if t == "try".toList then .ok true
  else
    match Script.check (t ++ ":\n    pass\n".toList) with
    | .ok _ => .ok true
    | .error (.fault _) => .ok false
    | .error .nullCharacter => .error .nullCharacter

/-! ## Lines of a statement -/

/-- A line of a statement: its template line, its text, and whether a logical line starts there. -/
structure CodeLine where
  line : Int
  text : Text
  starts : Bool
  deriving Repr, DecidableEq

/-- The lines of a statement's code that go into the program. Lines that continue a logical line are
kept as they are; of the others the blank ones are dropped, and blanks at the end are removed unless
the next line continues. -/
def codeLines (code : Text) (line : Int) : List CodeLine :=
  let code := Text.dedent code
  let continued := Script.continuationLines code
  (Text.lines code).zipIdx.filterMap fun (t, i) =>
    if continued.contains i then some ⟨line + i, t, false⟩
    else if (Text.trim t).isEmpty then none
    else some ⟨line + i, if continued.contains (i + 1) then t else Text.trimEnd t, true⟩

/-- The lines from the last one on that starts a logical line. -/
def lastLogical (ls : List CodeLine) : List CodeLine :=
  let continuing := (ls.reverse.takeWhile fun l => !l.starts).length
  ls.drop (ls.length - continuing - 1)

/-- Lines with a colon behind the last of them. -/
def addColon (ls : List CodeLine) : List CodeLine :=
  match ls.getLast? with
  | none => []
  | some l => ls.dropLast ++ [{ l with text := l.text ++ [':'] }]

/-- The word that names the block a header opens. -/
def blockWord (header : Text) : Text :=
  let t := Text.trimStart header
  match leadingWord? siblingWords t with
  | some w => w
  | none => (leadingWord? openingWords t).getD "block".toList

namespace Builder

/-- Adds the lines of a statement. -/
def addCode (b : Builder) (ls : List CodeLine) : Builder :=
  ls.foldl (fun b l => b.addLine l.text l.line l.starts) b

/-- Closes the innermost block for a statement, which is at fault when no block is open. -/
def closeFor (b : Builder) (template : String) (first : CodeLine) : Except CompileError Builder :=
  match b.closeBlock? first.line with
  | some (b, _) => .ok b
  | none => .error (.located template (some first.line) (.unopened (Text.trim first.text)))

/-- Adds a statement that is no end word; the block it continues is closed already. -/
def addOpening (b : Builder) (ls : List CodeLine) : Except CompileError Builder :=
  let last := lastLogical ls
  let text := Text.joinLines (last.map (·.text))
  match opensBlock text with
  | .error _ => .error .nullCharacter
  | .ok false => .ok (b.addCode ls)
  | .ok true =>
    let ls' := if Text.endsWith (Text.trimEnd text) [':'] then ls else addColon ls
    let b := b.addCode ls'
    match lastLogical ls' with
    | [] => .ok b
    | head :: _ => .ok (b.openBlock (blockWord head.text) head.line)

/-- Adds a statement. -/
def addStatement (b : Builder) (template : String) (code : Text) (line : Int) :
    Except CompileError Builder :=
  match codeLines code line with
  | [] => .ok b
  | first :: rest =>
    if rest.isEmpty && isEndWord (Text.trim first.text) then b.closeFor template first
    else if (leadingWord? siblingWords (Text.trimStart first.text)).isSome then do
      let b ← b.closeFor template first
      b.addOpening (first :: rest)
    else b.addOpening (first :: rest)

/-- Adds an expression whose value is emitted. All lines but the first stand within the brackets of the
call. A remark in the code is kept from hiding the closing brackets by a line break. -/
def addExpr (b : Builder) (code : Text) (escaped : Bool) (line : Int) : Builder :=
  let trimmed := Text.trim code
  if trimmed.isEmpty then b
  else
    let start := line + Text.breaks (code.takeWhile Text.isBlank)
    let wrapper := if escaped then "_escape".toList else "_str".toList
    let body := if trimmed.contains '#' then trimmed ++ ['\n'] else trimmed
    let call := "_buf.append(".toList ++ wrapper ++ '(' :: body ++ "))".toList
    (Text.lines call).zipIdx.foldl (fun b (t, i) => b.addLine t (start + i) (i = 0)) b

/-- Adds a text that is emitted. -/
def addText (b : Builder) (text : Text) (line : Int) : Builder :=
  if text.isEmpty then b
  else b.addLine ("_buf.append(".toList ++ Text.quoted text ++ [')']) line true

/-- Adds an instruction. -/
def add (b : Builder) (template : String) : Instruction → Except CompileError Builder
  | .emitText text line => .ok (b.addText text line)
  | .emitExpr code escaped line => .ok (b.addExpr code escaped line)
  | .runStatement code line => b.addStatement template code line

/-- Closes all open blocks at a line. -/
def closeAll (line : Int) : Nat → Builder → Builder
  | 0, b => b
  | n + 1, b =>
    match b.closeBlock? line with
    | some (b, _) => closeAll line n b
    | none => b

/-- The end of a program. In strict mode an open block is at fault, else all are closed. -/
def finish (b : Builder) (template : String) (strict : Bool) : Except CompileError Builder :=
  match b.blocks with
  | [] => .ok b
  | block :: _ =>
    if strict then .error (.located template (some block.line) (.unclosed block.word))
    else .ok (closeAll block.line b.blocks.length b)

end Builder

/-- Generates the program of instructions. -/
def generate (template : String) (strict : Bool) (instructions : List Instruction) :
    Except CompileError Builder := do
  let b ← instructions.foldlM (fun b i => b.add template i) Builder.empty
  b.finish template strict

end Stencil
