import Stencil.Proofs.Program.Verbatim

/-!
# Drafts of programs

What an instruction does to a builder is a sequence of steps that the instruction alone determines: lines
are added, a block is opened, the innermost block is closed (`Builder.add_eq_ok_iff`). A draft is a
builder that also remembers how deep each of its lines is nested and whether the line is indented.
Instructions work on a draft as they do on its builder (`foldlM_add_eq_ok_iff`), and a program is
generated in strict mode when its draft ends without open blocks (`generate_strict_eq_ok_iff`).
-/

namespace Stencil

/-! ## Steps -/

/-- A step in which a program is built: a line is added, a block is opened, or the innermost block is
closed for a statement on a template line. -/
inductive BuildStep where
  | add (l : CodeLine)
  | opens (word : Text) (line : Int)
  | closes (line : Int)

/-- The line that a step adds. -/
def BuildStep.line? : BuildStep → Option CodeLine
  | add l => some l
  | opens .. | closes _ => none

/-- The builder behind a step. A closing needs an open block. -/
def Builder.step? (b : Builder) : BuildStep → Option Builder
  | .add l => some (b.addLine l.text l.line l.starts)
  | .opens word line => some (b.openBlock word line)
  | .closes line => (b.closeBlock? line).map (·.1)

/-- The builder behind steps. -/
def Builder.run? (b : Builder) (ss : List BuildStep) : Option Builder :=
  ss.foldlM Builder.step? b

/-- The line that emits a text, if there is one to emit. -/
def textLines (text : Text) (line : Int) : List CodeLine :=
  if text.isEmpty then []
  else [⟨line, "_buf.append(".toList ++ Text.quoted text ++ [')'], true⟩]

/-- The call that puts out the value of an expression. A remark in it is ended by a line break. -/
def exprCall (code : Text) (escaped : Bool) : Text :=
  let body := if code.contains '#' then code ++ ['\n'] else code
  "_buf.append(".toList ++ (if escaped then "_escape".toList else "_str".toList) ++ '(' :: body ++
    "))".toList

/-- The lines that put out the value of an expression, of which all but the first stand within
brackets. -/
def exprLines (code : Text) (escaped : Bool) (line : Int) : List CodeLine :=
  if (Text.trim code).isEmpty then []
  else (Text.lines (exprCall (Text.trim code) escaped)).zipIdx.map fun x =>
    ⟨line + Text.breaks (code.takeWhile Text.isBlank) + x.2, x.1, x.2 = 0⟩

/-- The lines of a statement whose last logical line opens a block: a colon that is missing is added. -/
def headerLines (ls : List CodeLine) : List CodeLine :=
  if Text.endsWith (Text.trimEnd (Text.joinLines ((lastLogical ls).map (·.text)))) [':'] then ls
  else addColon ls

/-- The steps for a statement that is no end word, the closing of a block that it continues aside. They
are missing when the header cannot be examined. -/
def openingSteps? (ls : List CodeLine) : Option (List BuildStep) :=
  match opensBlock (Text.joinLines ((lastLogical ls).map (·.text))) with
  | .error _ => none
  | .ok false => some (ls.map .add)
  | .ok true =>
    some ((headerLines ls).map .add ++ ((lastLogical (headerLines ls)).head?.toList.map fun head =>
      .opens (blockWord head.text) head.line))

/-- The steps for a statement. -/
def statementSteps? (code : Text) (line : Int) : Option (List BuildStep) :=
  match codeLines code line with
  | [] => some []
  | first :: rest =>
    if rest.isEmpty && isEndWord (Text.trim first.text) then some [.closes first.line]
    else if (leadingWord? siblingWords (Text.trimStart first.text)).isSome then
      (openingSteps? (first :: rest)).map (.closes first.line :: ·)
    else openingSteps? (first :: rest)

/-- The steps for an instruction. -/
def Instruction.steps? : Instruction → Option (List BuildStep)
  | .emitText text line => some ((textLines text line).map .add)
  | .emitExpr code escaped line => some ((exprLines code escaped line).map .add)
  | .runStatement code line => statementSteps? code line

namespace Builder

variable {b b' : Builder} {template : String}

/-- No steps. -/
@[simp] theorem run?_nil (b : Builder) : b.run? [] = some b := rfl

/-- A step and then further steps. -/
theorem run?_cons (b : Builder) (s : BuildStep) (ss : List BuildStep) :
    b.run? (s :: ss) = (b.step? s).bind (·.run? ss) := List.foldlM_cons

/-- Steps in two parts. -/
theorem run?_append (b : Builder) (ss ss' : List BuildStep) :
    b.run? (ss ++ ss') = (b.run? ss).bind (·.run? ss') := List.foldlM_append

/-- Steps that add lines add the lines. -/
theorem run?_add (b : Builder) (ls : List CodeLine) : b.run? (ls.map .add) = some (b.addCode ls) := by
  induction ls generalizing b with
  | nil => rfl
  | cons l ls ih => exact ih (b.addLine l.text l.line l.starts)

/-- Closing a block for a statement is a step. -/
theorem closeFor_eq_ok_iff {first : CodeLine} :
    b.closeFor template first = .ok b' ↔ b.step? (.closes first.line) = some b' := by
  rw [closeFor, step?]
  cases b.closeBlock? first.line <;> simp

/-- A statement that is no end word is added in its steps. -/
theorem addOpening_eq_ok_iff {ls : List CodeLine} :
    b.addOpening ls = .ok b' ↔ ∃ ss, openingSteps? ls = some ss ∧ b.run? ss = some b' := by
  rw [addOpening, openingSteps?]
  cases opensBlock (Text.joinLines ((lastLogical ls).map (·.text))) with
  | error e => simp
  | ok opens =>
      cases opens with
      | false => simp [run?_add]
      | true =>
          simp only [Option.some_inj, exists_eq_left', run?_append, run?_add, Option.bind_some]
          rw [← headerLines]
          cases lastLogical (headerLines ls) with
          | nil => simp
          | cons head rest =>
              simp [run?_cons, step?]

/-- A statement is added in its steps. -/
theorem addStatement_eq_ok_iff {code : Text} {line : Int} :
    b.addStatement template code line = .ok b' ↔
      ∃ ss, statementSteps? code line = some ss ∧ b.run? ss = some b' := by
  rw [addStatement, statementSteps?]
  cases codeLines code line with
  | nil => simp
  | cons first rest =>
      dsimp only
      split
      · rw [closeFor_eq_ok_iff]
        simp [run?_cons]
      split
      · cases hclose : b.closeFor template first with
        | error e =>
            have hnone : b.step? (.closes first.line) = none := by
              refine Option.eq_none_iff_forall_ne_some.2 fun b₁ hb₁ => ?_
              cases hclose.symm.trans (closeFor_eq_ok_iff.2 hb₁)
            simp [run?_cons, hnone, bind, Except.bind]
        | ok b₁ =>
            have hsome : b.step? (.closes first.line) = some b₁ := closeFor_eq_ok_iff.1 hclose
            simp [run?_cons, hsome, bind, Except.bind, addOpening_eq_ok_iff]
      · exact addOpening_eq_ok_iff

/-- An expression adds its lines. -/
theorem addExpr_eq_addCode (b : Builder) (code : Text) (escaped : Bool) (line : Int) :
    b.addExpr code escaped line = b.addCode (exprLines code escaped line) := by
  rw [addExpr, exprLines]
  dsimp only
  split
  · rfl
  · rw [addCode, List.foldl_map]
    rfl

/-- An instruction is added in its steps, which do not depend on the builder. -/
theorem add_eq_ok_iff {i : Instruction} :
    b.add template i = .ok b' ↔ ∃ ss, i.steps? = some ss ∧ b.run? ss = some b' := by
  cases i with
  | emitText text line =>
      have hadd : b.addText text line = b.addCode (textLines text line) := by
        rw [addText, textLines]
        split <;> rfl
      simp [add, Instruction.steps?, run?_add, hadd]
  | emitExpr code escaped line => simp [add, Instruction.steps?, run?_add, addExpr_eq_addCode]
  | runStatement code line => exact addStatement_eq_ok_iff

end Builder

/-! ## Drafts -/

/-- A line of a program: how many blocks are open where it is added, and the line itself. -/
structure ProgramLine where
  depth : Nat
  code : CodeLine
  deriving Repr, DecidableEq

/-- A line as it stands in the program. -/
def ProgramLine.text (l : ProgramLine) : Text :=
  l.code.generated (Builder.indentStep * l.depth)

/-- A program under construction whose lines know how deep they are nested and whether they are
indented. -/
structure Draft where
  lines : List ProgramLine
  blocks : List Block

namespace Draft

/-- The draft of an empty program. -/
def empty : Draft := ⟨[], []⟩

/-- Adds a line. -/
def add (d : Draft) (l : CodeLine) : Draft :=
  { d with lines := d.lines ++ [⟨d.blocks.length, l⟩] }

/-- The line that does nothing, for a template line. -/
def idle (line : Int) : CodeLine := ⟨line, Builder.idleLine, true⟩

/-- The draft behind a step. -/
def step? (d : Draft) : BuildStep → Option Draft
  | .add l => some (d.add l)
  | .opens word line => some { d with blocks := ⟨word, line, d.lines.length⟩ :: d.blocks }
  | .closes line =>
    match d.blocks with
    | [] => none
    | block :: outer =>
      some ⟨if d.lines.length = block.size then (d.add (idle line)).lines else d.lines, outer⟩

/-- The draft behind steps. -/
def run? (d : Draft) (ss : List BuildStep) : Option Draft :=
  ss.foldlM step? d

/-- The draft behind an instruction. -/
def instruct? (d : Draft) (i : Instruction) : Option Draft :=
  i.steps?.bind d.run?

/-- The draft behind instructions. -/
def instructAll? (d : Draft) (is : List Instruction) : Option Draft :=
  is.foldlM instruct? d

/-- Template lines with the numbers of the program lines that they belong to. -/
def numbered (start : Nat) (lines : List Int) : List (Int × Int) :=
  (lines.zipIdx start).map fun x => (x.2, x.1)

/-- The builder of a draft. -/
def builder (d : Draft) : Builder where
  lines := (d.lines.map ProgramLine.text).toArray
  lineMap := ⟨numbered 1 (d.lines.map (·.code.line))⟩
  indent := Builder.indentStep * d.blocks.length
  blocks := d.blocks

/-- Numbering in two parts. -/
theorem numbered_append (start : Nat) (ls ls' : List Int) :
    numbered start (ls ++ ls') = numbered start ls ++ numbered (start + ls.length) ls' := by
  rw [numbered, List.zipIdx_append, List.map_append]
  rfl

/-- The program lines of numbered template lines. -/
theorem map_fst_numbered (start : Nat) (ls : List Int) :
    (numbered start ls).map (·.1) = (List.range' start ls.length).map (Nat.cast : Nat → Int) := by
  rw [numbered, List.map_map, ← List.zipIdx_map_snd start ls, List.map_map]
  rfl

/-- The template lines of numbered template lines. -/
theorem map_snd_numbered (start : Nat) (ls : List Int) : (numbered start ls).map (·.2) = ls := by
  rw [numbered, List.map_map]
  exact List.zipIdx_map_fst start ls

/-- The template line of a numbered line. -/
theorem lookup_numbered (start : Nat) (ls : List Int) (i : Nat) :
    (numbered start ls).lookup ((start + i : Nat) : Int) = ls[i]? := by
  induction ls generalizing start i with
  | nil => rfl
  | cons l ls ih =>
      rw [numbered, List.zipIdx_cons, List.map_cons, List.lookup_cons]
      cases i with
      | zero => simp
      | succ i =>
          have hne : (((start + (i + 1) : Nat) : Int) == (start : Int)) = false := by
            rw [beq_eq_false_iff_ne]
            omega
          have hrest := ih (start + 1) i
          rw [Nat.add_right_comm] at hrest
          rw [hne]
          exact hrest

variable {d d' : Draft}

/-- A draft has as many lines as its builder. -/
@[simp] theorem size_builder (d : Draft) : d.builder.lines.size = d.lines.length := by
  simp [builder]

/-- Adding a line to a draft adds it to its builder. -/
theorem builder_add (d : Draft) (l : CodeLine) :
    (d.add l).builder = d.builder.addLine l.text l.line l.starts := by
  have hnew : ¬ (numbered 1 (d.lines.map (·.code.line))).any (·.1 == (d.lines.length : Int) + 1) := by
    rw [List.any_eq_true]
    rintro ⟨e, he, heq⟩
    have hmem := List.mem_map_of_mem (f := (·.1)) he
    rw [map_fst_numbered, List.mem_map] at hmem
    obtain ⟨n, hn, hne⟩ := hmem
    rw [List.mem_range'_1, List.length_map] at hn
    have heq : e.1 = (d.lines.length : Int) + 1 := beq_iff_eq.1 heq
    omega
  have hmap : d.builder.lineMap.set (d.builder.lines.size + 1) l.line =
      ⟨numbered 1 ((d.add l).lines.map (·.code.line))⟩ := by
    have hentries : d.builder.lineMap.entries = numbered 1 (d.lines.map (·.code.line)) := rfl
    rw [size_builder, LineMap.set, hentries, if_neg hnew, add, List.map_append, numbered_append,
      List.length_map, Nat.add_comm 1]
    rfl
  rw [Builder.addLine, hmap]
  simp [builder, add, ProgramLine.text, CodeLine.generated]

/-- A step works on a draft as it does on its builder. -/
theorem step?_builder (d : Draft) (s : BuildStep) :
    d.builder.step? s = (d.step? s).map builder := by
  cases s with
  | add l => exact congrArg some (builder_add d l).symm
  | opens word line => simp [Builder.step?, step?, Builder.openBlock, builder, Nat.mul_succ]
  | closes line =>
      obtain ⟨lines, blocks⟩ := d
      cases blocks with
      | nil => rfl
      | cons block outer =>
          have hadd := builder_add ⟨lines, block :: outer⟩ (idle line)
          have hindent : Builder.indentStep * (block :: outer).length - Builder.indentStep =
              Builder.indentStep * outer.length := by
            rw [List.length_cons, Nat.mul_succ, Nat.add_sub_cancel]
          have hblocks : (builder ⟨lines, block :: outer⟩).blocks = block :: outer := rfl
          rw [Builder.step?, Builder.closeBlock?, hblocks, step?]
          dsimp only
          rw [size_builder, Option.map_some, Option.map_some, Option.some_inj]
          by_cases hsize : lines.length = block.size
          · rw [if_pos hsize, if_pos hsize]
            have hlines := congrArg Builder.lines hadd
            have hmap := congrArg Builder.lineMap hadd
            rw [Builder.mk.injEq]
            exact ⟨hlines.symm, hmap.symm, hindent, rfl⟩
          · rw [if_neg hsize, if_neg hsize]
            exact congrArg (Builder.mk _ _ · _) hindent

/-- No steps. -/
@[simp] theorem run?_nil (d : Draft) : d.run? [] = some d := rfl

/-- A step and then further steps. -/
theorem run?_cons (d : Draft) (s : BuildStep) (ss : List BuildStep) :
    d.run? (s :: ss) = (d.step? s).bind (·.run? ss) := List.foldlM_cons

/-- Steps in two parts. -/
theorem run?_append (d : Draft) (ss ss' : List BuildStep) :
    d.run? (ss ++ ss') = (d.run? ss).bind (·.run? ss') := List.foldlM_append

/-- Steps that add lines. -/
theorem run?_add (d : Draft) (ls : List CodeLine) :
    d.run? (ls.map .add) = some { d with lines := d.lines ++ ls.map (⟨d.blocks.length, ·⟩) } := by
  induction ls generalizing d with
  | nil => simp
  | cons l ls ih =>
      rw [List.map_cons, run?_cons, step?, Option.bind_some, ih]
      simp [add]

/-- Steps work on a draft as they do on its builder. -/
theorem run?_builder (d : Draft) (ss : List BuildStep) :
    d.builder.run? ss = (d.run? ss).map builder := by
  induction ss generalizing d with
  | nil => rfl
  | cons s ss ih =>
      rw [Builder.run?_cons, step?_builder, run?, List.foldlM_cons]
      cases d.step? s with
      | none => rfl
      | some d' => exact ih d'

/-- An instruction works on a draft as it does on its builder. -/
theorem add_builder_eq_ok_iff {template : String} {i : Instruction} {b : Builder} :
    d.builder.add template i = .ok b ↔ ∃ d', d.instruct? i = some d' ∧ b = d'.builder := by
  rw [Builder.add_eq_ok_iff, instruct?]
  simp only [run?_builder, Option.map_eq_some_iff, Option.bind_eq_some_iff]
  constructor
  · rintro ⟨ss, hss, d', hd', rfl⟩
    exact ⟨d', ⟨ss, hss, hd'⟩, rfl⟩
  · rintro ⟨d', ⟨ss, hss, hd'⟩, rfl⟩
    exact ⟨ss, hss, d', hd', rfl⟩

/-- An instruction and then further instructions. -/
theorem instructAll?_cons (d : Draft) (i : Instruction) (is : List Instruction) :
    d.instructAll? (i :: is) = (d.instruct? i).bind (·.instructAll? is) := List.foldlM_cons

/-- Instructions in two parts. -/
theorem instructAll?_append (d : Draft) (is is' : List Instruction) :
    d.instructAll? (is ++ is') = (d.instructAll? is).bind (·.instructAll? is') := List.foldlM_append

/-- Instructions work on a draft as they do on its builder. -/
theorem foldlM_add_eq_ok_iff {template : String} {is : List Instruction} {b : Builder} :
    is.foldlM (fun b i => b.add template i) d.builder = .ok b ↔
      ∃ d', d.instructAll? is = some d' ∧ b = d'.builder := by
  induction is generalizing d with
  | nil => simp [instructAll?, pure, Except.pure, eq_comm]
  | cons i is ih =>
      rw [List.foldlM_cons, instructAll?_cons]
      constructor
      · intro h
        cases hadd : d.builder.add template i with
        | error e =>
            rw [hadd] at h
            cases h
        | ok b₁ =>
            obtain ⟨d₁, hd₁, rfl⟩ := add_builder_eq_ok_iff.1 hadd
            rw [hadd] at h
            obtain ⟨d', hd', rfl⟩ := ih.1 h
            exact ⟨d', by rw [hd₁]; exact hd', rfl⟩
      · rintro ⟨d', hd', rfl⟩
        obtain ⟨d₁, hd₁, hrest⟩ := Option.bind_eq_some_iff.1 hd'
        rw [add_builder_eq_ok_iff.2 ⟨d₁, hd₁, rfl⟩]
        exact ih.2 ⟨d', hrest, rfl⟩

/-- The builder of an empty draft is empty. -/
theorem builder_empty : empty.builder = Builder.empty := rfl

end Draft

/-- A program is generated in strict mode when its draft ends without open blocks. -/
theorem generate_strict_eq_ok_iff {template : String} {is : List Instruction} {b : Builder} :
    generate template true is = .ok b ↔
      ∃ lines, Draft.empty.instructAll? is = some ⟨lines, []⟩ ∧ b = (Draft.mk lines []).builder := by
  rw [generate, ← Draft.builder_empty]
  constructor
  · intro h
    cases hfold : is.foldlM (fun b i => b.add template i) Draft.empty.builder with
    | error e =>
        rw [hfold] at h
        cases h
    | ok b₁ =>
        rw [hfold] at h
        obtain ⟨⟨lines, blocks⟩, hd, rfl⟩ := Draft.foldlM_add_eq_ok_iff.1 hfold
        cases blocks with
        | nil => exact ⟨lines, hd, (Except.ok.inj h).symm⟩
        | cons block outer => cases h
  · rintro ⟨lines, hd, rfl⟩
    rw [Draft.foldlM_add_eq_ok_iff.2 ⟨_, hd, rfl⟩]
    rfl

end Stencil
