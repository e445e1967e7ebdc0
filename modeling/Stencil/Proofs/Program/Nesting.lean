import Stencil.Proofs.Program.Draft

/-!
# Programs are put together from blocks

What instructions with balanced blocks add to a draft depends on the draft only through the number of
blocks that are open: the same lines, nested deeper (`Draft.instructAll?_of_generates`). So programs in a
row are the program of the row, and a program becomes the body of a block by nesting its lines, or by
adding a line that does nothing where it has none (`generate_compositional`).
-/

namespace Stencil

/-! ## Nesting lines -/

/-- A line within further blocks. -/
def ProgramLine.deepen (n : Nat) (l : ProgramLine) : ProgramLine :=
  { l with depth := n + l.depth }

/-- A line within one more block. -/
def ProgramLine.nest (l : ProgramLine) : ProgramLine :=
  l.deepen 1

/-- Within no further blocks a line stays as it is. -/
@[simp] theorem ProgramLine.deepen_zero (l : ProgramLine) : l.deepen 0 = l := by
  rw [deepen, Nat.zero_add]

/-- Lines within no further blocks stay as they are. -/
@[simp] theorem ProgramLine.map_deepen_zero (ls : List ProgramLine) : ls.map (deepen 0) = ls := by
  rw [List.map_congr_left fun l _ => l.deepen_zero, List.map_id']

/-- One more block puts four spaces in front of a line that is indented, and leaves other lines as they
are. -/
theorem ProgramLine.text_nest (l : ProgramLine) :
    l.nest.text = if l.code.starts then "    ".toList ++ l.text else l.text := by
  have hspaces : "    ".toList = List.replicate Builder.indentStep ' ' := rfl
  have hcode : l.nest.code = l.code := rfl
  have hdepth : l.nest.depth = 1 + l.depth := rfl
  rw [text, text, hcode, hdepth, hspaces, CodeLine.generated, CodeLine.generated]
  split
  · rw [← List.append_assoc, List.replicate_append_replicate, Nat.mul_add, Nat.mul_one]
  · rfl

/-- The lines of a body whose block is closed for a statement on a template line. A body without lines
gets one that does nothing. -/
def bodyLines (line : Int) (ls : List ProgramLine) : List ProgramLine :=
  if ls = [] then [⟨1, Draft.idle line⟩] else ls.map ProgramLine.nest

namespace Draft

/-- A block whose draft has further lines in front. -/
def shiftBlock (n : Nat) (k : Block) : Block :=
  { k with size := n + k.size }

/-- What is added to a draft, with what has been added to an empty one in the meantime. -/
def within (outer d : Draft) : Draft where
  lines := outer.lines ++ d.lines.map (ProgramLine.deepen outer.blocks.length)
  blocks := d.blocks.map (shiftBlock outer.lines.length) ++ outer.blocks

/-- Nothing has been added. -/
@[simp] theorem within_empty (outer : Draft) : outer.within empty = outer := by
  simp [within, empty]

variable {d d' : Draft} {ss : List BuildStep}

/-- A line is added within blocks as it is added without them. -/
theorem add_within (outer d : Draft) (l : CodeLine) :
    (outer.within d).add l = outer.within (d.add l) := by
  simp [within, add, ProgramLine.deepen, Nat.add_comm]

/-- A step that can be taken on its own is taken in the same way behind a draft. -/
theorem step?_within (outer : Draft) {s : BuildStep} (h : d.step? s = some d') :
    (outer.within d).step? s = some (outer.within d') := by
  cases s with
  | add l =>
      obtain rfl := Option.some.inj h
      exact congrArg some (add_within outer d l)
  | opens word line =>
      obtain rfl := Option.some.inj h
      simp [step?, within, shiftBlock]
  | closes line =>
      obtain ⟨lines, blocks⟩ := d
      cases blocks with
      | nil => cases h
      | cons block inner =>
          obtain rfl := Option.some.inj h
          have hsize : (outer.within ⟨lines, block :: inner⟩).lines.length =
              (shiftBlock outer.lines.length block).size ↔ lines.length = block.size := by
            simp [within, shiftBlock]
          have hadd := congrArg Draft.lines (add_within outer ⟨lines, block :: inner⟩ (idle line))
          have hblocks : (outer.within ⟨lines, block :: inner⟩).blocks =
              shiftBlock outer.lines.length block ::
                (inner.map (shiftBlock outer.lines.length) ++ outer.blocks) := rfl
          rw [step?, hblocks]
          dsimp only
          by_cases hempty : lines.length = block.size
          · rw [if_pos (hsize.2 hempty), if_pos hempty, hadd]
            rfl
          · rw [if_neg (mt hsize.1 hempty), if_neg hempty]
            rfl

/-- Steps that can be taken on their own are taken in the same way behind a draft. -/
theorem run?_within (outer : Draft) (h : d.run? ss = some d') :
    (outer.within d).run? ss = some (outer.within d') := by
  induction ss generalizing d with
  | nil =>
      obtain rfl := Option.some.inj h
      rfl
  | cons s ss ih =>
      rw [run?_cons, Option.bind_eq_some_iff] at h
      obtain ⟨d₁, hstep, hrest⟩ := h
      rw [run?_cons, step?_within outer hstep, Option.bind_some, ih hrest]

/-- Instructions that can be added on their own are added in the same way behind a draft. -/
theorem instructAll?_within (outer : Draft) {is : List Instruction} (h : d.instructAll? is = some d') :
    (outer.within d).instructAll? is = some (outer.within d') := by
  induction is generalizing d with
  | nil =>
      obtain rfl := Option.some.inj h
      rfl
  | cons i is ih =>
      rw [instructAll?_cons, Option.bind_eq_some_iff] at h
      obtain ⟨d₁, hi, hrest⟩ := h
      rw [instruct?, Option.bind_eq_some_iff] at hi
      obtain ⟨ss, hss, hrun⟩ := hi
      rw [instructAll?_cons, instruct?, hss, Option.bind_some, run?_within outer hrun,
        Option.bind_some, ih hrest]

end Draft

/-! ## Programs of their own -/

/-- Whether instructions give a program of their own, without open blocks, with these lines. -/
def Generates (is : List Instruction) (ls : List ProgramLine) : Prop :=
  Draft.empty.instructAll? is = some ⟨ls, []⟩

/-- What instructions with a program of their own add to a draft are the lines of the program, nested as
deep as the draft is. -/
theorem Draft.instructAll?_of_generates {is : List Instruction} {ls : List ProgramLine}
    (h : Generates is ls) (d : Draft) : d.instructAll? is =
      some { d with lines := d.lines ++ ls.map (ProgramLine.deepen d.blocks.length) } := by
  have hwithin := instructAll?_within d h
  rw [within_empty] at hwithin
  exact hwithin

/-- Programs in a row. -/
theorem Generates.append {is is' : List Instruction} {ls ls' : List ProgramLine}
    (h : Generates is ls) (h' : Generates is' ls') : Generates (is ++ is') (ls ++ ls') := by
  rw [Generates, Draft.instructAll?_append, h, Option.bind_some, Draft.instructAll?_of_generates h']
  simp

/-- A builder that is generated has the lines of the draft, and its line map numbers them. -/
theorem generates_iff {template : String} {is : List Instruction} {b : Builder} :
    generate template true is = .ok b ↔ ∃ ls, Generates is ls ∧
      b.lines.toList = ls.map (·.text) ∧
      b.lineMap.entries = Draft.numbered 1 (ls.map (·.code.line)) ∧ b.indent = 0 ∧ b.blocks = [] := by
  rw [generate_strict_eq_ok_iff]
  refine exists_congr fun ls => and_congr_right fun _ => ⟨?_, ?_⟩
  · rintro rfl
    exact ⟨by simp [Draft.builder], rfl, rfl, rfl⟩
  · rintro ⟨hlines, hentries, hindent, hblocks⟩
    obtain ⟨lines, ⟨entries⟩, indent, blocks⟩ := b
    dsimp only at hlines hentries hindent hblocks
    rw [Draft.builder, ← hlines, ← hentries, hindent, hblocks]
    simp

/-! ## Statements that open and close blocks -/

/-- The lines that an instruction adds where no block is open. -/
def Instruction.ownLines (i : Instruction) : List ProgramLine :=
  ((i.steps?.getD []).filterMap BuildStep.line?).map (⟨0, ·⟩)

/-- Whether an instruction opens exactly one block and closes none. -/
def Instruction.OpensOne (i : Instruction) : Prop :=
  ∃ line word, i.events = [.opens line word]

/-- Whether an instruction closes a block, on a template line, and opens another one. -/
def Instruction.Reopens (i : Instruction) (line : Int) : Prop :=
  ∃ statement line' word, i.events = [.closes line statement, .opens line' word]

/-- Whether an instruction is an end word on a template line. -/
def Instruction.EndsBlock (i : Instruction) (line : Int) : Prop :=
  ∃ code start word, i = .runStatement code start ∧ contentLines code start = [(line, word)] ∧
    isEndWord word

/-- The steps for a statement whose last logical line is a header, as its events tell them. -/
theorem openingSteps?_of_openedBlock? {code : Text} {start line : Int} {word : Text}
    (h : openedBlock? code start = some (line, word)) :
    ∃ ls : List CodeLine, openingSteps? (codeLines code start) =
      some (ls.map .add ++ [.opens word line]) := by
  rw [openedBlock?] at h
  rw [openingSteps?]
  split at h
  · next hopens =>
      obtain ⟨head, hhead, hblock⟩ := Option.map_eq_some_iff.1 h
      obtain ⟨rfl, rfl⟩ := Prod.mk.inj hblock
      obtain ⟨rest, hlast⟩ := List.head?_eq_some_iff.1 hhead
      obtain ⟨head', rest', hhead', hline, hword⟩ := lastLogical_withColon hlast
        (Text.endsWith (Text.trimEnd (Text.joinLines
          ((lastLogical (codeLines code start)).map (·.text)))) [':'])
      rw [hopens]
      dsimp only
      refine ⟨headerLines (codeLines code start), ?_⟩
      rw [headerLines, hhead', ← hline, ← hword]
      rfl
  · cases h

/-- The events of a statement of one opening, or of one closing and one opening, tell its steps. -/
theorem steps?_of_events {i : Instruction} {line : Int} {word : Text} :
    (i.events = [.opens line word] → ∃ ls : List CodeLine,
      i.steps? = some (ls.map .add ++ [.opens word line])) ∧
    (∀ line' statement, i.events = [.closes line' statement, .opens line word] →
      ∃ ls : List CodeLine, i.steps? = some (.closes line' :: (ls.map .add ++ [.opens word line]))) := by
  cases i with
  | emitText text line => exact ⟨fun h => (by cases h), fun _ _ h => (by cases h)⟩
  | emitExpr code escaped line => exact ⟨fun h => (by cases h), fun _ _ h => (by cases h)⟩
  | runStatement code start =>
      have hopened
          (hone : ((openedBlock? code start).toList.map fun x => BlockEvent.opens x.1 x.2) =
            [.opens line word]) : openedBlock? code start = some (line, word) := by
        cases hblock : openedBlock? code start with
        | none => simp [hblock] at hone
        | some x => simpa [hblock, Prod.ext_iff, and_comm] using hone
      simp only [Instruction.events, Instruction.steps?, statementEvents, statementSteps?]
      rcases codeLines_cases code start with ⟨hcontent, -⟩ | ⟨_, rest, first, more, hcontent, hcode,
        -, rfl, hend⟩
      · rw [hcontent]
        exact ⟨fun h => (by cases h), fun _ _ h => (by cases h)⟩
      · have hword : leadingWord? siblingWords (Text.trimStart first.text) =
            leadingWord? siblingWords (Text.trim first.text) :=
          (leadingWord?_trimEnd isWord_siblingWords _).symm
        have hsteps := @openingSteps?_of_openedBlock? code start line word
        rw [hcode] at hsteps
        rw [hcontent, hcode]
        dsimp only
        rw [hend, hword]
        -- an end word opens nothing, a sibling word closes before it opens, and any other word only opens
        split
        · exact ⟨fun h => by simp at h, fun line' statement h => by simp at h⟩
        split
        · refine ⟨fun h => by simp at h, fun line' statement h => ?_⟩
          rw [List.singleton_append] at h
          obtain ⟨hclosed, hrest⟩ := List.cons.inj h
          obtain ⟨rfl, -⟩ := BlockEvent.closes.inj hclosed
          obtain ⟨ls, hls⟩ := hsteps (hopened hrest)
          exact ⟨ls, by rw [hls]; rfl⟩
        · rw [List.nil_append]
          refine ⟨fun h => hsteps (hopened h), fun line' statement h => ?_⟩
          cases hblock : openedBlock? code start with
          | none => simp [hblock] at h
          | some x => simp [hblock] at h

/-- The steps for an end word. -/
theorem Instruction.EndsBlock.steps?_eq {i : Instruction} {line : Int} (h : i.EndsBlock line) :
    i.steps? = some [.closes line] := by
  obtain ⟨code, start, word, rfl, hcontent, hword⟩ := h
  rw [Instruction.steps?, statementSteps?]
  rcases codeLines_cases code start with ⟨hnone, -⟩ | ⟨_, rest, first, more, hsome, hcode, -, rfl, hend⟩
  · cases hcontent.symm.trans hnone
  · obtain ⟨hfirst, rfl⟩ := List.cons.inj (hsome.symm.trans hcontent)
    obtain ⟨rfl, rfl⟩ := Prod.mk.inj hfirst
    have hend : (more.isEmpty && isEndWord (Text.trim first.text)) = true := by
      rw [hend, hword]
      rfl
    rw [hcode]
    dsimp only
    rw [if_pos hend]

namespace Draft

/-- The lines that steps add of which only the last opens a block. -/
theorem filterMap_line? (ls : List CodeLine) (word : Text) (line : Int) :
    (ls.map BuildStep.add ++ [BuildStep.opens word line]).filterMap BuildStep.line? = ls := by
  induction ls with
  | nil => rfl
  | cons l ls ih => exact congrArg (l :: ·) ih

/-- A statement that opens a block adds its lines. -/
theorem instruct?_of_opensOne {h : Instruction} (hopens : h.OpensOne) (d : Draft) :
    ∃ word line, d.instruct? h = some ⟨d.lines ++ h.ownLines.map (ProgramLine.deepen d.blocks.length),
      ⟨word, line, d.lines.length + h.ownLines.length⟩ :: d.blocks⟩ := by
  obtain ⟨line, word, hevents⟩ := hopens
  obtain ⟨ls, hsteps⟩ := steps?_of_events.1 hevents
  refine ⟨word, line, ?_⟩
  rw [instruct?, Instruction.ownLines, hsteps, Option.bind_some, Option.getD_some, filterMap_line?,
    run?_append, run?_add]
  simp [run?_cons, step?, ProgramLine.deepen, Function.comp_def]

/-- Closing a block whose body is a program of its own. -/
theorem step?_closes_body (before : List ProgramLine) (ls : List ProgramLine) (word : Text)
    (line line' : Int) :
    Draft.step? ⟨before ++ ls.map (ProgramLine.deepen 1), [⟨word, line, before.length⟩]⟩
      (.closes line') = some ⟨before ++ bodyLines line' ls, []⟩ := by
  rw [step?, bodyLines]
  dsimp only
  by_cases hls : ls = []
  · subst hls
    simp [add]
  · have hne : (before ++ ls.map (ProgramLine.deepen 1)).length ≠ before.length := by
      have hpos := List.length_pos_iff.2 hls
      rw [List.length_append, List.length_map]
      omega
    rw [if_neg hne, if_neg hls]
    rfl

/-- A statement that closes a block and opens another ends the body of the first and adds its lines. -/
theorem instruct?_of_reopens {c : Instruction} {line' : Int} (hc : c.Reopens line')
    (before ls : List ProgramLine) (word : Text) (line : Int) : ∃ word' line'',
    instruct? ⟨before ++ ls.map (ProgramLine.deepen 1), [⟨word, line, before.length⟩]⟩ c =
      some ⟨before ++ bodyLines line' ls ++ c.ownLines,
        [⟨word', line'', (before ++ bodyLines line' ls ++ c.ownLines).length⟩]⟩ := by
  obtain ⟨statement, line'', word', hevents⟩ := hc
  obtain ⟨own, hsteps⟩ := steps?_of_events.2 line' statement hevents
  refine ⟨word', line'', ?_⟩
  have hown : c.ownLines = own.map (⟨0, ·⟩) := by
    rw [Instruction.ownLines, hsteps]
    exact congrArg (List.map _) (filterMap_line? own word' line'')
  rw [instruct?, hsteps, hown, Option.bind_some, run?_cons, step?_closes_body, Option.bind_some,
    run?_append, run?_add]
  simp [run?_cons, step?]

end Draft

/-! ## Blocks -/

/-- What follows the first body of a block: an end word, or a statement that closes the body and opens
another one, with its body and what follows that. The template line is that of the first statement, and
the lines are those that all of it adds. -/
inductive Continuation : Int → List Instruction → List ProgramLine → Prop where
  | finish {e : Instruction} {line : Int} (he : e.EndsBlock line) : Continuation line [e] []
  | branch {c : Instruction} {line line' : Int} {body rest : List Instruction}
      {inner ls : List ProgramLine} (hc : c.Reopens line) (hbody : Generates body inner)
      (hrest : Continuation line' rest ls) :
      Continuation line (c :: (body ++ rest)) (c.ownLines ++ bodyLines line' inner ++ ls)

/-- What follows a body ends it and adds its lines. -/
theorem Continuation.instructAll? {line : Int} {is : List Instruction} {ls : List ProgramLine}
    (h : Continuation line is ls) (before inner : List ProgramLine) (word : Text) (opened : Int) :
    Draft.instructAll? ⟨before ++ inner.map (ProgramLine.deepen 1), [⟨word, opened, before.length⟩]⟩ is =
      some ⟨before ++ bodyLines line inner ++ ls, []⟩ := by
  induction h generalizing before inner word opened with
  | finish he =>
      rw [Draft.instructAll?_cons, Draft.instruct?, he.steps?_eq, Option.bind_some, Draft.run?_cons,
        Draft.step?_closes_body, List.append_nil]
      rfl
  | @branch c line line' body rest inner' ls hc hbody hrest ih =>
      obtain ⟨word', opened', hinstruct⟩ := Draft.instruct?_of_reopens hc before inner word opened
      rw [Draft.instructAll?_cons, hinstruct, Option.bind_some, Draft.instructAll?_append,
        Draft.instructAll?_of_generates hbody, Option.bind_some]
      dsimp only
      rw [List.length_singleton, ih]
      simp only [List.append_assoc]

/-- A block with its bodies is a program of its own. -/
theorem Generates.block {h : Instruction} {body rest : List Instruction} {inner ls : List ProgramLine}
    {line : Int} (hopens : h.OpensOne) (hbody : Generates body inner)
    (hrest : Continuation line rest ls) :
    Generates (h :: (body ++ rest)) (h.ownLines ++ bodyLines line inner ++ ls) := by
  obtain ⟨word, opened, hinstruct⟩ := Draft.instruct?_of_opensOne hopens Draft.empty
  rw [Generates, Draft.instructAll?_cons, hinstruct, Option.bind_some, Draft.instructAll?_append,
    Draft.instructAll?_of_generates hbody, Option.bind_some]
  have hcontinuation := hrest.instructAll? h.ownLines inner word opened
  simpa [Draft.empty] using hcontinuation

/-- An indented line starts with four spaces for each block that is open where it is added. -/
theorem ProgramLine.spaces_prefix {l : ProgramLine} (h : l.code.starts) :
    List.replicate (4 * l.depth) ' ' <+: l.text := by
  rw [text, CodeLine.generated, if_pos h]
  exact List.prefix_append _ _

/-- Programs are put together from blocks. The builders that are generated in strict mode are those of
programs of their own, with their lines and a line map that numbers them. Two programs in a row are a
program, whose lines are theirs in a row. A statement that opens a block, a program as its body, and what
follows the body are a program, in which the lines of the body are nested: four spaces stand in front of
each indented line, and no other line changes. So an indented line starts with four spaces for each
block around it. -/
theorem generate_compositional (template : String) :
    (∀ is b, generate template true is = .ok b ↔ ∃ ls, Generates is ls ∧
      b.lines.toList = ls.map (·.text) ∧
      b.lineMap.entries = Draft.numbered 1 (ls.map (·.code.line)) ∧ b.indent = 0 ∧ b.blocks = []) ∧
    (∀ is is' ls ls', Generates is ls → Generates is' ls' → Generates (is ++ is') (ls ++ ls')) ∧
    (∀ h body rest inner ls line, h.OpensOne → Generates body inner → Continuation line rest ls →
      Generates (h :: (body ++ rest)) (h.ownLines ++ bodyLines line inner ++ ls)) ∧
    (∀ l : ProgramLine, l.nest.code = l.code ∧
      l.nest.text = if l.code.starts then "    ".toList ++ l.text else l.text) ∧
    (∀ is ls, Generates is ls → ∀ l ∈ ls, l.code.starts →
      List.replicate (4 * l.depth) ' ' <+: l.text) :=
  ⟨fun _ _ => generates_iff, fun _ _ _ _ h h' => h.append h',
    fun _ _ _ _ _ _ hopens hbody hrest => .block hopens hbody hrest, fun l => ⟨rfl, l.text_nest⟩,
    fun _ _ _ _ _ hl => ProgramLine.spaces_prefix hl⟩

/-- A choice whose first branch emits a text and whose other branch is empty: the text is nested, and the
empty branch gets a line that does nothing. -/
theorem generates_shortChoice :
    Generates ([.runStatement "if a:".toList 1, .emitText ['x'] 2, .runStatement "else:".toList 3,
        .runStatement "end".toList 4])
      [⟨0, ⟨1, "if a:".toList, true⟩⟩, ⟨1, ⟨2, "_buf.append('x')".toList, true⟩⟩,
        ⟨0, ⟨3, "else:".toList, true⟩⟩, ⟨1, ⟨4, "pass".toList, true⟩⟩] := by
  have hopens : (Instruction.runStatement "if a:".toList 1).OpensOne :=
    ⟨1, "if".toList, by decide +kernel⟩
  have hreopens : (Instruction.runStatement "else:".toList 3).Reopens 3 :=
    ⟨"else:".toList, 3, "else".toList, by decide +kernel⟩
  have hends : (Instruction.runStatement "end".toList 4).EndsBlock 4 :=
    ⟨_, 4, "end".toList, rfl, by decide +kernel, by decide +kernel⟩
  have hbody : Generates [.emitText ['x'] 2] [⟨0, ⟨2, "_buf.append('x')".toList, true⟩⟩] := rfl
  have hempty : Generates [] [] := rfl
  have hif : (Instruction.runStatement "if a:".toList 1).ownLines =
      [⟨0, ⟨1, "if a:".toList, true⟩⟩] := by decide +kernel
  have helse : (Instruction.runStatement "else:".toList 3).ownLines =
      [⟨0, ⟨3, "else:".toList, true⟩⟩] := by decide +kernel
  have h := (generate_compositional "page").2.2.1 _ _ _ _ _ _ hopens hbody
    (.branch hreopens hempty (.finish hends))
  rw [hif, helse] at h
  exact h

end Stencil
