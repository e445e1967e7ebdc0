import Stencil.Proofs.Program.Blocks
import Stencil.Proofs.Program.TemplateLines
import Stencil.Proofs.Script.Codeless

/-!
# Bodies of blocks

A block that is closed has lines in its body: a body without lines gets one that does nothing. Lines are
counted for that, not what they hold. So a body holds a logical line unless all its lines are remarks,
and these come from statements that are nothing but remarks (`exists_logical_in_body_iff`).
-/

namespace Stencil

/-- Whether a logical line starts on a line. -/
def CodeLine.IsLogical (l : CodeLine) : Prop :=
  l.starts ∧ ¬ Script.Codeless l.text

/-- Whether a line is a remark, which no logical line goes on over. -/
def CodeLine.IsRemark (l : CodeLine) : Prop :=
  l.starts ∧ Script.Codeless l.text

/-- Whether lines hold a logical line, if they hold more than remarks. -/
def Settled (ls : List CodeLine) : Prop :=
  (∃ l ∈ ls, l.IsLogical) ∨ ∀ l ∈ ls, l.IsRemark

/-- Whether an instruction is a statement that has lines, all of them remarks. -/
def Instruction.IsRemarks (i : Instruction) : Prop :=
  ∃ code line, i = .runStatement code line ∧ codeLines code line ≠ [] ∧
    ∀ l ∈ codeLines code line, l.IsRemark

/-- Whether lines hold a logical line, if there are any. -/
def Lively (ls : List CodeLine) : Prop :=
  ls ≠ [] → ∃ l ∈ ls, l.IsLogical

variable {ls ls' : List CodeLine}

/-- A line that starts where a logical line may start is a logical line or a remark. -/
theorem CodeLine.isLogical_or_isRemark {l : CodeLine} (h : l.starts) : l.IsLogical ∨ l.IsRemark := by
  by_cases hcodeless : Script.Codeless l.text
  · exact .inr ⟨h, hcodeless⟩
  · exact .inl ⟨h, hcodeless⟩

/-- Lines of which each that goes on with a logical line has one to go on with. -/
theorem settled_of_forall (h : ∀ l ∈ ls, l.starts = false → ∃ l' ∈ ls, l'.IsLogical) : Settled ls := by
  by_cases hlogical : ∃ l ∈ ls, l.IsLogical
  · exact .inl hlogical
  · refine .inr fun l hl => ?_
    have hstarts : l.starts = true := Bool.not_eq_false _ ▸ fun hs => hlogical (h l hl hs)
    exact (CodeLine.isLogical_or_isRemark hstarts).resolve_left fun hl' => hlogical ⟨l, hl, hl'⟩

/-- Lines in two parts. -/
theorem Settled.append (h : Settled ls) (h' : Settled ls') : Settled (ls ++ ls') := by
  rcases h with ⟨l, hl, hlogical⟩ | hremarks
  · exact .inl ⟨l, List.mem_append_left _ hl, hlogical⟩
  rcases h' with ⟨l, hl, hlogical⟩ | hremarks'
  · exact .inl ⟨l, List.mem_append_right _ hl, hlogical⟩
  · exact .inr fun l hl => (List.mem_append.1 hl).elim (hremarks l) (hremarks' l)

/-- Lines in two parts. -/
theorem Lively.append (h : Lively ls) (h' : Lively ls') : Lively (ls ++ ls') := by
  intro hne
  by_cases hls : ls = []
  · subst hls
    obtain ⟨l, hl, hlogical⟩ := h' hne
    exact ⟨l, hl, hlogical⟩
  · obtain ⟨l, hl, hlogical⟩ := h hls
    exact ⟨l, List.mem_append_left _ hl, hlogical⟩

/-! ## Lines of instructions -/

/-- A line that puts out a text or a value is a logical line. -/
theorem isLogical_of_underscore {l : CodeLine} {t : Text} (hstarts : l.starts) (ht : l.text = '_' :: t) :
    l.IsLogical := by
  refine ⟨hstarts, fun hcodeless => ?_⟩
  rw [ht] at hcodeless
  exact absurd hcodeless.head_eq (by decide)

/-- The line that does nothing is a logical line. -/
theorem isLogical_idle (line : Int) : (Draft.idle line).IsLogical := by
  refine ⟨rfl, fun hcodeless => ?_⟩
  exact absurd hcodeless.head_eq (by decide)

/-- A continuation line stands behind a line that is none, on which its logical line starts and which it
follows at once or by other continuation lines. -/
theorem exists_start_of_continued {code : Text} {i : Nat} (hi : i ∈ Script.continuationLines code)
    (hlen : i < (Text.lines code).length) :
    ∃ k l, (Text.lines code)[k]? = some l ∧ k ∉ Script.continuationLines code ∧
      k + 1 ∈ Script.continuationLines code ∧ ¬ Script.Passes (l ++ ['\n']) := by
  induction i using Nat.strongRecOn with
  | ind i ih =>
      obtain ⟨k, l, hk, hl, hpasses, hbetween⟩ := Script.exists_start_not_passes hi hlen
      by_cases hcontinued : k ∈ Script.continuationLines code
      · exact ih k hk hcontinued (Nat.lt_trans hk hlen)
      · exact ⟨k, l, hl, hcontinued, hbetween (k + 1) (Nat.lt_succ_self k) hk, hpasses⟩

/-- A line of a statement that goes on with a logical line goes on with one of the statement. -/
theorem exists_logical_of_continuing {code : Text} {line : Int} {l : CodeLine}
    (hl : l ∈ codeLines code line) (hstarts : l.starts = false) :
    ∃ l' ∈ codeLines code line, l'.IsLogical := by
  rw [codeLines_eq] at hl ⊢
  obtain ⟨⟨raw, i⟩, hx, hcode⟩ := List.mem_filterMap.1 hl
  have hi : i ∈ Script.continuationLines (Text.dedent code) := by
    rw [codeLine?] at hcode
    split at hcode
    · next hcontinued => simpa using hcontinued
    · split at hcode
      · cases hcode
      · obtain rfl := Option.some.inj hcode
        cases hstarts
  have hlen : i < (Text.lines (Text.dedent code)).length := by
    rw [Text.lines_dedent, List.length_map]
    exact List.snd_lt_of_mem_zipIdx hx
  obtain ⟨k, t, ht, hnot, hnext, hpasses⟩ := exists_start_of_continued hi hlen
  have hbreak : '\n' ∉ t := Text.break_not_mem_of_mem_lines (List.mem_of_getElem? ht)
  rw [Text.lines_dedent, List.getElem?_map, Option.map_eq_some_iff] at ht
  obtain ⟨start, hstart, rfl⟩ := ht
  -- the line is not blank, and the blanks at its end are kept, so it goes into the program as it is
  have htrim : ¬ (Text.trim (Text.dedentLine (Text.margin (Text.lines code)).length start)).isEmpty := by
    intro hempty
    refine hpasses (Script.passes_of_isBlank ?_ (by simp))
    rw [List.all_append, Text.trim_eq_nil.1 (List.isEmpty_iff.1 hempty)]
    rfl
  refine ⟨⟨line + k, Text.dedentLine (Text.margin (Text.lines code)).length start, true⟩,
    List.mem_filterMap.2 ⟨(start, k), List.mk_mem_zipIdx_iff_getElem?.2 hstart, ?_⟩, rfl,
    fun hcodeless => hpasses (hcodeless.passes hbreak)⟩
  rw [codeLine?, if_neg (by simpa using hnot), if_neg htrim, if_pos (by simpa using hnext)]

/-- The lines of a statement are settled. -/
theorem settled_codeLines (code : Text) (line : Int) : Settled (codeLines code line) :=
  settled_of_forall fun _ hl hstarts => exists_logical_of_continuing hl hstarts

/-- A colon that is added keeps logical lines. -/
theorem exists_logical_addColon (h : ∃ l ∈ ls, l.IsLogical) : ∃ l ∈ addColon ls, l.IsLogical := by
  obtain ⟨l, hl, hlogical⟩ := h
  obtain ⟨init, last, rfl⟩ : ∃ init last, ls = init ++ [last] :=
    ⟨_, _, (List.dropLast_append_getLast (List.ne_nil_of_mem hl)).symm⟩
  rw [addColon_concat]
  rcases List.mem_append.1 hl with hl | hl
  · exact ⟨l, List.mem_append_left _ hl, hlogical⟩
  · obtain rfl := List.mem_singleton.1 hl
    exact ⟨_, List.mem_append_right _ List.mem_cons_self, hlogical.1,
      fun hcodeless => hlogical.2 hcodeless.of_append⟩

/-- A colon that is added keeps lines settled. -/
theorem Settled.addColon (h : Settled ls) : Settled (addColon ls) := by
  rcases h with hlogical | hremarks
  · exact .inl (exists_logical_addColon hlogical)
  · refine settled_of_forall fun l hl hstarts => ?_
    have hall : ∀ l ∈ Stencil.addColon ls, l.starts = true := by
      rcases List.eq_nil_or_concat ls with rfl | ⟨init, last, rfl⟩
      · exact fun l hl => by cases hl
      · rw [List.concat_eq_append] at hremarks ⊢
        rw [addColon_concat]
        intro l hl
        rcases List.mem_append.1 hl with hl | hl
        · exact (hremarks l (List.mem_append_left _ hl)).1
        · rw [List.mem_singleton.1 hl]
          exact (hremarks last (List.mem_append_right _ List.mem_cons_self)).1
    cases hstarts.symm.trans (hall l hl)

/-- Lines that are lively are settled. -/
theorem Lively.settled (h : Lively ls) : Settled ls := by
  by_cases hls : ls = []
  · subst hls
    exact .inr fun l hl => by cases hl
  · exact .inl (h hls)

/-- The line that puts out a text is a logical line. -/
theorem lively_textLines (text : Text) (line : Int) : Lively (textLines text line) := by
  intro hne
  rw [textLines] at hne ⊢
  split
  · next hempty => exact absurd (if_pos hempty) hne
  · exact ⟨_, List.mem_cons_self, isLogical_of_underscore rfl rfl⟩

/-- The first line that puts out a value is a logical line. -/
theorem lively_exprLines (code : Text) (escaped : Bool) (line : Int) :
    Lively (exprLines code escaped line) := by
  intro hne
  rw [exprLines] at hne ⊢
  split
  · next hempty => exact absurd (if_pos hempty) hne
  · -- the first line starts with the call
    obtain ⟨call, hcall⟩ : ∃ call, exprCall (Text.trim code) escaped = '_' :: call := ⟨_, rfl⟩
    obtain ⟨first, rest, -, hlines⟩ := Text.lines_cons (c := '_') (by decide) call
    rw [hcall, hlines, List.zipIdx_cons, List.map_cons]
    exact ⟨_, List.mem_cons_self, isLogical_of_underscore rfl rfl⟩

/-- The steps of an instruction: a block may be closed, lines are added, and a block may be opened. -/
def groupSteps (closed : Option Int) (ls : List CodeLine) (opened : Option (Text × Int)) : List BuildStep :=
  closed.toList.map .closes ++ (ls.map .add ++ opened.toList.map fun x => .opens x.1 x.2)

/-- A statement that is no end word adds its lines, with a colon or without, and may then open a block. -/
theorem exists_lines_of_openingSteps? {ss : List BuildStep} (h : openingSteps? ls = some ss) :
    ∃ (ls' : List CodeLine) (opened : Option (Text × Int)),
      ss = ls'.map .add ++ opened.toList.map (fun x => .opens x.1 x.2) ∧ (ls' = ls ∨ ls' = addColon ls) := by
  rw [openingSteps?] at h
  split at h
  · cases h
  · exact ⟨ls, none, by simpa using (Option.some.inj h).symm, .inl rfl⟩
  · obtain rfl := Option.some.inj h
    refine ⟨headerLines ls, (lastLogical (headerLines ls)).head?.map fun head =>
      (blockWord head.text, head.line), ?_, ?_⟩
    · cases (lastLogical (headerLines ls)).head? <;> rfl
    · rw [headerLines]
      split
      · exact .inl rfl
      · exact .inr rfl

/-- An instruction may close a block, then adds lines, and may then open a block. Its lines are settled,
and lively unless it is nothing but remarks. -/
theorem Instruction.exists_lines {i : Instruction} {ss : List BuildStep} (h : i.steps? = some ss) :
    ∃ closed ls opened, ss = groupSteps closed ls opened ∧ Settled ls ∧ (¬ i.IsRemarks → Lively ls) := by
  cases i with
  | emitText text line =>
      obtain rfl := Option.some.inj h
      have hlively := lively_textLines text line
      exact ⟨none, textLines text line, none, by simp [groupSteps], hlively.settled, fun _ => hlively⟩
  | emitExpr code escaped line =>
      obtain rfl := Option.some.inj h
      have hlively := lively_exprLines code escaped line
      exact ⟨none, exprLines code escaped line, none, by simp [groupSteps], hlively.settled, fun _ => hlively⟩
  | runStatement code line =>
      have hsettled := settled_codeLines code line
      have hlively (hremarks : ¬ (Instruction.runStatement code line).IsRemarks) :
          Lively (codeLines code line) := fun hne =>
        hsettled.resolve_right fun hall => hremarks ⟨code, line, rfl, hne, hall⟩
      -- what holds of the lines of the statement holds of them with a colon
      have hadded {ls' : List CodeLine}
          (hls' : ls' = codeLines code line ∨ ls' = addColon (codeLines code line)) :
          Settled ls' ∧ (¬ (Instruction.runStatement code line).IsRemarks → Lively ls') := by
        rcases hls' with rfl | rfl
        · exact ⟨hsettled, hlively⟩
        · refine ⟨hsettled.addColon, fun hremarks hne => exists_logical_addColon ?_⟩
          refine hlively hremarks fun hnil => hne ?_
          rw [hnil]
          rfl
      have hnone : Lively [] := fun hne => absurd rfl hne
      have hnothing : Settled [] ∧ (¬ (Instruction.runStatement code line).IsRemarks → Lively []) :=
        ⟨hnone.settled, fun _ => hnone⟩
      change statementSteps? code line = some ss at h
      rw [statementSteps?] at h
      split at h
      · obtain rfl := Option.some.inj h
        exact ⟨none, [], none, rfl, hnothing⟩
      · next first rest hcode =>
          rw [← hcode] at h
          split at h
          · obtain rfl := Option.some.inj h
            exact ⟨some first.line, [], none, rfl, hnothing⟩
          · split at h
            · obtain ⟨ss', hss', rfl⟩ := Option.map_eq_some_iff.1 h
              obtain ⟨ls', opened, rfl, hls'⟩ := exists_lines_of_openingSteps? hss'
              exact ⟨some first.line, ls', opened, rfl, hadded hls'⟩
            · obtain ⟨ls', opened, rfl, hls'⟩ := exists_lines_of_openingSteps? h
              exact ⟨none, ls', opened, rfl, hadded hls'⟩

/-! ## Bodies of open blocks -/

/-- A property of lines that lines in a row keep, and that the line that does nothing has. -/
structure Additive (P : List CodeLine → Prop) : Prop where
  nil : P []
  append {ls ls' : List CodeLine} : P ls → P ls' → P (ls ++ ls')
  idle (line : Int) : P [Draft.idle line]

/-- Being lively is such a property. -/
theorem additive_lively : Additive Lively :=
  ⟨fun hne => absurd rfl hne, .append, fun line _ => ⟨_, List.mem_cons_self, isLogical_idle line⟩⟩

/-- Being settled is such a property. -/
theorem additive_settled : Additive Settled :=
  ⟨additive_lively.nil.settled, .append, fun line => (additive_lively.idle line).settled⟩

namespace Draft

/-- The lines of a draft from a place on. -/
def linesFrom (d : Draft) (n : Nat) : List CodeLine :=
  (d.lines.drop n).map (·.code)

/-- Whether the body so far of each open block has a property. -/
def Holds (P : List CodeLine → Prop) (d : Draft) : Prop :=
  ∀ block ∈ d.blocks, block.size ≤ d.lines.length ∧ P (d.linesFrom block.size)

variable {P : List CodeLine → Prop} {d d' : Draft}

/-- Lines with the property that are added keep it. -/
theorem Holds.add (hP : Additive P) (h : d.Holds P) {ls : List CodeLine} (hls : P ls) :
    Holds P { d with lines := d.lines ++ ls.map (⟨d.blocks.length, ·⟩) } := by
  intro block hblock
  obtain ⟨hsize, hbody⟩ := h block hblock
  refine ⟨by rw [List.length_append]; exact Nat.le_add_right_of_le hsize, ?_⟩
  have hcodes : (ls.map (⟨d.blocks.length, ·⟩)).map ProgramLine.code = ls := by
    rw [List.map_map]
    exact List.map_id ls
  rw [linesFrom, List.drop_append_of_le_length hsize, List.map_append, hcodes]
  exact hP.append hbody hls

/-- Closing a block keeps the property for the others. -/
theorem Holds.close (hP : Additive P) (h : d.Holds P) {line : Int} (hd : d.step? (.closes line) = some d') : d'.Holds P := by
  obtain ⟨lines, blocks⟩ := d
  cases blocks with
  | nil => cases hd
  | cons block outer =>
      obtain rfl := Option.some.inj hd
      intro block' hblock'
      have hall := h block' (List.mem_cons_of_mem _ hblock')
      dsimp only
      split
      · exact Holds.add hP h (hP.idle line) block' (List.mem_cons_of_mem _ hblock')
      · exact hall

/-- An instruction whose lines have the property keeps it. -/
theorem Holds.group (hP : Additive P) (h : d.Holds P) {closed : Option Int} {ls : List CodeLine}
    {opened : Option (Text × Int)} (hls : P ls) (hd : d.run? (groupSteps closed ls opened) = some d') :
    d'.Holds P := by
  rw [groupSteps, run?_append, Option.bind_eq_some_iff] at hd
  obtain ⟨d₁, hclosed, hd⟩ := hd
  have h₁ : d₁.Holds P := by
    cases closed with
    | none =>
        obtain rfl := Option.some.inj hclosed
        exact h
    | some line =>
        have hstep : d.step? (.closes line) = some d₁ := by simpa [run?_cons] using hclosed
        exact h.close hP hstep
  rw [run?_append, run?_add, Option.bind_some] at hd
  have h₂ := h₁.add hP hls
  cases opened with
  | none =>
      obtain rfl := Option.some.inj hd
      exact h₂
  | some x =>
      obtain rfl : _ = d' := Option.some.inj hd
      intro block hblock
      rcases List.mem_cons.1 hblock with rfl | hblock
      · refine ⟨Nat.le_refl _, ?_⟩
        rw [linesFrom, List.drop_length]
        exact hP.nil
      · exact h₂ block hblock

/-- Instructions whose lines have the property keep it. -/
theorem Holds.instructAll (hP : Additive P) (h : d.Holds P) {is : List Instruction}
    (his : ∀ i ∈ is, ∀ ss, i.steps? = some ss → ∃ closed ls opened, ss = groupSteps closed ls opened ∧ P ls)
    (hd : d.instructAll? is = some d') : d'.Holds P := by
  induction is generalizing d with
  | nil =>
      obtain rfl := Option.some.inj hd
      exact h
  | cons i is ih =>
      rw [instructAll?_cons, Option.bind_eq_some_iff] at hd
      obtain ⟨d₁, hi, hd⟩ := hd
      rw [instruct?, Option.bind_eq_some_iff] at hi
      obtain ⟨ss, hss, hrun⟩ := hi
      obtain ⟨closed, ls, opened, rfl, hls⟩ := his i List.mem_cons_self ss hss
      exact ih (h.group hP hls hrun)
        (fun i' hi' => his i' (List.mem_cons_of_mem _ hi')) hd

/-- Closing blocks at the end keeps the property. -/
theorem Holds.closeAll (hP : Additive P) (h : d.Holds P) {line : Int} {n : Nat}
    (hd : d.run? (List.replicate n (.closes line)) = some d') : d'.Holds P := by
  induction n generalizing d with
  | zero =>
      obtain rfl := Option.some.inj hd
      exact h
  | succ n ih =>
      rw [List.replicate_succ, run?_cons, Option.bind_eq_some_iff] at hd
      obtain ⟨d₁, hstep, hd⟩ := hd
      exact ih (h.close hP hstep) hd

/-- A draft as it is when a program of instructions closes a block for a template line: in front of an
instruction that closes one, or at the end, where the blocks that were left open are closed one by one
for the line of the innermost. -/
inductive Closing (is : List Instruction) : Draft → Int → Prop where
  | within {before after : List Instruction} {i : Instruction} {line : Int} {ss : List BuildStep}
      {d : Draft} (his : is = before ++ i :: after) (hi : i.steps? = some (.closes line :: ss))
      (hd : empty.instructAll? before = some d) : Closing is d line
  | atEnd {d d' : Draft} {block : Block} {n : Nat} (hd : empty.instructAll? is = some d)
      (hblock : d.blocks.head? = some block)
      (hd' : d.run? (List.replicate n (.closes block.line)) = some d') : Closing is d' block.line

/-- What instructions keep holds whenever a block is closed. -/
theorem Closing.holds (hP : Additive P) {is : List Instruction} {line : Int} (h : Closing is d line)
    (his : ∀ i ∈ is, ∀ ss, i.steps? = some ss → ∃ closed ls opened, ss = groupSteps closed ls opened ∧ P ls) :
    d.Holds P := by
  have hempty : empty.Holds P := fun block hblock => by cases hblock
  cases h with
  | within heq _ hd =>
      refine hempty.instructAll hP (fun i hi => his i ?_) hd
      rw [heq]
      exact List.mem_append_left _ hi
  | atEnd hd _ hd' => exact (hempty.instructAll hP his hd).closeAll hP hd'

/-- Closing the innermost block leaves its body with lines, and with the property. -/
theorem Holds.body (hP : Additive P) (h : d.Holds P) {block : Block} {outer : List Block}
    (hblocks : d.blocks = block :: outer) (line : Int) : ∃ d', d.step? (.closes line) = some d' ∧
      d'.linesFrom block.size ≠ [] ∧ P (d'.linesFrom block.size) := by
  obtain ⟨lines, blocks⟩ := d
  subst hblocks
  obtain ⟨hsize, hbody⟩ := h block List.mem_cons_self
  dsimp only at hsize
  by_cases hempty : lines.length = block.size
  · have hbody' : linesFrom ⟨lines ++ [⟨(block :: outer).length, idle line⟩], outer⟩ block.size =
        [idle line] := by
      simp [linesFrom, ← hempty]
    refine ⟨_, rfl, ?_, ?_⟩ <;> dsimp only <;> rw [if_pos hempty]
    · exact hbody' ▸ List.cons_ne_nil _ _
    · exact hbody' ▸ hP.idle line
  · refine ⟨_, rfl, ?_, ?_⟩ <;> dsimp only <;> rw [if_neg hempty]
    · simp [linesFrom]
      omega
    · exact hbody

/-! ## Programs -/

/-- Steps leave the lines that are there. -/
theorem prefix_of_run? {ss : List BuildStep} (h : d.run? ss = some d') : d.lines <+: d'.lines := by
  obtain ⟨ls, hls, -⟩ := run?_adds (P := fun _ => True) h fun s _ => by cases s <;> trivial
  exact ⟨ls, hls.symm⟩

/-- Closing all open blocks of a draft closes those of its builder. -/
theorem exists_run_closeAll (d : Draft) (line : Int) : ∃ d',
    d.run? (List.replicate d.blocks.length (.closes line)) = some d' ∧
      Builder.closeAll line d.blocks.length d.builder = d'.builder := by
  obtain ⟨n, hn⟩ : ∃ n, d.blocks.length = n := ⟨_, rfl⟩
  rw [hn]
  induction n generalizing d with
  | zero => exact ⟨d, rfl, rfl⟩
  | succ n ih =>
      obtain ⟨lines, blocks⟩ := d
      cases blocks with
      | nil => cases hn
      | cons block outer =>
          obtain ⟨d₁, hstep, hblocks⟩ : ∃ d₁, step? ⟨lines, block :: outer⟩ (.closes line) = some d₁ ∧
              d₁.blocks = outer := ⟨_, rfl, rfl⟩
          obtain ⟨d', hrun, hclose⟩ := ih d₁ (hblocks ▸ Nat.succ.inj hn)
          refine ⟨d', ?_, ?_⟩
          · rw [List.replicate_succ, run?_cons, hstep, Option.bind_some, hrun]
          · have hbuilder := step?_builder ⟨lines, block :: outer⟩ (.closes line)
            rw [hstep, Option.map_some, Builder.step?, Option.map_eq_some_iff] at hbuilder
            obtain ⟨⟨b, closed⟩, hb, rfl⟩ := hbuilder
            rw [Builder.closeAll, hb]
            exact hclose

end Draft

/-- A program that is generated is that of a draft whose open blocks are closed for the line of the
innermost. In strict mode there are none. -/
theorem exists_closed_of_generate {template : String} {strict : Bool} {is : List Instruction} {b : Builder}
    (h : generate template strict is = .ok b) : ∃ d line dₙ, Draft.empty.instructAll? is = some d ∧
      (∀ block, d.blocks.head? = some block → line = block.line) ∧
      d.run? (List.replicate d.blocks.length (.closes line)) = some dₙ ∧ b = dₙ.builder := by
  rw [generate, ← Draft.builder_empty] at h
  cases hfold : is.foldlM (fun b i => b.add template i) Draft.empty.builder with
  | error e =>
      rw [hfold] at h
      cases h
  | ok b₁ =>
      rw [hfold] at h
      obtain ⟨d, hd, rfl⟩ := Draft.foldlM_add_eq_ok_iff.1 hfold
      have hfinish : d.builder.finish template strict = .ok b := h
      rw [Builder.finish] at hfinish
      split at hfinish
      · next hblocks =>
          have hnil : d.blocks = [] := hblocks
          refine ⟨d, 0, d, hd, ?_, ?_, (Except.ok.inj hfinish).symm⟩ <;> rw [hnil]
          · intro block hblock
            cases hblock
          · rfl
      · next block outer hblocks =>
          have hcons : d.blocks = block :: outer := hblocks
          obtain ⟨dₙ, hrun, hclose⟩ := d.exists_run_closeAll block.line
          refine ⟨d, block.line, dₙ, hd, ?_, hrun, ?_⟩
          · rw [hcons]
            intro block' hblock'
            rw [Option.some.inj hblock']
          · split at hfinish
            · cases hfinish
            · exact (Except.ok.inj hfinish).symm.trans hclose

/-- Each closing takes one open block. -/
theorem Draft.length_blocks_of_closes {d d' : Draft} {line : Int} {n : Nat}
    (h : d.run? (List.replicate n (.closes line)) = some d') : d'.blocks.length + n = d.blocks.length := by
  induction n generalizing d with
  | zero =>
      obtain rfl := Option.some.inj h
      rfl
  | succ n ih =>
      rw [List.replicate_succ, run?_cons, Option.bind_eq_some_iff] at h
      obtain ⟨d₁, hstep, hrest⟩ := h
      obtain ⟨lines, blocks⟩ := d
      cases blocks with
      | nil => cases hstep
      | cons block outer =>
          obtain rfl := Option.some.inj hstep
          have hlength := ih hrest
          dsimp only at hlength ⊢
          rw [List.length_cons, ← hlength, Nat.add_assoc]

/-- The lines of a block that is closed are lines of the program. -/
theorem Draft.Closing.lines_prefix {is : List Instruction} {d d₀ d' dₙ : Draft} {line line₀ : Int}
    (h : Closing is d line) (hd₀ : empty.instructAll? is = some d₀)
    (hline : ∀ block, d₀.blocks.head? = some block → line₀ = block.line)
    (hrun : d₀.run? (List.replicate d₀.blocks.length (.closes line₀)) = some dₙ)
    (hstep : d.step? (.closes line) = some d') : d'.lines <+: dₙ.lines := by
  cases h with
  | @within before after i _ ss _ his hi hd =>
      -- the rest of the instruction and the instructions behind it only add lines
      rw [his, instructAll?_append, hd, Option.bind_some, instructAll?_cons, instruct?, hi,
        Option.bind_some, run?_cons, hstep, Option.bind_some, Option.bind_eq_some_iff] at hd₀
      obtain ⟨d₁, hss, hafter⟩ := hd₀
      exact (prefix_of_run? hss).trans
        ((prefix_of_instructAll? hafter).trans (prefix_of_run? hrun))
  | @atEnd d₁ _ block n hd hblock hd' =>
      obtain rfl := Option.some.inj (hd₀.symm.trans hd)
      obtain rfl := hline block hblock
      have hclosed : d₀.run? (List.replicate (n + 1) (.closes block.line)) = some d' := by
        rw [List.replicate_succ', run?_append, hd', Option.bind_some, run?_cons, hstep]
        rfl
      obtain ⟨m, hm⟩ := Nat.exists_eq_add_of_le
        (Nat.le.intro ((Nat.add_comm _ _).trans (length_blocks_of_closes hclosed)))
      rw [hm, List.replicate_add, run?_append, hclosed, Option.bind_some] at hrun
      exact prefix_of_run? hrun

/-- Every block that a program closes has a body with lines. A logical line is among them exactly when they
are not all remarks, and so whenever no statement is nothing but remarks. -/
theorem exists_logical_in_body_iff {template : String} {strict : Bool} {is : List Instruction} {b : Builder}
    (h : generate template strict is = .ok b) : ∃ dₙ : Draft, b = dₙ.builder ∧
      ∀ d line block outer, Draft.Closing is d line → d.blocks = block :: outer →
        ∃ d', d.step? (.closes line) = some d' ∧ d'.lines <+: dₙ.lines ∧ d'.linesFrom block.size ≠ [] ∧
          ((∃ l ∈ d'.linesFrom block.size, l.IsLogical) ↔
            ¬ ∀ l ∈ d'.linesFrom block.size, l.IsRemark) ∧
          ((∀ i ∈ is, ¬ i.IsRemarks) → ∃ l ∈ d'.linesFrom block.size, l.IsLogical) := by
  obtain ⟨d₀, line₀, dₙ, hd₀, hline, hrun, rfl⟩ := exists_closed_of_generate h
  refine ⟨dₙ, rfl, fun d line block outer hclosing hblocks => ?_⟩
  have hsettled : d.Holds Settled := hclosing.holds additive_settled fun i _ ss hss => by
    obtain ⟨closed, ls, opened, heq, hls, -⟩ := Instruction.exists_lines hss
    exact ⟨closed, ls, opened, heq, hls⟩
  obtain ⟨d', hstep, hne, hbody⟩ := hsettled.body additive_settled hblocks line
  refine ⟨d', hstep, hclosing.lines_prefix hd₀ hline hrun hstep, hne, ⟨?_, hbody.resolve_right⟩, fun his => ?_⟩
  · rintro ⟨l, hl, hlogical⟩ hremarks
    exact hlogical.2 (hremarks l hl).2
  · have hlively : d.Holds Lively := hclosing.holds additive_lively fun i hi ss hss => by
      obtain ⟨closed, ls, opened, heq, -, hls⟩ := Instruction.exists_lines hss
      exact ⟨closed, ls, opened, heq, hls (his i hi)⟩
    obtain ⟨d'', hstep', -, hbody'⟩ := hlively.body additive_lively hblocks line
    obtain rfl := Option.some.inj (hstep.symm.trans hstep')
    exact hbody' hne

deriving instance DecidableEq for BuildStep

deriving instance DecidableEq for Draft

/-- A choice whose branch is a remark. -/
def remarkBlock : List Instruction :=
  [.runStatement "if x".toList 1, .runStatement "# c".toList 1, .runStatement "end".toList 1]

/-- The block of the choice is closed without a logical line in its body, and the program is none. -/
theorem not_logical_remarkBlock : ∃ b, generate "page" true remarkBlock = .ok b ∧
    b.text = "if x:\n    # c\n".toList ∧ ¬ (Script.check b.text).isOk ∧
    ∃ (dₙ d d' : Draft) (block : Block), b = dₙ.builder ∧ Draft.Closing remarkBlock d 1 ∧
      d.blocks = [block] ∧ d.step? (.closes 1) = some d' ∧ d'.linesFrom block.size ≠ [] ∧
        ¬ ∃ l ∈ d'.linesFrom block.size, l.IsLogical := by
  have hgenerate : generate "page" true remarkBlock =
      .ok ⟨#["if x:".toList, "    # c".toList], ⟨[(1, 1), (2, 1)]⟩, 0, []⟩ := by decide +kernel
  obtain ⟨dₙ, hb, hbodies⟩ := exists_logical_in_body_iff hgenerate
  let d : Draft := ⟨[⟨0, ⟨1, "if x:".toList, true⟩⟩, ⟨1, ⟨1, "# c".toList, true⟩⟩], [⟨"if".toList, 1, 1⟩]⟩
  have hsplit : remarkBlock =
      [.runStatement "if x".toList 1, .runStatement "# c".toList 1] ++ .runStatement "end".toList 1 :: [] := rfl
  have hcloses : (Instruction.runStatement "end".toList 1).steps? = some [.closes 1] := by decide +kernel
  have hclosing : Draft.Closing remarkBlock d 1 := .within hsplit hcloses (by decide +kernel)
  obtain ⟨d', hstep, -, hne, hiff, -⟩ := hbodies d 1 _ _ hclosing rfl
  refine ⟨_, hgenerate, by decide +kernel, by decide +kernel, dₙ, d, d', _, hb, hclosing, rfl, hstep, hne, ?_⟩
  rw [hiff, Classical.not_not]
  obtain rfl := Option.some.inj hstep
  have hremark : CodeLine.IsRemark ⟨1, "# c".toList, true⟩ :=
    ⟨rfl, .remark (r := [' ', 'c']) (t := []) (by decide) (fun c hc => by cases hc) .nil⟩
  intro l hl
  obtain rfl := List.mem_singleton.1 hl
  exact hremark

end Stencil
