import Stencil.Proofs.Program.Bodies

/-!
# Columns of headers and bodies

The indentation of a program goes by the number of open blocks alone, while a line may stand further to
the right within its own statement. So a body stands deeper than the header that opened its block, unless
the header stands four columns or more to the right of the margin of its statement
(`bodies_deeper_iff`).
-/

namespace Stencil

/-! ## Columns -/

namespace Text

/-- The column behind the gaps at the start of a text that starts in a column. A tab goes on to the next
multiple of eight. -/
def columnFrom (n : Nat) : Text → Nat
  | ' ' :: r => columnFrom (n + 1) r
  | '\t' :: r => columnFrom ((n / 8 + 1) * 8) r
  | _ => n

/-- Spaces in front move the column by their number. -/
theorem columnFrom_spaces (n k : Nat) (t : Text) :
    columnFrom n (List.replicate k ' ' ++ t) = columnFrom (n + k) t := by
  induction k generalizing n with
  | zero => rfl
  | succ k ih =>
      rw [List.replicate_succ, List.cons_append, columnFrom, ih, Nat.add_assoc, Nat.add_comm 1]

/-- Gaps move the column to the right. -/
theorem le_columnFrom (n : Nat) (t : Text) : n ≤ columnFrom n t := by
  fun_induction columnFrom n t with
  | case1 n r ih => omega
  | case2 n r ih => omega
  | case3 t n => exact Nat.le_refl n

/-- What follows a text that is not all gaps leaves its column. -/
theorem columnFrom_append {t : Text} (h : ¬ t.all isGap) (n : Nat) (ending : Text) :
    columnFrom n (t ++ ending) = columnFrom n t := by
  fun_induction columnFrom n t with
  | case1 n r ih => exact ih h
  | case2 n r ih => exact ih h
  | case3 t n hspace htab =>
      cases t with
      | nil => exact absurd rfl h
      | cons c r =>
          rw [List.cons_append, columnFrom]
          · rintro _ ⟨⟩
            exact hspace r rfl
          · rintro _ ⟨⟩
            exact htab r rfl

end Text

/-- The column in which a line of a program starts. -/
def ProgramLine.column (l : ProgramLine) : Nat :=
  Text.columnFrom 0 l.text

namespace ProgramLine

variable {l : ProgramLine}

/-- The gaps of an indented line start behind the indentation of the blocks around it. -/
theorem column_eq (h : l.code.starts) :
    l.column = Text.columnFrom (Builder.indentStep * l.depth) l.code.text := by
  rw [column, text, CodeLine.generated, if_pos h, Text.columnFrom_spaces, Nat.zero_add]

/-- An indented line stands at least as deep as the blocks around it. -/
theorem le_column (h : l.code.starts) : Builder.indentStep * l.depth ≤ l.column := by
  rw [column_eq h]
  exact Text.le_columnFrom _ _

end ProgramLine

/-! ## Lines of statements -/

/-- Whether a line has no gaps of its own in front. -/
def CodeLine.IsFlush (l : CodeLine) : Prop :=
  ∀ n, Text.columnFrom n l.text = n

/-- Whether a line stands as far to the right of the margin of a statement as the statement has it. -/
def CodeLine.StandsIn (l : CodeLine) (code : Text) (start : Int) : Prop :=
  ¬ l.text.all Text.isGap ∧ ∃ (k : Nat) (raw : Text), (Text.lines code)[k]? = some raw ∧
    l.line = start + k ∧ ∀ n, Text.columnFrom n l.text =
      Text.columnFrom n (raw.drop (Text.margin (Text.lines code)).length)

/-- A text that is not blank is not all gaps. -/
theorem Text.not_all_gaps {t : Text} (h : ¬ (trim t).isEmpty) : ¬ t.all isGap := by
  intro hgaps
  refine h (List.isEmpty_iff.2 (trim_eq_nil.2 ?_))
  exact List.all_eq_true.2 fun c hc => isBlank_of_isGap (List.all_eq_true.1 hgaps c hc)

/-- The lines of a statement that start logical lines stand as the statement has them. -/
theorem standsIn_of_mem_codeLines {code : Text} {start : Int} {l : CodeLine}
    (h : l ∈ codeLines code start) (hstarts : l.starts) : l.StandsIn code start := by
  rw [codeLines_eq] at h
  obtain ⟨⟨raw, k⟩, hx, hl⟩ := List.mem_filterMap.1 h
  have hmem : raw ∈ Text.lines code := List.fst_mem_of_mem_zipIdx hx
  have hget : (Text.lines code)[k]? = some raw := List.mk_mem_zipIdx_iff_getElem?.1 hx
  rw [codeLine?] at hl
  split at hl
  · obtain rfl := Option.some.inj hl
    cases hstarts
  split at hl
  · cases hl
  · next htrim =>
      obtain rfl := Option.some.inj hl
      have hraw : ¬ raw.all Text.isGap := by
        rw [Text.trim_dedentLine hmem] at htrim
        exact Text.not_all_gaps htrim
      have hdedent : Text.dedentLine (Text.margin (Text.lines code)).length raw =
          raw.drop (Text.margin (Text.lines code)).length := if_neg hraw
      rw [hdedent] at htrim ⊢
      split
      · exact ⟨Text.not_all_gaps htrim, k, raw, hget, rfl, fun n => rfl⟩
      · have hends : ¬ (Text.trimEnd (raw.drop (Text.margin (Text.lines code)).length)).all Text.isGap := by
          refine Text.not_all_gaps ?_
          rwa [Text.trim_trimEnd]
        refine ⟨hends, k, raw, hget, rfl, fun n => ?_⟩
        obtain ⟨ending, heq, -⟩ :=
          Text.exists_blank_ending (raw.drop (Text.margin (Text.lines code)).length)
        conv => rhs; rw [heq]
        exact (Text.columnFrom_append hends n ending).symm

/-- The lines of a statement stand as the statement has them when it gets the colon of a header. -/
theorem standsIn_of_mem_headerLines {code : Text} {start : Int} {l : CodeLine}
    (h : l ∈ headerLines (codeLines code start)) (hstarts : l.starts) : l.StandsIn code start := by
  rw [headerLines] at h
  split at h
  · exact standsIn_of_mem_codeLines h hstarts
  · rcases List.eq_nil_or_concat (codeLines code start) with hnil | ⟨init, last, hconcat⟩
    · rw [hnil] at h
      cases h
    · rw [hconcat, List.concat_eq_append, addColon_concat] at h
      have hmem {l : CodeLine} (hl : l ∈ init ++ [last]) : l ∈ codeLines code start := by
        rwa [hconcat, List.concat_eq_append]
      rcases List.mem_append.1 h with h | h
      · exact standsIn_of_mem_codeLines (hmem (List.mem_append_left _ h)) hstarts
      · obtain rfl := List.mem_singleton.1 h
        obtain ⟨hgaps, k, raw, hraw, hline, hcolumn⟩ :=
          standsIn_of_mem_codeLines (hmem (List.mem_append_right _ List.mem_cons_self)) hstarts
        refine ⟨fun hall => hgaps ?_, k, raw, hraw, hline, fun n => ?_⟩
        · rw [List.all_append, Bool.and_eq_true] at hall
          exact hall.1
        · rw [Text.columnFrom_append hgaps, hcolumn]

/-- Lines of which one starts a logical line end with a last logical line. -/
theorem exists_lastLogical {ls : List CodeLine} (h : ∃ l ∈ ls, l.starts) : ∃ before head rest,
    ls = before ++ head :: rest ∧ lastLogical ls = head :: rest ∧ head.starts ∧
      ∀ l ∈ rest, l.starts = false := by
  obtain ⟨ls', hls'⟩ : ∃ ls', ls = ls'.reverse := ⟨ls.reverse, ls.reverse_reverse.symm⟩
  subst hls'
  obtain ⟨l, hl, hstarts⟩ := h
  -- behind the last line that starts a logical line only such stand that go on with it
  have hsplit : (ls'.takeWhile fun l => !l.starts) ++ (ls'.dropWhile fun l => !l.starts) = ls' :=
    List.takeWhile_append_dropWhile
  cases hdrop : ls'.dropWhile fun l => !l.starts with
  | nil =>
      have hall := List.dropWhile_eq_nil_iff.1 hdrop l (List.mem_reverse.1 hl)
      rw [hstarts] at hall
      cases hall
  | cons head before =>
      have hhead : head.starts := by
        have hnot := List.head?_dropWhile_not (fun l : CodeLine => !l.starts) ls'
        rw [hdrop] at hnot
        simpa using hnot
      rw [hdrop] at hsplit
      have hreverse : ls'.reverse = before.reverse ++ head :: (ls'.takeWhile fun l => !l.starts).reverse := by
        conv => lhs; rw [← hsplit]
        rw [List.reverse_append, List.reverse_cons, List.append_assoc]
        rfl
      refine ⟨before.reverse, head, _, hreverse, ?_, hhead, fun l hl => ?_⟩
      · rw [lastLogical, List.reverse_reverse, List.length_reverse]
        have hlen := congrArg List.length hsplit
        rw [List.length_append, List.length_cons] at hlen
        have hcount : ls'.length - (ls'.takeWhile fun l => !l.starts).length - 1 =
            before.reverse.length := by
          rw [List.length_reverse]
          omega
        rw [hcount, hreverse, List.drop_left]
      · have hnot := List.mem_takeWhile_imp (List.mem_reverse.1 hl)
        simpa using hnot

/-- The first line of a statement starts a logical line. -/
theorem exists_codeLines_cons {code : Text} {start : Int} (h : codeLines code start ≠ []) :
    ∃ first more, codeLines code start = first :: more ∧ first.starts := by
  rcases codeLines_cases code start with ⟨-, hnil⟩ | ⟨-, -, first, more, -, hcode, hstarts, -⟩
  · exact absurd hnil h
  · exact ⟨first, more, hcode, hstarts⟩

/-- The colon of a header leaves whether a logical line starts on the first line. -/
theorem exists_headerLines_cons (first : CodeLine) (more : List CodeLine) : ∃ first' more',
    headerLines (first :: more) = first' :: more' ∧ first'.starts = first.starts := by
  rw [headerLines]
  split
  · exact ⟨first, more, rfl, rfl⟩
  · cases more with
    | nil => exact ⟨_, [], rfl, rfl⟩
    | cons l more =>
        obtain ⟨init, last, hlast⟩ : ∃ init last, l :: more = init ++ [last] :=
          ⟨_, _, (List.dropLast_append_getLast (List.cons_ne_nil l more)).symm⟩
        rw [hlast, ← List.cons_append, addColon_concat]
        exact ⟨first, _, rfl, rfl⟩

/-! ## Headers of blocks -/

/-- A block is opened by a statement whose last logical line is the header, behind the lines of the
statement. -/
theorem Instruction.exists_header {i : Instruction} {ss : List BuildStep} {word : Text} {line : Int}
    (h : i.steps? = some ss) (hopens : .opens word line ∈ ss) : ∃ code start head rest,
      i = .runStatement code start ∧ codeLines code start ≠ [] ∧
      ss.filterMap BuildStep.line? = headerLines (codeLines code start) ∧
      lastLogical (headerLines (codeLines code start)) = head :: rest ∧
      word = blockWord head.text ∧ line = head.line := by
  have hadd (ls : List CodeLine) : .opens word line ∉ ls.map BuildStep.add := by simp
  have hlines (ls : List CodeLine) : (ls.map BuildStep.add).filterMap BuildStep.line? = ls := by
    rw [List.filterMap_map]
    exact List.filterMap_some
  -- the steps behind the closing of a block that the statement continues
  have hopening {ls : List CodeLine} {ss : List BuildStep} (hss : openingSteps? ls = some ss)
      (hmem : .opens word line ∈ ss) : ss.filterMap BuildStep.line? = headerLines ls ∧
        ∃ head rest, lastLogical (headerLines ls) = head :: rest ∧
          word = blockWord head.text ∧ line = head.line := by
    rw [openingSteps?] at hss
    split at hss
    · cases hss
    · obtain rfl := Option.some.inj hss
      exact absurd hmem (hadd ls)
    · obtain rfl := Option.some.inj hss
      cases hlast : lastLogical (headerLines ls) with
      | nil =>
          rw [hlast] at hmem
          exact absurd hmem (by simp)
      | cons head rest =>
          rw [hlast] at hmem
          rw [List.filterMap_append, hlines]
          have hword : word = blockWord head.text ∧ line = head.line := by simpa using hmem
          exact ⟨List.append_nil _, head, rest, rfl, hword⟩
  cases i with
  | emitText text line =>
      obtain rfl := Option.some.inj h
      exact absurd hopens (hadd _)
  | emitExpr code escaped line =>
      obtain rfl := Option.some.inj h
      exact absurd hopens (hadd _)
  | runStatement code start =>
      change statementSteps? code start = some ss at h
      rw [statementSteps?] at h
      split at h
      · obtain rfl := Option.some.inj h
        cases hopens
      · next first rest hcode =>
          rw [← hcode] at h
          have hne : codeLines code start ≠ [] := hcode ▸ List.cons_ne_nil first rest
          split at h
          · obtain rfl := Option.some.inj h
            cases List.mem_singleton.1 hopens
          · split at h
            · obtain ⟨ss', hss', rfl⟩ := Option.map_eq_some_iff.1 h
              rcases List.mem_cons.1 hopens with hcloses | hmem
              · cases hcloses
              · obtain ⟨hls, head, more, hhead⟩ := hopening hss' hmem
                exact ⟨code, start, head, more, rfl, hne, hls, hhead⟩
            · obtain ⟨hls, head, more, hhead⟩ := hopening h hopens
              exact ⟨code, start, head, more, rfl, hne, hls, hhead⟩

/-- The lines that the steps of an instruction add. -/
theorem filterMap_line?_groupSteps (closed : Option Int) (ls : List CodeLine)
    (opened : Option (Text × Int)) : (groupSteps closed ls opened).filterMap BuildStep.line? = ls := by
  have hadd : (ls.map BuildStep.add).filterMap BuildStep.line? = ls := by
    rw [List.filterMap_map]
    exact List.filterMap_some
  rw [groupSteps, List.filterMap_append, List.filterMap_append, hadd]
  cases closed <;> cases opened <;> simp [List.filterMap_cons, BuildStep.line?]

namespace Draft

/-- The line with the header of a block: a statement of the instructions has its last logical line start
there, and only the rest of that logical line stands between it and the body. -/
structure HeadedBy (is : List Instruction) (d : Draft) (block : Block) (head : ProgramLine) : Prop where
  statement : ∃ code start rest, .runStatement code start ∈ is ∧
    lastLogical (headerLines (codeLines code start)) = head.code :: rest ∧
    head.code.StandsIn code start
  word : block.word = blockWord head.code.text
  line : block.line = head.code.line
  starts : head.code.starts
  ahead : ∃ before rest, d.lines.take block.size = before ++ head :: rest ∧
    ∀ l ∈ rest, l.code.starts = false

/-- Whether the lines of a draft are nested as its open blocks are: the header of a block stands as deep
as there are blocks around it, and the lines behind the header deeper. -/
def Nested (is : List Instruction) (d : Draft) : Prop :=
  ∀ inner block outer, d.blocks = inner ++ block :: outer →
    block.size ≤ d.lines.length ∧ (∀ l ∈ d.lines.drop block.size, outer.length < l.depth) ∧
      ∃ head, HeadedBy is d block head ∧ head.depth = outer.length

variable {is : List Instruction} {d d' : Draft} {block : Block} {head : ProgramLine}

/-- The header of a block stays when lines are added behind it. -/
theorem HeadedBy.mono (h : HeadedBy is d block head) (hsize : block.size ≤ d.lines.length)
    (hlines : d.lines <+: d'.lines) : HeadedBy is d' block head := by
  obtain ⟨ls, hls⟩ := hlines
  refine { h with ahead := ?_ }
  rw [← hls, List.take_append_of_le_length hsize]
  exact h.ahead

/-- Lines that are added at the indentation of the draft are nested as it is. -/
theorem Nested.add (h : d.Nested is) (ls : List CodeLine) :
    Nested is { d with lines := d.lines ++ ls.map (⟨d.blocks.length, ·⟩) } := by
  intro inner block outer hblocks
  obtain ⟨hsize, hdeep, head, hhead, hdepth⟩ := h inner block outer hblocks
  refine ⟨?_, fun l hl => ?_, head, hhead.mono hsize (List.prefix_append _ _), hdepth⟩
  · rw [List.length_append]
    exact Nat.le_add_right_of_le hsize
  · rw [List.drop_append_of_le_length hsize] at hl
    rcases List.mem_append.1 hl with hl | hl
    · exact hdeep l hl
    · obtain ⟨code, -, rfl⟩ := List.mem_map.1 hl
      have hblocks : d.blocks = inner ++ block :: outer := hblocks
      dsimp only
      rw [hblocks, List.length_append, List.length_cons]
      omega

/-- Closing a block leaves the lines nested as the others are. -/
theorem Nested.close (h : d.Nested is) {line : Int} (hd : d.step? (.closes line) = some d') :
    d'.Nested is := by
  obtain ⟨lines, blocks⟩ := d
  cases blocks with
  | nil => cases hd
  | cons closed outer =>
      obtain rfl := Option.some.inj hd
      have hadd := h.add [idle line]
      intro inner block outer' hblocks
      have hblocks : outer = inner ++ block :: outer' := hblocks
      have hcons : closed :: outer = (closed :: inner) ++ block :: outer' := by
        rw [hblocks]
        rfl
      by_cases hsize : lines.length = closed.size
      · dsimp only
        simp only [hsize, if_true]
        obtain ⟨hle, hdeep, head, hhead, hdepth⟩ := hadd (closed :: inner) block outer' hcons
        exact ⟨hle, hdeep, head, hhead.mono hle (List.prefix_refl _), hdepth⟩
      · dsimp only
        simp only [hsize, if_false]
        obtain ⟨hle, hdeep, head, hhead, hdepth⟩ := h (closed :: inner) block outer' hcons
        exact ⟨hle, hdeep, head, hhead.mono hle (List.prefix_refl _), hdepth⟩

/-- An instruction leaves lines nested as the blocks are. -/
theorem Nested.instruct (h : d.Nested is) {i : Instruction} (hi : i ∈ is) (hd : d.instruct? i = some d') :
    d'.Nested is := by
  rw [instruct?, Option.bind_eq_some_iff] at hd
  obtain ⟨ss, hss, hd⟩ := hd
  obtain ⟨closed, ls, opened, rfl, -⟩ := Instruction.exists_lines hss
  have hheader {word : Text} {line : Int} := @Instruction.exists_header i _ word line hss
  rw [filterMap_line?_groupSteps] at hheader
  rw [groupSteps, run?_append, Option.bind_eq_some_iff] at hd
  obtain ⟨d₁, hclosed, hd⟩ := hd
  have h₁ : d₁.Nested is := by
    cases closed with
    | none =>
        obtain rfl := Option.some.inj hclosed
        exact h
    | some line =>
        have hstep : d.step? (.closes line) = some d₁ := by simpa [run?_cons] using hclosed
        exact h.close hstep
  rw [run?_append, run?_add, Option.bind_some] at hd
  have h₂ := h₁.add ls
  cases opened with
  | none =>
      obtain rfl := Option.some.inj hd
      exact h₂
  | some x =>
      obtain rfl : _ = d' := Option.some.inj hd
      obtain ⟨code, start, head, rest, rfl, hne, rfl, hlast, hword, hline⟩ :=
        @hheader x.1 x.2 (by simp [groupSteps])
      obtain ⟨first, more, hcode, hfirst⟩ := exists_codeLines_cons hne
      obtain ⟨first', more', hheader', hfirst'⟩ := exists_headerLines_cons first more
      obtain ⟨before, head', rest', hls, hlast', hstarts, hcontinuing⟩ :=
        exists_lastLogical (show ∃ l ∈ headerLines (codeLines code start), l.starts from
          ⟨first', by rw [hcode, hheader']; exact List.mem_cons_self, hfirst'.trans hfirst⟩)
      obtain ⟨rfl, rfl⟩ := List.cons.inj (hlast.symm.trans hlast')
      intro inner block outer hblocks
      cases inner with
      | nil =>
          obtain ⟨rfl, rfl⟩ := List.cons.inj hblocks
          refine ⟨Nat.le_refl _, fun l hl => ?_, ⟨d₁.blocks.length, head⟩, ⟨?_, hword, hline, hstarts, ?_⟩, rfl⟩
          · rw [List.drop_length] at hl
            cases hl
          · refine ⟨code, start, rest, hi, hlast, standsIn_of_mem_headerLines ?_ hstarts⟩
            rw [hls]
            exact List.mem_append_right _ List.mem_cons_self
          · refine ⟨d₁.lines ++ before.map (⟨d₁.blocks.length, ·⟩), rest.map (⟨d₁.blocks.length, ·⟩), ?_,
              fun l hl => ?_⟩
            · dsimp only
              rw [List.take_length, hls, List.map_append, List.map_cons, List.append_assoc]
            · obtain ⟨l', hl', rfl⟩ := List.mem_map.1 hl
              exact hcontinuing l' hl'
      | cons opened inner =>
          obtain ⟨-, hblocks⟩ := List.cons.inj hblocks
          obtain ⟨hle, hdeep, head, hhead, hdepth⟩ := h₂ inner block outer hblocks
          exact ⟨hle, hdeep, head, hhead.mono hle (List.prefix_refl _), hdepth⟩

/-- Instructions leave lines nested as the blocks are. -/
theorem Nested.instructAll (h : d.Nested is) {is' : List Instruction} (his : ∀ i ∈ is', i ∈ is)
    (hd : d.instructAll? is' = some d') : d'.Nested is := by
  induction is' generalizing d with
  | nil =>
      obtain rfl := Option.some.inj hd
      exact h
  | cons i is' ih =>
      rw [instructAll?_cons, Option.bind_eq_some_iff] at hd
      obtain ⟨d₁, hi, hd⟩ := hd
      exact ih (h.instruct (his i List.mem_cons_self) hi)
        (fun i' hi' => his i' (List.mem_cons_of_mem _ hi')) hd

/-- Closing blocks at the end leaves lines nested as the others are. -/
theorem Nested.closeAll (h : d.Nested is) {line : Int} {n : Nat}
    (hd : d.run? (List.replicate n (.closes line)) = some d') : d'.Nested is := by
  induction n generalizing d with
  | zero =>
      obtain rfl := Option.some.inj hd
      exact h
  | succ n ih =>
      rw [List.replicate_succ, run?_cons, Option.bind_eq_some_iff] at hd
      obtain ⟨d₁, hstep, hd⟩ := hd
      exact ih (h.close hstep) hd

/-- Whenever a block is closed the lines are nested as the blocks are. -/
theorem Closing.nested {line : Int} (h : Closing is d line) : d.Nested is := by
  have hempty : empty.Nested is := fun inner block outer hblocks => by
    cases (List.nil_eq_append_iff.1 hblocks).2
  cases h with
  | within his _ hd =>
      refine hempty.instructAll (fun i hi => ?_) hd
      rw [his]
      exact List.mem_append_left _ hi
  | atEnd hd _ hd' => exact (hempty.instructAll (fun i hi => hi) hd).closeAll hd'

/-- Closing the innermost block leaves its header in front of its body, all of which is nested deeper. -/
theorem Nested.body (h : d.Nested is) {outer : List Block} (hblocks : d.blocks = block :: outer)
    (line : Int) : ∃ d' head, d.step? (.closes line) = some d' ∧ HeadedBy is d' block head ∧
      head.depth = outer.length ∧ ∀ l ∈ d'.lines.drop block.size, outer.length < l.depth := by
  obtain ⟨lines, blocks⟩ := d
  obtain rfl : blocks = block :: outer := hblocks
  by_cases hsize : lines.length = block.size
  · obtain ⟨hle, hdeep, head, hhead, hdepth⟩ := h.add [idle line] [] block outer rfl
    refine ⟨_, head, rfl, ?_, hdepth, ?_⟩ <;> dsimp only <;> rw [if_pos hsize]
    · exact hhead.mono hle (List.prefix_refl _)
    · exact hdeep
  · obtain ⟨hle, hdeep, head, hhead, hdepth⟩ := h [] block outer rfl
    refine ⟨_, head, rfl, ?_, hdepth, ?_⟩ <;> dsimp only <;> rw [if_neg hsize]
    · exact hhead.mono hle (List.prefix_refl _)
    · exact hdeep

end Draft

/-- A logical line starts on the first line of a statement that goes on with a block. -/
theorem Instruction.starts_of_reopens {i : Instruction} {line : Int} {first : CodeLine} {ss : List BuildStep}
    (h : i.steps? = some (.closes line :: .add first :: ss)) : first.starts := by
  -- the lines of the statement, with a colon or without, are added one by one
  have hadd {ls : List CodeLine} (ends : List BuildStep) {l : CodeLine}
      (hls : ∃ more, ls = l :: more) (hstarts : l.starts)
      (hss : ls.map .add ++ ends = .add first :: ss) : first.starts := by
    obtain ⟨more, rfl⟩ := hls
    obtain ⟨hl, -⟩ := List.cons.inj hss
    obtain rfl := BuildStep.add.inj hl
    exact hstarts
  have hnot (ls : List CodeLine) : ls.map .add ≠ BuildStep.closes line :: .add first :: ss := by
    cases ls with
    | nil => exact fun h => by cases h
    | cons l ls => exact fun h => by cases (List.cons.inj h).1
  cases i with
  | emitText text start => exact absurd (Option.some.inj h) (hnot _)
  | emitExpr code escaped start => exact absurd (Option.some.inj h) (hnot _)
  | runStatement code start =>
      change statementSteps? code start = _ at h
      rw [statementSteps?] at h
      split at h
      · cases h
      · next l more hcode =>
          obtain ⟨l', more', hcode', hstarts⟩ := exists_codeLines_cons (hcode ▸ List.cons_ne_nil l more)
          obtain ⟨rfl, rfl⟩ := List.cons.inj (hcode.symm.trans hcode')
          obtain ⟨l', more', hheader, hstarts'⟩ := exists_headerLines_cons l more
          split at h
          · cases h
          split at h
          · obtain ⟨ss', hss', hcons⟩ := Option.map_eq_some_iff.1 h
            obtain ⟨-, rfl⟩ := List.cons.inj hcons
            rw [openingSteps?] at hss'
            split at hss'
            · cases hss'
            · exact hadd [] ⟨more, rfl⟩ hstarts
                ((List.append_nil _).trans (Option.some.inj hss'))
            · exact hadd _ ⟨more', hheader⟩ (hstarts'.trans hstarts) (Option.some.inj hss')
          · rw [openingSteps?] at h
            split at h
            · cases h
            · exact absurd (Option.some.inj h) (hnot _)
            · rw [hheader] at h
              cases (List.cons.inj (Option.some.inj h)).1

/-- The line with which a statement goes on with a block stands as deep as the header, behind the body. -/
theorem Draft.Closing.getElem?_continuation {is before after : List Instruction} {i : Instruction}
    {d d₀ d' dₙ : Draft} {line line₀ : Int} {first : CodeLine} {ss : List BuildStep}
    (his : is = before ++ i :: after) (hi : i.steps? = some (.closes line :: .add first :: ss))
    (hd : empty.instructAll? before = some d) (hd₀ : empty.instructAll? is = some d₀)
    (hrun : d₀.run? (List.replicate d₀.blocks.length (.closes line₀)) = some dₙ)
    (hstep : d.step? (.closes line) = some d') :
    dₙ.lines[d'.lines.length]? = some ⟨d'.blocks.length, first⟩ := by
  rw [his, instructAll?_append, hd, Option.bind_some, instructAll?_cons, instruct?, hi,
    Option.bind_some, run?_cons, hstep, Option.bind_some, run?_cons, step?, Option.bind_some,
    Option.bind_eq_some_iff] at hd₀
  obtain ⟨d₁, hss, hafter⟩ := hd₀
  obtain ⟨ls, hls⟩ := (prefix_of_run? hss).trans
    ((prefix_of_instructAll? hafter).trans (prefix_of_run? hrun))
  rw [← hls, add, List.append_assoc, List.getElem?_append_right (Nat.le_refl _), Nat.sub_self]
  rfl

/-- The header of every block that a program closes stands in front of the body, and all lines of the body
that are indented stand four columns to the right of where the statement of the header does, or more. So
they stand to the right of the header unless the header stands four columns or more to the right of the
margin of its statement. A statement that goes on with the block stands where the statement of the header
does, in the column of the header when neither has gaps of its own. -/
theorem bodies_deeper_iff {template : String} {strict : Bool} {is : List Instruction} {b : Builder}
    (h : generate template strict is = .ok b) : ∃ dₙ : Draft, b = dₙ.builder ∧
      ∀ d line block outer, Draft.Closing is d line → d.blocks = block :: outer →
        ∃ d' head, d.step? (.closes line) = some d' ∧ d'.lines <+: dₙ.lines ∧
          Draft.HeadedBy is d' block head ∧
          head.column = Text.columnFrom (Builder.indentStep * outer.length) head.code.text ∧
          (∀ l ∈ d'.lines.drop block.size, l.code.starts →
            Builder.indentStep * (outer.length + 1) ≤ l.column) ∧
          (head.column < Builder.indentStep * (outer.length + 1) →
            ∀ l ∈ d'.lines.drop block.size, l.code.starts → head.column < l.column) ∧
          (∀ l ∈ d'.lines.drop block.size, l.depth = outer.length + 1 → l.code.starts → l.code.IsFlush →
            (head.column < l.column ↔ head.column < Builder.indentStep * (outer.length + 1))) ∧
          ∀ before i after first ss, is = before ++ i :: after →
            i.steps? = some (.closes line :: .add first :: ss) → Draft.empty.instructAll? before = some d →
              ∃ l, dₙ.lines[d'.lines.length]? = some l ∧ l.code = first ∧
                l.column = Text.columnFrom (Builder.indentStep * outer.length) first.text ∧
                (head.code.IsFlush → first.IsFlush → l.column = head.column) := by
  obtain ⟨d₀, line₀, dₙ, hd₀, hline, hrun, rfl⟩ := exists_closed_of_generate h
  refine ⟨dₙ, rfl, fun d line block outer hclosing hblocks => ?_⟩
  obtain ⟨d', head, hstep, hhead, hdepth, hdeep⟩ := hclosing.nested.body hblocks line
  have hcolumn : head.column = Text.columnFrom (Builder.indentStep * outer.length) head.code.text :=
    hdepth ▸ ProgramLine.column_eq hhead.starts
  have hbody : ∀ l ∈ d'.lines.drop block.size, l.code.starts →
      Builder.indentStep * (outer.length + 1) ≤ l.column := fun l hl hstarts =>
    Nat.le_trans (Nat.mul_le_mul_left _ (hdeep l hl)) (ProgramLine.le_column hstarts)
  refine ⟨d', head, hstep, hclosing.lines_prefix hd₀ hline hrun hstep, hhead, hcolumn, hbody,
    fun hlt l hl hstarts => Nat.lt_of_lt_of_le hlt (hbody l hl hstarts), ?_, ?_⟩
  · intro l hl hdepth hstarts hflush
    rw [ProgramLine.column_eq hstarts, hflush, hdepth]
  · intro before i after first ss his hi hd
    have hget := Draft.Closing.getElem?_continuation his hi hd hd₀ hrun hstep
    have houter : d'.blocks = outer := by
      obtain ⟨lines, blocks⟩ := d
      obtain rfl : blocks = block :: outer := hblocks
      exact (congrArg Draft.blocks (Option.some.inj hstep)).symm
    rw [houter] at hget
    have hfirst := ProgramLine.column_eq (l := ⟨outer.length, first⟩) (Instruction.starts_of_reopens hi)
    refine ⟨_, hget, rfl, hfirst, fun hflush hflush' => ?_⟩
    rw [hcolumn, hflush]
    exact hfirst.trans (hflush' _)

/-- A statement whose last logical line is the header of a block within another one. -/
def choiceInChoice : List Instruction :=
  [.runStatement "if a:\n    if b:".toList 1, .emitText ['x'] 2, .runStatement "end".toList 2]

/-- The text of the body stands in the column of the header, and the program is none. -/
theorem not_deeper_choiceInChoice : ∃ b, generate "page" true choiceInChoice = .ok b ∧
    b.text = "if a:\n    if b:\n    _buf.append('x')\n".toList ∧ ¬ (Script.check b.text).isOk ∧
    ∃ (dₙ d d' : Draft) (block : Block) (head l : ProgramLine), b = dₙ.builder ∧
      Draft.Closing choiceInChoice d 2 ∧ d.blocks = [block] ∧ d.step? (.closes 2) = some d' ∧
      Draft.HeadedBy choiceInChoice d' block head ∧ l ∈ d'.lines.drop block.size ∧ l.code.starts ∧
      l.column = 4 ∧ head.column = 4 := by
  have hgenerate : generate "page" true choiceInChoice =
      .ok ⟨#["if a:".toList, "    if b:".toList, "    _buf.append('x')".toList],
        ⟨[(1, 1), (2, 2), (3, 2)]⟩, 0, []⟩ := by decide +kernel
  obtain ⟨dₙ, hb, hbodies⟩ := bodies_deeper_iff hgenerate
  let d : Draft := ⟨[⟨0, ⟨1, "if a:".toList, true⟩⟩, ⟨0, ⟨2, "    if b:".toList, true⟩⟩,
    ⟨1, ⟨2, "_buf.append('x')".toList, true⟩⟩], [⟨"if".toList, 2, 2⟩]⟩
  have hsplit : choiceInChoice = [.runStatement "if a:\n    if b:".toList 1, .emitText ['x'] 2] ++
      .runStatement "end".toList 2 :: [] := rfl
  have hcloses : (Instruction.runStatement "end".toList 2).steps? = some [.closes 2] := by decide +kernel
  have hclosing : Draft.Closing choiceInChoice d 2 := .within hsplit hcloses (by decide +kernel)
  obtain ⟨d', head, hstep, -, hhead, -⟩ := hbodies d 2 _ _ hclosing rfl
  obtain rfl := Option.some.inj hstep
  -- a line on which a logical line starts is the last one ahead of the body, so it is the header
  obtain ⟨before, rest, hahead, hcontinuing⟩ := hhead.ahead
  have hlast : (before ++ head :: rest).getLast? = some ⟨0, ⟨2, "    if b:".toList, true⟩⟩ :=
    hahead ▸ rfl
  obtain rfl : rest = [] := by
    rcases List.eq_nil_or_concat rest with rfl | ⟨init, l, rfl⟩
    · rfl
    · rw [List.concat_eq_append, ← List.cons_append, ← List.append_assoc, List.getLast?_concat] at hlast
      cases (hcontinuing l (by simp)).symm.trans (congrArg (·.code.starts) (Option.some.inj hlast))
  obtain rfl := Option.some.inj (List.getLast?_concat.symm.trans hlast)
  refine ⟨_, hgenerate, by decide +kernel, by decide +kernel, dₙ, d, _, _, _,
    ⟨1, ⟨2, "_buf.append('x')".toList, true⟩⟩, hb, hclosing, rfl, hstep, hhead, ?_⟩
  decide +kernel

end Stencil
