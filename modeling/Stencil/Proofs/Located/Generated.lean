import Stencil.Proofs.Located.Tokens
import Stencil.Proofs.Program.Characters

/-!
# The segments behind the lines of a program

Each line of a program stands for one segment of its template, the one that added it or, for a line that
does nothing at the end, the one that opened the block. Where something other than closing brackets stands
on the line, the line map gives a line of that segment, from its opening to its closing bracket
(`exists_standsFor`): the line that goes beyond holds nothing but the end of a call.
-/

namespace Stencil

/-! ## Lines with code -/

/-- The lines of a script on which something other than closing round brackets stands. -/
def Script.Occupied (source : Text) (n : Nat) : Prop :=
  ∃ x c y, source = x ++ c :: y ∧ c ≠ ')' ∧ c ≠ '\n' ∧ n = 1 + Text.breaks x

/-- A script stands on the lines on which something stands. -/
theorem Script.located_occupied (source : Text) : Located (Occupied source) 1 source :=
  fun x c y h hbracket hbreak => ⟨x, c, y, h, hbracket, hbreak, rfl⟩

/-- The lines of a script are numbered from one. -/
theorem Script.Occupied.pos {source : Text} {n : Nat} (h : Occupied source n) : 0 < n := by
  obtain ⟨x, c, y, -, -, -, rfl⟩ := h
  omega

/-- A line on which something stands is one of the lines of a script, and holds another character than a
closing bracket. -/
theorem Script.Occupied.exists_line {source : Text} {n : Nat} (h : Occupied source n) :
    ∃ k l, n = k + 1 ∧ (Text.lines source)[k]? = some l ∧ ∃ c ∈ l, c ≠ ')' := by
  obtain ⟨x, c, y, rfl, hbracket, hbreak, rfl⟩ := h
  obtain ⟨l, hl, hc⟩ := Text.exists_line_of_append hbreak x y
  exact ⟨_, l, Nat.add_comm .., hl, c, hc, hbracket⟩

/-! ## The lines of segments -/

/-- Whether a line is one of those of a segment: the line where a literal starts, or a line from the opening
to the closing bracket of a directive. -/
def Segment.Spans : Segment → Int → Prop
  | .literal _ line, l => l = line
  | .directive d, l => d.line ≤ l ∧ l ≤ d.closeLine

/-- Whether a line of a program only ends a call behind a remark. -/
def CodeLine.EndsCall (l : CodeLine) : Prop :=
  l.text = "))".toList ∧ l.starts = false

/-- A remark puts the end of the call on a line of its own. -/
theorem exists_lines_exprCall {code : Text} (h : code.contains '#') (escaped : Bool) :
    ∃ ls : List Text, Text.lines (exprCall code escaped) = ls ++ ["))".toList] ∧
      ls.length = Text.breaks code + 1 := by
  have hbreaks : Text.breaks ("_buf.append(".toList ++
      if escaped then "_escape".toList else "_str".toList) = 0 := by
    cases escaped <;> decide
  obtain ⟨start, hstart⟩ : ∃ start, "_buf.append(".toList ++
      (if escaped then "_escape".toList else "_str".toList) = start := ⟨_, rfl⟩
  rw [hstart] at hbreaks
  have hcall : exprCall code escaped = start ++ '(' :: (code ++ ['\n']) ++ "))".toList := by
    unfold exprCall
    dsimp only
    rw [if_pos h, hstart]
  refine ⟨Text.lines (start ++ '(' :: code ++ []), ?_, ?_⟩
  · have hsplit : exprCall code escaped = (start ++ '(' :: code ++ []) ++ '\n' :: "))".toList := by
      rw [hcall, List.append_nil, List.append_assoc, List.append_assoc, List.cons_append, List.cons_append,
        List.append_assoc]
      rfl
    rw [hsplit, Text.lines_append_cons_break]
    rfl
  · rw [Text.length_lines, breaks_bracketed hbreaks rfl]

/-- The lines of an expression are at the template lines of its code, but for the one that ends the call
behind a remark. -/
theorem exprLines_aligned {code : Text} {escaped : Bool} {line : Int} {l : CodeLine}
    (h : l ∈ exprLines code escaped line) :
    line ≤ l.line ∧ (l.line ≤ line + Text.breaks code ∨ l.EndsCall) := by
  refine ⟨(exprLines_bounds h).1.1, ?_⟩
  have hle := breaks_trimEnd_le code
  rw [exprLines] at h
  split at h
  · exact absurd h List.not_mem_nil
  next hne =>
  obtain ⟨⟨t, i⟩, hx, rfl⟩ := List.mem_map.1 h
  have hfront := breaks_trimEnd (t := code) (by simpa using hne)
  by_cases hremark : (Text.trim code).contains '#'
  · obtain ⟨ls, hls, hlength⟩ := exists_lines_exprCall hremark escaped
    rw [hls, List.zipIdx_append, List.mem_append] at hx
    obtain hx | hx := hx
    · left
      have hlt : i < ls.length + 0 := List.snd_lt_of_mem_zipIdx hx
      dsimp only
      omega
    · right
      obtain ⟨rfl, rfl⟩ : t = "))".toList ∧ i = 0 + ls.length := by simpa using hx
      exact ⟨rfl, decide_eq_false (by omega)⟩
  · left
    have hlt := List.snd_lt_of_mem_zipIdx hx
    rw [Text.length_lines, breaks_exprCall, remarkBreaks, if_neg hremark] at hlt
    dsimp only at hlt ⊢
    omega

/-- Whether a line is at one of the template lines between two, or only ends a call. -/
def CodeLine.Aligned (spans : Int → Prop) (l : CodeLine) : Prop :=
  spans l.line ∨ l.EndsCall

/-- The steps for an instruction are about the template lines of its code, but for lines that only end a
call. -/
theorem Instruction.steps?_aligned {i : Instruction} {ss : List BuildStep} (h : i.steps? = some ss) :
    StepsAdd (CodeLine.Aligned fun l => i.line ≤ l ∧ l ≤ i.endLine) ss := by
  have hadd := (Instruction.steps?_bounds h).1
  cases i with
  | emitText text line | runStatement code line =>
      intro s hs
      have hstep := hadd s hs
      cases s with
      | add l => exact .inl hstep.1
      | closes l => exact .inl hstep.1
      | opens word l => trivial
  | emitExpr code escaped line =>
      obtain rfl := Option.some.inj h
      refine (steps_map_add (Q := fun _ => True) (fun l hl => ?_)).1
      obtain ⟨hlow, hhigh⟩ := exprLines_aligned hl
      exact hhigh.imp_left fun hhigh => ⟨hlow, hhigh⟩

/-- The steps for a segment are about its lines, but for lines that only end a call. -/
theorem Segment.steps_aligned {s : Segment} {i : Instruction} (hi : i ∈ s.instructions) {ss : List BuildStep}
    (hss : i.steps? = some ss) : StepsAdd (CodeLine.Aligned s.Spans) ss ∧ StepsOpen s.Spans ss := by
  have hspans : ∀ l, i.line ≤ l ∧ l ≤ i.endLine → s.Spans l := by
    intro l hl
    cases s with
    | literal t line =>
        rw [List.mem_singleton.1 hi] at hl
        exact Int.le_antisymm hl.2 hl.1
    | directive d =>
        obtain ⟨hline, hend, -⟩ := Directive.instructions_bounds hi
        exact ⟨Int.le_trans hline hl.1, Int.le_trans hl.2 hend⟩
  refine ⟨fun step hstep => ?_, fun word l hl => hspans l ((Instruction.steps?_bounds hss).2 word l hl)⟩
  have hadd := Instruction.steps?_aligned hss step hstep
  cases step with
  | add l => exact hadd.imp_left (hspans _)
  | closes l => exact hadd.imp_left (hspans _)
  | opens word l => trivial

/-! ## Open blocks -/

namespace Draft

variable {d d' : Draft} {k : Block}

/-- A block that is open behind a step was open before it, or the step opens it. -/
theorem of_mem_blocks_step? {s : BuildStep} (h : d.step? s = some d') (hk : k ∈ d'.blocks) :
    k ∈ d.blocks ∨ s = .opens k.word k.line := by
  cases s with
  | add l =>
      obtain rfl := Option.some.inj h
      exact .inl hk
  | opens word line =>
      obtain rfl := Option.some.inj h
      obtain rfl | hk := List.mem_cons.1 hk
      · exact .inr rfl
      · exact .inl hk
  | closes line =>
      rw [step?] at h
      split at h
      · cases h
      next block outer hblocks =>
      obtain rfl := Option.some.inj h
      exact .inl (hblocks ▸ List.mem_cons_of_mem _ hk)

/-- A block that is open behind steps was open before them, or one of them opens it. -/
theorem of_mem_blocks_run? {ss : List BuildStep} (h : d.run? ss = some d') (hk : k ∈ d'.blocks) :
    k ∈ d.blocks ∨ .opens k.word k.line ∈ ss := by
  induction ss generalizing d with
  | nil =>
      obtain rfl := Option.some.inj h
      exact .inl hk
  | cons s ss ih =>
      obtain ⟨d₁, hstep, hrest⟩ := Option.bind_eq_some_iff.1 h
      obtain hk | hk := ih hrest
      · exact (of_mem_blocks_step? hstep hk).imp_right fun heq => List.mem_cons.2 (.inl heq.symm)
      · exact .inr (List.mem_cons_of_mem _ hk)

/-- A block that is open behind instructions was open before them, or one of them opens it. -/
theorem of_mem_blocks_instructAll? {is : List Instruction} (h : d.instructAll? is = some d')
    (hk : k ∈ d'.blocks) :
    k ∈ d.blocks ∨ ∃ i ∈ is, ∃ ss, i.steps? = some ss ∧ .opens k.word k.line ∈ ss := by
  induction is generalizing d with
  | nil =>
      obtain rfl := Option.some.inj h
      exact .inl hk
  | cons i is ih =>
      rw [instructAll?_cons, Option.bind_eq_some_iff] at h
      obtain ⟨d₁, hi, hrest⟩ := h
      obtain ⟨ss, hss, hrun⟩ := Option.bind_eq_some_iff.1 hi
      obtain hk | ⟨i', hi', hopens⟩ := ih hrest
      · exact (of_mem_blocks_run? hrun hk).imp_right fun h => ⟨i, List.mem_cons_self, ss, hss, h⟩
      · exact .inr ⟨i', List.mem_cons_of_mem _ hi', hopens⟩

end Draft

/-- Whether a segment of a template opens a block. -/
def OpenedFor (template : String) (segments : List Segment) (s : Segment) (k : Block) : Prop :=
  ∃ before after b b', segments = before ++ s :: after ∧
    (Instruction.ofSegments before).foldlM (fun b i => b.add template i) Builder.empty = .ok b ∧
    s.instructions.foldlM (fun b i => b.add template i) b = .ok b' ∧ k ∉ b.blocks ∧ k ∈ b'.blocks

/-- Whether a line of a program, counted from zero, stands for a segment of a template: the segment adds
it, or it is behind all lines that segments add, and the segment opened the block that it is in. -/
def StandsFor (template : String) (segments : List Segment) (s : Segment) (k : Nat) : Prop :=
  AddedFor template segments s k ∨ ∃ b, ∃ block ∈ b.blocks.head?, b.lines.size ≤ k ∧
    (Instruction.ofSegments segments).foldlM (fun b i => b.add template i) Builder.empty = .ok b ∧
    OpenedFor template segments s block

section

variable {template : String} {segments : List Segment} {s : Segment} {k : Block} {d : Draft}

/-- The template line of a block is one of those of the segment that opens it. -/
theorem OpenedFor.spans (h : OpenedFor template segments s k) : s.Spans k.line := by
  obtain ⟨before, after, b, b', rfl, hb, hb', hnot, hk⟩ := h
  rw [← Draft.builder_empty] at hb
  obtain ⟨d₀, hd₀, rfl⟩ := Draft.foldlM_add_eq_ok_iff.1 hb
  obtain ⟨d₁, hd₁, rfl⟩ := Draft.foldlM_add_eq_ok_iff.1 hb'
  obtain ⟨i, hi, ss, hss, hopens⟩ := (Draft.of_mem_blocks_instructAll? hd₁ hk).resolve_left hnot
  exact (Segment.steps_aligned hi hss).2 _ _ hopens

/-- Each block that is open behind segments is one that one of them opens. -/
theorem exists_openedFor {before after : List Segment} {d₀ : Draft}
    (hd₀ : Draft.empty.instructAll? (Instruction.ofSegments before) = some d₀)
    (h : d₀.instructAll? (Instruction.ofSegments after) = some d) (hnot : k ∉ d₀.blocks)
    (hk : k ∈ d.blocks) : ∃ s ∈ after, OpenedFor template (before ++ after) s k := by
  induction after generalizing before d₀ with
  | nil =>
      obtain rfl := Option.some.inj h
      exact absurd hk hnot
  | cons s after ih =>
      rw [ofSegments_cons, Draft.instructAll?_append, Option.bind_eq_some_iff] at h
      obtain ⟨d₁, hd₁, hrest⟩ := h
      by_cases hopen : k ∈ d₁.blocks
      · refine ⟨s, List.mem_cons_self, before, after, d₀.builder, d₁.builder, rfl, ?_, ?_, hnot, hopen⟩
        · exact Draft.foldlM_add_eq_ok_iff.2 ⟨d₀, hd₀, rfl⟩
        · exact Draft.foldlM_add_eq_ok_iff.2 ⟨d₁, hd₁, rfl⟩
      · have hbefore : Draft.empty.instructAll? (Instruction.ofSegments (before ++ [s])) = some d₁ := by
          rw [ofSegments_append, Draft.instructAll?_append, hd₀, Option.bind_some, ofSegments_cons,
            Draft.instructAll?_append, hd₁]
          rfl
        obtain ⟨s', hs', hopened⟩ := ih hbefore hrest hopen
        rw [List.append_assoc] at hopened
        exact ⟨s', List.mem_cons_of_mem _ hs', hopened⟩

end

/-! ## Programs -/

/-- The line map has the entry of a line that has one. -/
theorem LineMap.find?_of_get? {m : LineMap} {n l : Int} (h : m.get? n = some l) : m.find? n = some l := by
  rw [find?, h]

/-- A line of a program on which something stands is one of those that were added. -/
theorem Script.Occupied.exists_programLine {b : Builder} {n : Nat} (h : Occupied b.text n)
    (hlines : Text.lines b.text = b.lines.toList ++ [[]]) :
    ∃ k l, n = k + 1 ∧ b.lines[k]? = some l ∧ ∃ c ∈ l, c ≠ ')' := by
  obtain ⟨k, l, rfl, hl, c, hc, hbracket⟩ := h.exists_line
  refine ⟨k, l, rfl, ?_, c, hc, hbracket⟩
  rw [hlines] at hl
  obtain hlt | hge := Nat.lt_or_ge k b.lines.toList.length
  · rw [List.getElem?_append_left hlt] at hl
    rw [← hl, Array.getElem?_toList]
  · -- the text goes on with an empty line behind the last one
    rw [List.getElem?_append_right hge] at hl
    rw [List.mem_singleton.1 (List.mem_of_getElem? hl)] at hc
    exact absurd hc List.not_mem_nil

/-- Each line of a program on which something stands, closing brackets apart, stands for one segment of the
template, and the line map gives a line of that segment. -/
theorem exists_standsFor {template : String} {strict : Bool} {source : Text} {line : Int} {b : Builder}
    (h : generate template strict (Instruction.ofSegments (Segment.scan source line)) = .ok b) {n : Nat}
    (hn : Script.Occupied b.text n) :
    ∃ k l, ∃ s ∈ Segment.scan source line, n = k + 1 ∧ StandsFor template (Segment.scan source line) s k ∧
      b.lineMap.find? (k + 1) = some l ∧ s.Spans l := by
  obtain ⟨d, ls, hd, rfl, hidle⟩ := exists_draft_of_generate h
  have hextra (d : Directive) (_ : Segment.directive d ∈ Segment.scan source line) :
      (if d.overhangs then (1 : Int) else 0) ≤ 1 := by
    split <;> decide
  have hbreaks := (lines_bounds (by decide) hextra hd hidle).1
  obtain ⟨k, t, rfl, ht, c, hc, hbracket⟩ :=
    hn.exists_programLine (Draft.lines_text_builder fun l hl => (hbreaks l hl).2)
  obtain ⟨l, hl⟩ : ∃ l, (d.lines ++ ls)[k]? = some l := by
    have hlt := (Array.getElem?_eq_some_iff.1 ht).1
    rw [Draft.size_builder] at hlt
    exact ⟨_, List.getElem?_eq_getElem hlt⟩
  obtain ⟨hmap, htext⟩ := Draft.getElem?_builder (d := ⟨d.lines ++ ls, []⟩) hl
  obtain rfl : l.text = t := Option.some.inj (htext.symm.trans ht)
  have hempty : Draft.empty.instructAll? (Instruction.ofSegments []) = some Draft.empty := rfl
  rcases Nat.lt_or_ge k d.lines.length with hadded | hbehind
  · obtain ⟨s, hs, hk⟩ : ∃ s ∈ Segment.scan source line, AddedFor template (Segment.scan source line) s k :=
      exists_addedFor hempty hd (Nat.zero_le _) hadded
    obtain ⟨l', hl', haligned⟩ := hk.exists_line hd fun i hi ss hss => (Segment.steps_aligned hi hss).1
    rw [List.getElem?_append_left hadded, hl'] at hl
    obtain rfl := Option.some.inj hl
    refine ⟨k, _, s, hs, rfl, .inl hk, LineMap.find?_of_get? hmap, haligned.resolve_right ?_⟩
    rintro ⟨hends, hstarts⟩
    -- nothing but closing brackets stands on a line that only ends a call
    rw [ProgramLine.text, CodeLine.generated, if_neg (by simp [hstarts]), hends] at hc
    have hall : ∀ c ∈ "))".toList, c = ')' := by simp
    exact hbracket (hall c hc)
  · rw [List.getElem?_append_right hbehind] at hl
    obtain ⟨block, hblock, hcode⟩ := hidle l (List.mem_of_getElem? hl)
    obtain ⟨s, hs, hopened⟩ : ∃ s ∈ Segment.scan source line,
        OpenedFor template (Segment.scan source line) s block :=
      exists_openedFor hempty hd List.not_mem_nil (List.mem_of_mem_head? hblock)
    refine ⟨k, _, s, hs, rfl, .inr ⟨d.builder, block, hblock, ?_, ?_, hopened⟩,
      LineMap.find?_of_get? hmap, ?_⟩
    · rwa [Draft.size_builder]
    · exact Draft.foldlM_add_eq_ok_iff.2 ⟨d, hd, rfl⟩
    · rw [hcode]
      exact hopened.spans

end Stencil
