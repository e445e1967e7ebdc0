import Stencil.Proofs.Program.Draft
import Stencil.Proofs.Script.Quoted
import Stencil.Proofs.Segment.Positions

/-!
# The template lines of program lines

The line map of a generated program numbers its lines without a gap. What a literal adds belongs to the
line where the literal starts, and what a directive adds belongs to the lines from its opening bracket to
its closing bracket, with one exception: behind an expression that ends with a remark, the line that
closes the call belongs to the line after the closing bracket, unless the directive itself has a line
break there (`lineMap_generate`).
-/

namespace Stencil

/-! ## Lines of instructions -/

/-- The lines that steps add have a property, and so have the lines that would be added where a block
without lines is closed. -/
def StepsAdd (P : CodeLine → Prop) (ss : List BuildStep) : Prop :=
  ∀ s ∈ ss, match s with
    | .add l => P l
    | .closes line => P (Draft.idle line)
    | .opens _ _ => True

/-- The template lines at which steps open blocks have a property. -/
def StepsOpen (Q : Int → Prop) (ss : List BuildStep) : Prop :=
  ∀ word line, .opens word line ∈ ss → Q line

namespace Draft

variable {d d' : Draft} {P : CodeLine → Prop} {Q : Int → Prop}

/-- What a step adds. -/
theorem step?_adds {s : BuildStep} (h : d.step? s = some d') (hadds : StepsAdd P [s]) :
    ∃ ls, d'.lines = d.lines ++ ls ∧ ∀ l ∈ ls, P l.code := by
  have hs := hadds s List.mem_cons_self
  cases s with
  | add l =>
      obtain rfl := Option.some.inj h
      refine ⟨[⟨d.blocks.length, l⟩], rfl, fun l' hl' => ?_⟩
      rw [List.mem_singleton.1 hl']
      exact hs
  | opens word line =>
      obtain rfl := Option.some.inj h
      exact ⟨[], (List.append_nil _).symm, fun l hl => absurd hl List.not_mem_nil⟩
  | closes line =>
      rw [step?] at h
      split at h
      · cases h
      · obtain rfl := Option.some.inj h
        dsimp only
        split
        · refine ⟨[⟨d.blocks.length, idle line⟩], rfl, fun l' hl' => ?_⟩
          rw [List.mem_singleton.1 hl']
          exact hs
        · exact ⟨[], (List.append_nil _).symm, fun l hl => absurd hl List.not_mem_nil⟩

/-- What steps add. -/
theorem run?_adds {ss : List BuildStep} (h : d.run? ss = some d') (hadds : StepsAdd P ss) :
    ∃ ls, d'.lines = d.lines ++ ls ∧ ∀ l ∈ ls, P l.code := by
  induction ss generalizing d with
  | nil =>
      obtain rfl := Option.some.inj h
      exact ⟨[], (List.append_nil _).symm, fun l hl => absurd hl List.not_mem_nil⟩
  | cons s ss ih =>
      obtain ⟨d₁, hstep, hrest⟩ := Option.bind_eq_some_iff.1 h
      obtain ⟨ls, hls, hP⟩ := step?_adds hstep fun s' hs' => hadds s' (by
        rw [List.mem_singleton.1 hs']
        exact List.mem_cons_self)
      obtain ⟨ls', hls', hP'⟩ := ih hrest fun s' hs' => hadds s' (List.mem_cons_of_mem _ hs')
      refine ⟨ls ++ ls', by rw [hls', hls, List.append_assoc], fun l hl => ?_⟩
      exact (List.mem_append.1 hl).elim (hP l) (hP' l)

/-- The blocks that are open behind a step. -/
theorem step?_opens {s : BuildStep} (h : d.step? s = some d') (hopens : StepsOpen Q [s])
    (hd : ∀ k ∈ d.blocks, Q k.line) : ∀ k ∈ d'.blocks, Q k.line := by
  cases s with
  | add l =>
      obtain rfl := Option.some.inj h
      exact hd
  | opens word line =>
      obtain rfl := Option.some.inj h
      intro k hk
      rcases List.mem_cons.1 hk with rfl | hk
      · exact hopens word line List.mem_cons_self
      · exact hd k hk
  | closes line =>
      rw [step?] at h
      split at h
      · cases h
      · next block outer hblocks =>
          obtain rfl := Option.some.inj h
          exact fun k hk => hd k (hblocks ▸ List.mem_cons_of_mem _ hk)

/-- The blocks that are open behind steps. -/
theorem run?_opens {ss : List BuildStep} (h : d.run? ss = some d') (hopens : StepsOpen Q ss)
    (hd : ∀ k ∈ d.blocks, Q k.line) : ∀ k ∈ d'.blocks, Q k.line := by
  induction ss generalizing d with
  | nil =>
      obtain rfl := Option.some.inj h
      exact hd
  | cons s ss ih =>
      obtain ⟨d₁, hstep, hrest⟩ := Option.bind_eq_some_iff.1 h
      refine ih hrest (fun word line hs => hopens word line (List.mem_cons_of_mem _ hs)) ?_
      refine step?_opens hstep (fun word line hs => hopens word line ?_) hd
      rw [List.mem_singleton.1 hs]
      exact List.mem_cons_self

/-- What instructions add, and the blocks that are open behind them. -/
theorem instructAll?_adds {is : List Instruction} (h : d.instructAll? is = some d')
    (hadds : ∀ i ∈ is, ∀ ss, i.steps? = some ss → StepsAdd P ss ∧ StepsOpen Q ss)
    (hd : ∀ k ∈ d.blocks, Q k.line) :
    (∃ ls, d'.lines = d.lines ++ ls ∧ ∀ l ∈ ls, P l.code) ∧ ∀ k ∈ d'.blocks, Q k.line := by
  induction is generalizing d with
  | nil =>
      obtain rfl := Option.some.inj h
      exact ⟨⟨[], (List.append_nil _).symm, fun l hl => absurd hl List.not_mem_nil⟩, hd⟩
  | cons i is ih =>
      rw [instructAll?_cons, Option.bind_eq_some_iff] at h
      obtain ⟨d₁, hi, hrest⟩ := h
      obtain ⟨ss, hss, hrun⟩ := Option.bind_eq_some_iff.1 hi
      obtain ⟨hadd, hopen⟩ := hadds i List.mem_cons_self ss hss
      obtain ⟨ls, hls, hP⟩ := run?_adds hrun hadd
      obtain ⟨⟨ls', hls', hP'⟩, hd'⟩ := ih hrest
        (fun i hi => hadds i (List.mem_cons_of_mem _ hi)) (run?_opens hrun hopen hd)
      refine ⟨⟨ls ++ ls', by rw [hls', hls, List.append_assoc], fun l hl => ?_⟩, hd'⟩
      exact (List.mem_append.1 hl).elim (hP l) (hP' l)

/-- Instructions leave the lines that are there. -/
theorem prefix_of_instructAll? {is : List Instruction} (h : d.instructAll? is = some d') :
    d.lines <+: d'.lines := by
  obtain ⟨⟨ls, hls, -⟩, -⟩ := instructAll?_adds (P := fun _ => True) (Q := fun _ => True) h
    (fun i hi ss hss => ⟨fun s hs => by cases s <;> trivial, fun word line hs => trivial⟩)
    fun k hk => trivial
  exact ⟨ls, hls.symm⟩

/-- A line that is there stays in its place. -/
theorem getElem?_of_instructAll? {is : List Instruction} (h : d.instructAll? is = some d') {k : Nat}
    {l : ProgramLine} (hl : d.lines[k]? = some l) : d'.lines[k]? = some l := by
  obtain ⟨ls, hls⟩ := prefix_of_instructAll? h
  rw [← hls, List.getElem?_append_left (List.getElem?_eq_some_iff.1 hl).1, hl]

end Draft

/-! ## The lines of statements -/

/-- A colon changes nothing but the text of a line. -/
theorem exists_of_mem_addColon {ls : List CodeLine} {l : CodeLine} (h : l ∈ addColon ls) :
    ∃ l' ∈ ls, l.line = l'.line ∧ (l.text = l'.text ∨ l.text = l'.text ++ [':']) := by
  cases ls using List.reverseRecOn with
  | nil => exact absurd h List.not_mem_nil
  | append_singleton init last =>
      rw [addColon_concat, List.mem_append, List.mem_singleton] at h
      rcases h with h | rfl
      · exact ⟨l, List.mem_append_left _ h, rfl, .inl rfl⟩
      · exact ⟨last, List.mem_append_right _ List.mem_cons_self, rfl, .inr rfl⟩

/-- The lines of a header are those of the statement, with a colon or without. -/
theorem exists_of_mem_headerLines {ls : List CodeLine} {l : CodeLine} (h : l ∈ headerLines ls) :
    ∃ l' ∈ ls, l.line = l'.line ∧ (l.text = l'.text ∨ l.text = l'.text ++ [':']) := by
  rw [headerLines] at h
  split at h
  · exact ⟨l, h, rfl, .inl rfl⟩
  · exact exists_of_mem_addColon h

/-- What steps for lines add and open: lines as they are, with a colon or without. -/
theorem of_mem_openingSteps? {ls : List CodeLine} {ss : List BuildStep}
    (h : openingSteps? ls = some ss) {s : BuildStep} (hs : s ∈ ss) :
    (∃ l, s = .add l ∧ ∃ l' ∈ ls, l.line = l'.line ∧ (l.text = l'.text ∨ l.text = l'.text ++ [':'])) ∨
      ∃ word, ∃ l ∈ ls, s = .opens word l.line := by
  rw [openingSteps?] at h
  split at h
  · cases h
  · obtain rfl := Option.some.inj h
    obtain ⟨l, hl, rfl⟩ := List.mem_map.1 hs
    exact .inl ⟨l, rfl, l, hl, rfl, .inl rfl⟩
  · obtain rfl := Option.some.inj h
    rcases List.mem_append.1 hs with hs | hs
    · obtain ⟨l, hl, rfl⟩ := List.mem_map.1 hs
      exact .inl ⟨l, rfl, exists_of_mem_headerLines hl⟩
    · obtain ⟨head, hhead, rfl⟩ := List.mem_map.1 hs
      have hmem : head ∈ headerLines ls :=
        List.mem_of_mem_drop (List.mem_of_mem_head? (Option.mem_toList.1 hhead))
      obtain ⟨l', hl', hline, -⟩ := exists_of_mem_headerLines hmem
      exact .inr ⟨_, l', hl', congrArg _ hline⟩

/-- What steps for a statement add and open. -/
theorem of_mem_statementSteps? {code : Text} {line : Int} {ss : List BuildStep}
    (h : statementSteps? code line = some ss) {s : BuildStep} (hs : s ∈ ss) :
    ∃ l' ∈ codeLines code line,
      (∃ l, s = .add l ∧ l.line = l'.line ∧ (l.text = l'.text ∨ l.text = l'.text ++ [':'])) ∨
      (∃ word, s = .opens word l'.line) ∨ s = .closes l'.line := by
  rw [statementSteps?] at h
  cases hcode : codeLines code line with
  | nil =>
      rw [hcode] at h
      obtain rfl := Option.some.inj h
      exact absurd hs List.not_mem_nil
  | cons first rest =>
      rw [hcode] at h
      have hopening {ss : List BuildStep} (h : openingSteps? (first :: rest) = some ss) (hs : s ∈ ss) :
          ∃ l' ∈ first :: rest,
            (∃ l, s = .add l ∧ l.line = l'.line ∧ (l.text = l'.text ∨ l.text = l'.text ++ [':'])) ∨
            (∃ word, s = .opens word l'.line) ∨ s = .closes l'.line := by
        rcases of_mem_openingSteps? h hs with ⟨l, rfl, l', hl', hl⟩ | ⟨word, l', hl', rfl⟩
        · exact ⟨l', hl', .inl ⟨l, rfl, hl⟩⟩
        · exact ⟨l', hl', .inr (.inl ⟨word, rfl⟩)⟩
      dsimp only at h
      split at h
      · obtain rfl := Option.some.inj h
        exact ⟨first, List.mem_cons_self, .inr (.inr (List.mem_singleton.1 hs))⟩
      split at h
      · obtain ⟨ss', hss', rfl⟩ := Option.map_eq_some_iff.1 h
        rcases List.mem_cons.1 hs with rfl | hs
        · exact ⟨first, List.mem_cons_self, .inr (.inr rfl)⟩
        · exact hopening hss' hs
      · exact hopening h hs

/-- The lines of a statement are at the template lines of its code, and hold no line breaks. -/
theorem codeLines_bounds {code : Text} {line : Int} {l : CodeLine} (h : l ∈ codeLines code line) :
    (line ≤ l.line ∧ l.line ≤ line + Text.breaks code) ∧ '\n' ∉ l.text := by
  rw [codeLines_eq] at h
  obtain ⟨x, hx, hl⟩ := List.mem_filterMap.1 h
  have hindex : x.2 < Text.breaks code + 1 := by
    rw [← Text.length_lines]
    exact List.snd_lt_of_mem_zipIdx hx
  have hbreak : '\n' ∉ Text.dedentLine (Text.margin (Text.lines code)).length x.1 := fun hmem =>
    Text.break_not_mem_of_mem_lines (List.fst_mem_of_mem_zipIdx hx) (Text.mem_of_mem_dedentLine hmem)
  have hline : l.line = line + x.2 ∧ '\n' ∉ l.text := by
    rw [codeLine?] at hl
    split at hl
    · obtain rfl := Option.some.inj hl
      exact ⟨rfl, hbreak⟩
    · split at hl
      · cases hl
      · obtain rfl := Option.some.inj hl
        refine ⟨rfl, ?_⟩
        dsimp only
        split
        · exact hbreak
        · exact fun hmem => hbreak (Text.mem_of_mem_trimEnd hmem)
  exact ⟨by omega, hline.2⟩

/-! ## The lines of expressions -/

/-- The line breaks of a text up to its last character that is not blank are those of its blanks in front
and those of what is left when it is trimmed. -/
theorem breaks_trimEnd {t : Text} (h : Text.trim t ≠ []) :
    Text.breaks (Text.trimEnd t) = Text.breaks (t.takeWhile Text.isBlank) + Text.breaks (Text.trim t) := by
  obtain ⟨ending, heq, -⟩ := Text.exists_blank_ending t
  have htrim : Text.trim t = (Text.trimEnd t).dropWhile Text.isBlank := Text.trimStart_trimEnd t |>.symm
  have hshort : ((Text.trimEnd t).takeWhile Text.isBlank).length ≠ (Text.trimEnd t).length := by
    intro hlength
    have hsplit := congrArg List.length
      (List.takeWhile_append_dropWhile (p := Text.isBlank) (l := Text.trimEnd t))
    rw [List.length_append, hlength] at hsplit
    exact h (htrim ▸ List.length_eq_zero_iff.1 (by omega))
  have hfront : t.takeWhile Text.isBlank = (Text.trimEnd t).takeWhile Text.isBlank := by
    conv => lhs; rw [heq]
    rw [List.takeWhile_append, if_neg hshort]
  rw [hfront, htrim, Text.breaks, Text.breaks, Text.breaks, ← List.count_append,
    List.takeWhile_append_dropWhile]

/-- A text has no more line breaks up to its last character that is not blank than it has. -/
theorem breaks_trimEnd_le (t : Text) : Text.breaks (Text.trimEnd t) ≤ Text.breaks t := by
  obtain ⟨ending, heq, -⟩ := Text.exists_blank_ending t
  conv => rhs; rw [heq, Text.breaks, List.count_append]
  exact Nat.le_add_right _ _

/-- The line breaks that a remark adds to an expression. -/
def remarkBreaks (code : Text) : Nat :=
  if (Text.trim code).contains '#' then 1 else 0

/-- A text between brackets without line breaks has the line breaks of the call. -/
theorem breaks_bracketed {start ending : Text} (hstart : Text.breaks start = 0)
    (hending : Text.breaks ending = 0) (body : Text) :
    Text.breaks (start ++ '(' :: body ++ ending) = Text.breaks body := by
  rw [Text.breaks_append, Text.breaks_append, hstart, hending, Nat.zero_add, Nat.add_zero]
  exact List.count_cons_of_ne (by decide)

/-- The line breaks of the call for an expression. -/
theorem breaks_exprCall (code : Text) (escaped : Bool) :
    Text.breaks (exprCall (Text.trim code) escaped) = Text.breaks (Text.trim code) + remarkBreaks code := by
  have hcall : Text.breaks ("_buf.append(".toList ++
      if escaped then "_escape".toList else "_str".toList) = 0 := by
    cases escaped <;> decide
  have hbody : Text.breaks (if (Text.trim code).contains '#' then Text.trim code ++ ['\n']
      else Text.trim code) = Text.breaks (Text.trim code) + remarkBreaks code := by
    rw [remarkBreaks]
    split
    · rw [Text.breaks_append]
      rfl
    · rfl
  exact (breaks_bracketed hcall (by decide) _).trans hbody

/-- The template line of the last line for an expression. -/
def exprLastLine (code : Text) (line : Int) : Int :=
  line + Text.breaks (Text.trimEnd code) + remarkBreaks code

/-- The lines of an expression are at the template lines of its code, but for the line that closes the
call behind a remark. They hold no line breaks. -/
theorem exprLines_bounds {code : Text} {escaped : Bool} {line : Int} {l : CodeLine}
    (h : l ∈ exprLines code escaped line) :
    (line ≤ l.line ∧ l.line ≤ exprLastLine code line) ∧ '\n' ∉ l.text := by
  rw [exprLines] at h
  split at h
  · exact absurd h List.not_mem_nil
  · next hne =>
      obtain ⟨x, hx, rfl⟩ := List.mem_map.1 h
      have hindex := List.snd_lt_of_mem_zipIdx hx
      rw [Text.length_lines, breaks_exprCall] at hindex
      have hbreaks := breaks_trimEnd (t := code) (by simpa using hne)
      refine ⟨?_, Text.break_not_mem_of_mem_lines (List.fst_mem_of_mem_zipIdx hx)⟩
      rw [exprLastLine, hbreaks]
      dsimp only
      omega

/-- The last line for an expression is at its last template line. -/
theorem exists_exprLastLine {code : Text} (h : Text.trim code ≠ []) (escaped : Bool) (line : Int) :
    ∃ l ∈ exprLines code escaped line, l.line = exprLastLine code line := by
  have hbreaks := breaks_exprCall code escaped
  have hlength := Text.length_lines (exprCall (Text.trim code) escaped)
  obtain ⟨t, ht⟩ : ∃ t, (Text.lines (exprCall (Text.trim code) escaped))[
      Text.breaks (exprCall (Text.trim code) escaped)]? = some t :=
    ⟨_, List.getElem?_eq_getElem (hlength ▸ Nat.lt_succ_self _)⟩
  rw [exprLines, if_neg (by simpa using h)]
  refine ⟨_, List.mem_map_of_mem (List.mk_mem_zipIdx_iff_getElem?.2 ht), ?_⟩
  rw [exprLastLine, breaks_trimEnd h]
  dsimp only
  omega

/-! ## The lines of instructions -/

/-- The first template line of an instruction. -/
def Instruction.line : Instruction → Int
  | .emitText _ line | .emitExpr _ _ line | .runStatement _ line => line

/-- The last template line to which a line of an instruction belongs. -/
def Instruction.lastLine : Instruction → Int
  | .emitText _ line => line
  | .emitExpr code _ line => exprLastLine code line
  | .runStatement code line => line + Text.breaks code

/-- Whether a line is at one of the template lines between two, and holds no line breaks. -/
def CodeLine.Between (first last : Int) (l : CodeLine) : Prop :=
  (first ≤ l.line ∧ l.line ≤ last) ∧ '\n' ∉ l.text

/-- Steps that are about some template lines are about all template lines around them. -/
theorem StepsAdd.widen {first last first' last' : Int} {ss : List BuildStep}
    (h : StepsAdd (CodeLine.Between first last) ss) (hfirst : first' ≤ first) (hlast : last ≤ last') :
    StepsAdd (CodeLine.Between first' last') ss := by
  have hbetween {l : CodeLine} (hl : l.Between first last) : l.Between first' last' :=
    ⟨⟨Int.le_trans hfirst hl.1.1, Int.le_trans hl.1.2 hlast⟩, hl.2⟩
  intro s hs
  have hstep := h s hs
  cases s with
  | add l => exact hbetween hstep
  | closes line => exact hbetween hstep
  | opens word line => trivial

/-- The line that emits a text holds no line breaks. -/
theorem textLines_bounds {text : Text} {line : Int} {l : CodeLine} (h : l ∈ textLines text line) :
    l.line = line ∧ '\n' ∉ l.text := by
  rw [textLines] at h
  split at h
  · exact absurd h List.not_mem_nil
  · rw [List.mem_singleton.1 h]
    refine ⟨rfl, fun hmem => ?_⟩
    simp only [List.mem_append, or_assoc] at hmem
    rcases hmem with hmem | hmem | hmem
    · exact absurd hmem (by decide)
    · exact absurd (Script.isPrintable_of_mem_quoted hmem) (by decide)
    · exact absurd hmem (by decide)

/-- The last template line of the code of an instruction. -/
def Instruction.endLine : Instruction → Int
  | .emitText _ line => line
  | .emitExpr code _ line | .runStatement code line => line + Text.breaks code

/-- Steps that only add lines. -/
theorem steps_map_add {P : CodeLine → Prop} {ls : List CodeLine} (h : ∀ l ∈ ls, P l) (Q : Int → Prop) :
    StepsAdd P (ls.map .add) ∧ StepsOpen Q (ls.map .add) := by
  constructor
  · intro s hs
    obtain ⟨l, hl, rfl⟩ := List.mem_map.1 hs
    exact h l hl
  · intro word line hs
    obtain ⟨l, -, hl⟩ := List.mem_map.1 hs
    cases hl

/-- The steps for an instruction are about its template lines. -/
theorem Instruction.steps?_bounds {i : Instruction} {ss : List BuildStep} (h : i.steps? = some ss) :
    StepsAdd (CodeLine.Between i.line i.lastLine) ss ∧
      StepsOpen (fun l => i.line ≤ l ∧ l ≤ i.endLine) ss := by
  cases i with
  | emitText text line =>
      obtain rfl := Option.some.inj h
      refine steps_map_add (fun l hl => ?_) _
      obtain ⟨hline, hbreak⟩ := textLines_bounds hl
      exact ⟨⟨Int.le_of_eq hline.symm, Int.le_of_eq hline⟩, hbreak⟩
  | emitExpr code escaped line =>
      obtain rfl := Option.some.inj h
      exact steps_map_add (fun l hl => exprLines_bounds hl) _
  | runStatement code line =>
      constructor
      · intro s hs
        obtain ⟨l', hl', hcases⟩ := of_mem_statementSteps? h hs
        obtain ⟨hline, hbreak⟩ := codeLines_bounds hl'
        rcases hcases with ⟨l, rfl, hl, htext⟩ | ⟨word, rfl⟩ | rfl
        · refine ⟨hl ▸ hline, ?_⟩
          rcases htext with htext | htext <;> rw [htext]
          · exact hbreak
          · simp [hbreak]
        · trivial
        · exact ⟨hline, (by decide : '\n' ∉ Builder.idleLine)⟩
      · intro word l hs
        obtain ⟨l', hl', hcases⟩ := of_mem_statementSteps? h hs
        have hline := (codeLines_bounds hl').1
        rcases hcases with ⟨l, heq, -⟩ | ⟨word, heq⟩ | heq
        · cases heq
        · cases heq
          exact hline
        · cases heq

/-! ## The lines of directives -/

/-- Whether a directive is an expression that ends with a remark, with no line break between the remark
and the closing bracket. -/
def Directive.overhangs (d : Directive) : Bool :=
  (d.kind == .escapedExpr || d.kind == .rawExpr) && (Text.trim d.code).contains '#' &&
    Text.breaks (Text.trimEnd d.code) == Text.breaks d.code

/-- The last line for an expression is one of the lines of its directive, unless it overhangs. -/
theorem Directive.exprLastLine_eq (d : Directive) (hkind : d.kind = .escapedExpr ∨ d.kind = .rawExpr) :
    exprLastLine d.code d.line ≤ d.closeLine + (if d.overhangs then 1 else 0) ∧
      (d.overhangs → exprLastLine d.code d.line = d.closeLine + 1 ∧ Text.trim d.code ≠ []) := by
  have hle := breaks_trimEnd_le d.code
  have hexpr : (d.kind == .escapedExpr || d.kind == .rawExpr) = true := by
    rcases hkind with hkind | hkind <;> rw [hkind] <;> rfl
  rw [overhangs, hexpr, Bool.true_and, exprLastLine, closeLine, remarkBreaks]
  cases hremark : (Text.trim d.code).contains '#' with
  | false =>
      rw [Bool.false_and, if_neg Bool.false_ne_true, if_neg Bool.false_ne_true]
      exact ⟨by omega, fun h => absurd h Bool.false_ne_true⟩
  | true =>
      simp only [Bool.true_and, if_true, beq_iff_eq]
      constructor
      · split <;> omega
      · intro heq
        refine ⟨by omega, fun hnil => ?_⟩
        rw [hnil] at hremark
        exact absurd hremark Bool.false_ne_true

/-- The instruction to emit white space is at its line. -/
theorem Instruction.of_mem_ofSpace {space : Option Text} {line : Int} {i : Instruction}
    (h : i ∈ Instruction.ofSpace space line) : ∃ t, i = .emitText t line := by
  unfold ofSpace at h
  split at h
  · exact absurd h List.not_mem_nil
  · exact absurd h List.not_mem_nil
  · exact ⟨_, List.mem_singleton.1 h⟩

/-- The instructions of a directive are at its lines, but for the overhang of an expression. -/
theorem Directive.instructions_bounds {d : Directive} {i : Instruction} (h : i ∈ d.instructions) :
    d.line ≤ i.line ∧ i.endLine ≤ d.closeLine ∧
      i.lastLine ≤ d.closeLine + (if d.overhangs then 1 else 0) := by
  have hover : (0 : Int) ≤ if d.overhangs then 1 else 0 := by split <;> decide
  have hclose : d.line ≤ d.closeLine := by
    rw [closeLine]
    omega
  have htext (t : Text) {l : Int} (hl : d.line ≤ l ∧ l ≤ d.closeLine) :
      d.line ≤ (Instruction.emitText t l).line ∧ (Instruction.emitText t l).endLine ≤ d.closeLine ∧
        (Instruction.emitText t l).lastLine ≤ d.closeLine + (if d.overhangs then 1 else 0) :=
    ⟨hl.1, hl.2, Int.le_trans hl.2 (Int.le_add_of_nonneg_right hover)⟩
  -- white space around the directive is within its lines; only the call of an expression may go beyond
  have hcore (h : i ∈ d.core) : d.line ≤ i.line ∧ i.endLine ≤ d.closeLine ∧
      i.lastLine ≤ d.closeLine + (if d.overhangs then 1 else 0) := by
    rw [core] at h
    split at h
    · rw [List.mem_singleton.1 h]
      exact ⟨Int.le_refl _, Int.le_refl _, Int.le_add_of_nonneg_right hover⟩
    · next hkind =>
        rw [List.mem_singleton.1 h]
        exact ⟨Int.le_refl _, Int.le_refl _, (d.exprLastLine_eq (.inl hkind)).1⟩
    · next hkind =>
        rw [List.mem_singleton.1 h]
        exact ⟨Int.le_refl _, Int.le_refl _, (d.exprLastLine_eq (.inr hkind)).1⟩
    · split at h
      · exact absurd h List.not_mem_nil
      · rw [List.mem_singleton.1 h]
        exact htext _ ⟨Int.le_refl _, hclose⟩
  rw [instructions] at h
  split at h
  · exact hcore h
  · rw [List.mem_append, List.mem_append] at h
    rcases h with (h | h) | h
    · obtain ⟨t, rfl⟩ := Instruction.of_mem_ofSpace h
      exact htext t ⟨Int.le_refl _, hclose⟩
    · exact hcore h
    · obtain ⟨t, rfl⟩ := Instruction.of_mem_ofSpace h
      exact htext t ⟨hclose, Int.le_refl _⟩

/-! ## The lines of programs -/

namespace Draft

/-- The line map of a builder has the template lines of its draft. -/
theorem get?_builder (d : Draft) (k : Nat) :
    d.builder.lineMap.get? (k + 1) = d.lines[k]?.map (·.code.line) := by
  have hlookup := lookup_numbered 1 (d.lines.map (·.code.line)) k
  rw [Nat.add_comm, Int.natCast_add, List.getElem?_map] at hlookup
  exact hlookup

/-- Closing all blocks of a draft adds lines that do nothing. -/
theorem closeAll_builder (line : Int) (d : Draft) : ∃ ls : List ProgramLine,
    d.builder.closeAll line d.blocks.length = (Draft.mk (d.lines ++ ls) []).builder ∧
      ∀ l ∈ ls, l.code = idle line := by
  obtain ⟨lines, blocks⟩ := d
  induction blocks generalizing lines with
  | nil => exact ⟨[], by rw [List.append_nil]; rfl, fun l hl => absurd hl List.not_mem_nil⟩
  | cons block outer ih =>
      have hstep := step?_builder ⟨lines, block :: outer⟩ (.closes line)
      rw [Builder.step?, step?] at hstep
      obtain ⟨⟨b, k⟩, hclose, hb⟩ := Option.map_eq_some_iff.1 hstep
      obtain rfl : b = _ := hb
      rw [List.length_cons, Builder.closeAll, hclose]
      dsimp only
      split
      · obtain ⟨ls, hls, hidle⟩ := ih (add ⟨lines, block :: outer⟩ (idle line)).lines
        refine ⟨⟨outer.length + 1, idle line⟩ :: ls, ?_, fun l hl => ?_⟩
        · rw [hls]
          simp [add]
        · rcases List.mem_cons.1 hl with rfl | hl
          · rfl
          · exact hidle l hl
      · exact ih lines

end Draft

/-- A program that is generated has the lines of its draft, and behind them lines that do nothing for the
innermost block that is open at the end. -/
theorem exists_draft_of_generate {template : String} {strict : Bool} {is : List Instruction} {b : Builder}
    (h : generate template strict is = .ok b) : ∃ d ls,
      Draft.empty.instructAll? is = some d ∧ b = (Draft.mk (d.lines ++ ls) []).builder ∧
        ∀ l ∈ ls, ∃ k ∈ d.blocks.head?, l.code = Draft.idle k.line := by
  rw [generate, ← Draft.builder_empty] at h
  cases hfold : is.foldlM (fun b i => b.add template i) Draft.empty.builder with
  | error e =>
      rw [hfold] at h
      cases h
  | ok b₁ =>
      rw [hfold] at h
      obtain ⟨⟨lines, blocks⟩, hd, rfl⟩ := Draft.foldlM_add_eq_ok_iff.1 hfold
      change Builder.finish _ template strict = _ at h
      cases blocks with
      | nil =>
          refine ⟨_, [], hd, ?_, fun l hl => absurd hl List.not_mem_nil⟩
          rw [List.append_nil]
          exact (Except.ok.inj h).symm
      | cons block outer =>
          have hblocks : (Draft.mk lines (block :: outer)).builder.blocks = block :: outer := rfl
          rw [Builder.finish, hblocks] at h
          dsimp only at h
          split at h
          · cases h
          · obtain ⟨ls, hls, hidle⟩ := Draft.closeAll_builder block.line ⟨lines, block :: outer⟩
            obtain rfl := Except.ok.inj h
            exact ⟨_, ls, hd, hls, fun l hl => ⟨block, rfl, hidle l hl⟩⟩

/-- Whether a line of a program, counted from zero, is one that a segment of a template adds. -/
def AddedFor (template : String) (segments : List Segment) (s : Segment) (k : Nat) : Prop :=
  ∃ before after b b', segments = before ++ s :: after ∧
    (Instruction.ofSegments before).foldlM (fun b i => b.add template i) Builder.empty = .ok b ∧
    s.instructions.foldlM (fun b i => b.add template i) b = .ok b' ∧
    b.lines.size ≤ k ∧ k < b'.lines.size

section

variable {template : String} {segments : List Segment} {s : Segment} {k : Nat} {d : Draft}

/-- The instructions of segments in a row. -/
theorem ofSegments_append (ss ss' : List Segment) : Instruction.ofSegments (ss ++ ss') =
    Instruction.ofSegments ss ++ Instruction.ofSegments ss' := List.flatMap_append

/-- The instructions of a segment and of further segments. -/
theorem ofSegments_cons (s : Segment) (ss : List Segment) : Instruction.ofSegments (s :: ss) =
    s.instructions ++ Instruction.ofSegments ss := List.flatMap_cons

/-- A line that a segment adds is one of those that its steps add. -/
theorem AddedFor.exists_line {P : CodeLine → Prop} (hk : AddedFor template segments s k)
    (h : Draft.empty.instructAll? (Instruction.ofSegments segments) = some d)
    (hadds : ∀ i ∈ s.instructions, ∀ ss, i.steps? = some ss → StepsAdd P ss) :
    ∃ l, d.lines[k]? = some l ∧ P l.code := by
  obtain ⟨before, after, b, b', rfl, hb, hb', hle, hlt⟩ := hk
  rw [← Draft.builder_empty] at hb
  obtain ⟨d₀, hd₀, rfl⟩ := Draft.foldlM_add_eq_ok_iff.1 hb
  obtain ⟨d₁, hd₁, rfl⟩ := Draft.foldlM_add_eq_ok_iff.1 hb'
  rw [ofSegments_append, ofSegments_cons, Draft.instructAll?_append, hd₀, Option.bind_some,
    Draft.instructAll?_append, hd₁, Option.bind_some] at h
  rw [Draft.size_builder] at hle hlt
  obtain ⟨⟨ls, hls, hP⟩, -⟩ := Draft.instructAll?_adds (Q := fun _ => True) hd₁
    (fun i hi ss hss => ⟨hadds i hi ss hss, fun _ _ _ => trivial⟩) fun k hk => trivial
  obtain ⟨l, hl⟩ : ∃ l, d₁.lines[k]? = some l := ⟨_, List.getElem?_eq_getElem hlt⟩
  refine ⟨l, Draft.getElem?_of_instructAll? h hl, hP l ?_⟩
  rw [hls, List.getElem?_append_right hle] at hl
  exact List.mem_of_getElem? hl

/-- Each line that segments add is one that one of them adds. -/
theorem exists_addedFor {before after : List Segment} {d₀ : Draft}
    (hd₀ : Draft.empty.instructAll? (Instruction.ofSegments before) = some d₀)
    (h : d₀.instructAll? (Instruction.ofSegments after) = some d) (hle : d₀.lines.length ≤ k)
    (hlt : k < d.lines.length) :
    ∃ s ∈ after, AddedFor template (before ++ after) s k := by
  induction after generalizing before d₀ with
  | nil =>
      obtain rfl := Option.some.inj h
      omega
  | cons s after ih =>
      rw [ofSegments_cons, Draft.instructAll?_append, Option.bind_eq_some_iff] at h
      obtain ⟨d₁, hd₁, hrest⟩ := h
      by_cases hk : k < d₁.lines.length
      · refine ⟨s, List.mem_cons_self, before, after, d₀.builder, d₁.builder, rfl, ?_, ?_, ?_, ?_⟩
        · exact Draft.foldlM_add_eq_ok_iff.2 ⟨d₀, hd₀, rfl⟩
        · exact Draft.foldlM_add_eq_ok_iff.2 ⟨d₁, hd₁, rfl⟩
        · rwa [Draft.size_builder]
        · rwa [Draft.size_builder]
      · have hbefore : Draft.empty.instructAll? (Instruction.ofSegments (before ++ [s])) = some d₁ := by
          rw [ofSegments_append, Draft.instructAll?_append, hd₀, Option.bind_some, ofSegments_cons,
            Draft.instructAll?_append, hd₁]
          rfl
        obtain ⟨s', hs', hadded⟩ := ih hbefore hrest (Nat.le_of_not_lt hk)
        rw [List.append_assoc] at hadded
        exact ⟨s', List.mem_cons_of_mem _ hs', hadded⟩

end

/-- The lines of a program whose lines hold no line breaks. -/
theorem lines_text {b : Builder} (h : ∀ l ∈ b.lines.toList, '\n' ∉ l) :
    Text.lines b.text = b.lines.toList ++ [[]] := by
  rw [Builder.text]
  generalize b.lines.toList = ls at h
  induction ls with
  | nil => rfl
  | cons l ls ih =>
      rw [List.flatMap_cons, List.append_assoc, List.singleton_append,
        Text.lines_append_break (h l List.mem_cons_self),
        ih fun l hl => h l (List.mem_cons_of_mem _ hl), List.cons_append]

/-- An expression that overhangs adds a line for the line behind the directive. -/
theorem exists_overhang {d : Directive} (h : d.overhangs) : ∃ before after escaped,
    d.instructions = before ++ .emitExpr d.code escaped d.line :: after ∧
      exprLastLine d.code d.line = d.closeLine + 1 ∧ Text.trim d.code ≠ [] := by
  have hkind : d.kind = .escapedExpr ∨ d.kind = .rawExpr := by
    rw [Directive.overhangs, Bool.and_eq_true, Bool.and_eq_true, Bool.or_eq_true] at h
    simpa using h.1.1
  have hlast := (d.exprLastLine_eq hkind).2 h
  have htrims : d.trims = false := by
    rw [Directive.trims]
    rcases hkind with hkind | hkind <;> rw [hkind] <;> rfl
  have hcore : ∃ escaped, d.core = [.emitExpr d.code escaped d.line] := by
    rw [Directive.core]
    rcases hkind with hkind | hkind <;> rw [hkind]
    · exact ⟨true, rfl⟩
    · exact ⟨false, rfl⟩
  obtain ⟨escaped, hcore⟩ := hcore
  refine ⟨Instruction.ofSpace d.lspace d.line,
    Instruction.ofSpace d.rspace (d.line + Text.breaks d.code), escaped, ?_, hlast⟩
  rw [Directive.instructions, htrims, if_neg Bool.false_ne_true, hcore, List.append_assoc]
  rfl

/-- A directive that overhangs adds a line for the line behind its closing bracket. -/
theorem Directive.exists_addedFor {template : String} {segments : List Segment} {d : Directive}
    {draft : Draft} (hd : .directive d ∈ segments)
    (h : Draft.empty.instructAll? (Instruction.ofSegments segments) = some draft)
    (hover : d.overhangs) : ∃ k l, AddedFor template segments (.directive d) k ∧
      draft.lines[k]? = some l ∧ l.code.line = d.closeLine + 1 := by
  obtain ⟨before, after, rfl⟩ := List.append_of_mem hd
  obtain ⟨pre, post, escaped, hinstructions, hlast, hne⟩ := exists_overhang hover
  have hsegment : (Segment.directive d).instructions =
      pre ++ (.emitExpr d.code escaped d.line :: post) := hinstructions
  rw [ofSegments_append, ofSegments_cons, Draft.instructAll?_append, Option.bind_eq_some_iff] at h
  obtain ⟨d₀, hd₀, h⟩ := h
  rw [Draft.instructAll?_append, Option.bind_eq_some_iff] at h
  obtain ⟨d₁, hd₁, hrest⟩ := h
  have hsplit := hd₁
  rw [hsegment, Draft.instructAll?_append, Option.bind_eq_some_iff] at hsplit
  obtain ⟨d₂, hpre, hsplit⟩ := hsplit
  rw [Draft.instructAll?_cons, Option.bind_eq_some_iff] at hsplit
  obtain ⟨d₃, hexpr, hpost⟩ := hsplit
  obtain ⟨c, hc, hline⟩ := exists_exprLastLine hne escaped d.line
  obtain ⟨n, hn⟩ := List.mem_iff_getElem?.1 hc
  have hlines : d₃.lines = d₂.lines ++
      (exprLines d.code escaped d.line).map (⟨d₂.blocks.length, ·⟩) := by
    rw [Draft.instruct?, Instruction.steps?, Option.bind_some, Draft.run?_add] at hexpr
    exact (congrArg Draft.lines (Option.some.inj hexpr)).symm
  have hget : d₃.lines[d₂.lines.length + n]? = some ⟨d₂.blocks.length, c⟩ := by
    rw [hlines, List.getElem?_append_right (Nat.le_add_right _ _), Nat.add_sub_cancel_left,
      List.getElem?_map, hn, Option.map_some]
  have hget₁ := Draft.getElem?_of_instructAll? hpost hget
  have hget' := Draft.getElem?_of_instructAll? hrest hget₁
  refine ⟨_, _, ⟨before, after, d₀.builder, d₁.builder, rfl, ?_, ?_, ?_, ?_⟩, hget',
    hline.trans hlast⟩
  · exact Draft.foldlM_add_eq_ok_iff.2 ⟨d₀, hd₀, rfl⟩
  · exact Draft.foldlM_add_eq_ok_iff.2 ⟨d₁, hd₁, rfl⟩
  · rw [Draft.size_builder]
    exact Nat.le_trans (Draft.prefix_of_instructAll? hpre).length_le (Nat.le_add_right _ _)
  · rw [Draft.size_builder]
    exact (List.getElem?_eq_some_iff.1 hget₁).1

/-- The lines that a segment adds are at its template lines. -/
theorem Segment.steps_bounds {s : Segment} {i : Instruction} (hi : i ∈ s.instructions)
    {ss : List BuildStep} (hss : i.steps? = some ss) :
    match s with
    | .literal _ line => StepsAdd (CodeLine.Between line line) ss
    | .directive d => StepsAdd
        (CodeLine.Between d.line (d.closeLine + if d.overhangs then 1 else 0)) ss ∧
        StepsOpen (fun l => d.line ≤ l ∧ l ≤ d.closeLine) ss := by
  obtain ⟨hadd, hopen⟩ := Instruction.steps?_bounds hss
  cases s with
  | literal t line =>
      rw [List.mem_singleton.1 hi] at hadd
      exact hadd
  | directive d =>
      obtain ⟨hline, hend, hlast⟩ := Directive.instructions_bounds hi
      refine ⟨hadd.widen (by omega) (by omega), fun word l hs => ?_⟩
      have h := hopen word l hs
      omega

section

variable {source : Text} {line : Int}

/-- The steps for a template are about its lines, but for the overhang of its expressions. -/
theorem template_bounds {extra : Int} (hpos : 0 ≤ extra)
    (hextra : ∀ d, .directive d ∈ Segment.scan source line →
      (if d.overhangs then (1 : Int) else 0) ≤ extra) :
    ∀ i ∈ Instruction.ofSegments (Segment.scan source line), ∀ ss, i.steps? = some ss →
      StepsAdd (CodeLine.Between line (line + Text.breaks source + extra)) ss ∧
        StepsOpen (fun l => line ≤ l ∧ l ≤ line + Text.breaks source) ss := by
  intro i hi ss hss
  obtain ⟨s, hs, hi⟩ := List.mem_flatMap.1 hi
  have hbounds := Segment.steps_bounds hi hss
  have hopen := (Instruction.steps?_bounds hss).2
  cases Segment.stands_of_mem_scan hs with
  | @literal p t ht =>
      have hp := Segment.lineAt_bounds source line p
      rw [List.mem_singleton.1 hi] at hopen
      refine ⟨StepsAdd.widen hbounds (by omega) (by omega), fun word l hl => ?_⟩
      have h : Segment.lineAt source line p ≤ l ∧ l ≤ Segment.lineAt source line p := hopen word l hl
      omega
  | @directive d i j _ _ _ hline hclose =>
      have hi := Segment.lineAt_bounds source line i
      have hj := Segment.lineAt_bounds source line j
      have hle := hextra d hs
      obtain ⟨hadd, hopen⟩ := hbounds
      refine ⟨hadd.widen (by omega) (by omega), fun word l hl => ?_⟩
      have h := hopen word l hl
      omega

/-- The lines of a program are at lines of its template, but for the overhang of expressions, and hold no
line breaks. The lines for blocks that are open at the end are at lines of the template. -/
theorem lines_bounds {extra : Int} (hpos : 0 ≤ extra)
    (hextra : ∀ d, .directive d ∈ Segment.scan source line →
      (if d.overhangs then (1 : Int) else 0) ≤ extra)
    {d : Draft} {ls : List ProgramLine}
    (hd : Draft.empty.instructAll? (Instruction.ofSegments (Segment.scan source line)) = some d)
    (hidle : ∀ l ∈ ls, ∃ k ∈ d.blocks.head?, l.code = Draft.idle k.line) :
    (∀ l ∈ d.lines ++ ls, l.code.Between line (line + Text.breaks source + extra)) ∧
      ∀ l ∈ ls, l.code = Draft.idle l.code.line ∧ line ≤ l.code.line ∧
        l.code.line ≤ line + Text.breaks source := by
  obtain ⟨⟨ls', hls', hP⟩, hblocks⟩ := Draft.instructAll?_adds hd (template_bounds hpos hextra)
    fun k hk => absurd hk List.not_mem_nil
  have hlast : ∀ l ∈ ls, l.code = Draft.idle l.code.line ∧ line ≤ l.code.line ∧
      l.code.line ≤ line + Text.breaks source := by
    intro l hl
    obtain ⟨k, hk, hcode⟩ := hidle l hl
    rw [hcode]
    exact ⟨rfl, hblocks k (List.mem_of_mem_head? hk)⟩
  refine ⟨fun l hl => ?_, hlast⟩
  rcases List.mem_append.1 hl with hl | hl
  · exact hP l (by rw [hls'] at hl; exact hl)
  · obtain ⟨hcode, hlow, hhigh⟩ := hlast l hl
    refine ⟨⟨hlow, by omega⟩, ?_⟩
    rw [hcode]
    exact (by decide : '\n' ∉ Builder.idleLine)

end

/-- The line of a program that is at a place of its draft, and its template line. -/
theorem Draft.getElem?_builder {d : Draft} {k : Nat} {l : ProgramLine} (h : d.lines[k]? = some l) :
    d.builder.lineMap.get? (k + 1) = some l.code.line ∧ d.builder.lines[k]? = some l.text := by
  refine ⟨by rw [get?_builder, h, Option.map_some], ?_⟩
  rw [builder, List.getElem?_toArray, List.getElem?_map, h, Option.map_some]

/-- Where no line of a draft holds a line break, the text of its program has these lines, and an empty one
behind the last line break. -/
theorem Draft.lines_text_builder {d : Draft} (h : ∀ l ∈ d.lines, '\n' ∉ l.code.text) :
    Text.lines d.builder.text = d.builder.lines.toList ++ [[]] := by
  refine lines_text fun l hl => ?_
  have hl : l ∈ d.lines.map ProgramLine.text := by simpa [Draft.builder] using hl
  obtain ⟨p, hp, rfl⟩ := List.mem_map.1 hl
  rw [ProgramLine.text, CodeLine.generated]
  split
  · rw [List.mem_append, List.mem_replicate]
    rintro (⟨-, hspace⟩ | hmem)
    · exact absurd hspace (by decide)
    · exact h p hp hmem
  · exact h p hp

/-- The entries of the line map of a draft are the template lines of its lines. -/
theorem Draft.entries_between {d : Draft} {first last : Int}
    (h : ∀ l ∈ d.lines, l.code.Between first last) :
    ∀ e ∈ d.builder.lineMap.entries, first ≤ e.2 ∧ e.2 ≤ last := by
  intro e he
  have hmem : e.2 ∈ (Draft.numbered 1 (d.lines.map (·.code.line))).map (·.2) :=
    List.mem_map_of_mem he
  rw [Draft.map_snd_numbered] at hmem
  obtain ⟨l, hl, hline⟩ := List.mem_map.1 hmem
  exact hline ▸ (h l hl).1

/-- The line map of the program of a template. Its keys number the lines of the program. The lines that
a literal adds belong to the line where the literal starts. The lines that a directive adds belong to the
lines from its opening to its closing bracket, exactly when the directive does not overhang; else one
of them belongs to the line behind. All other lines do nothing, for blocks that are open at the end, and
belong to lines of the template. -/
theorem lineMap_generate {template : String} {strict : Bool} {source : Text} {line : Int} {b : Builder}
    (h : generate template strict (Instruction.ofSegments (Segment.scan source line)) = .ok b) :
    let segments := Segment.scan source line
    let last := line + Text.breaks source
    (Text.lines b.text = b.lines.toList ++ [[]] ∧
      b.lineMap.entries.map (·.1) = (List.range' 1 b.lines.size).map (Nat.cast : Nat → Int)) ∧
    (∀ s ∈ segments, s.Stands source line) ∧
    (∀ t l k, AddedFor template segments (.literal t l) k → b.lineMap.get? (k + 1) = some l) ∧
    (∀ d, .directive d ∈ segments →
      (d.overhangs = false ↔ ∀ k, AddedFor template segments (.directive d) k →
        ∃ l, b.lineMap.get? (k + 1) = some l ∧ d.line ≤ l ∧ l ≤ d.closeLine) ∧
      ∀ k, AddedFor template segments (.directive d) k →
        ∃ l, b.lineMap.get? (k + 1) = some l ∧ d.line ≤ l ∧ l ≤ d.closeLine + 1) ∧
    (∀ k < b.lines.size, (∃ s ∈ segments, AddedFor template segments s k) ∨
      ∃ l indent, b.lineMap.get? (k + 1) = some l ∧ line ≤ l ∧ l ≤ last ∧
        b.lines[k]? = some (List.replicate indent ' ' ++ Builder.idleLine)) ∧
    (∀ e ∈ b.lineMap.entries, line ≤ e.2 ∧ e.2 ≤ last + 1) ∧
    ((∀ d, .directive d ∈ segments → d.overhangs = false) →
      ∀ e ∈ b.lineMap.entries, line ≤ e.2 ∧ e.2 ≤ last) := by
  intro segments last
  obtain ⟨d, ls, hd, rfl, hidle⟩ := exists_draft_of_generate h
  have hextra (d : Directive) (_ : Segment.directive d ∈ segments) :
      (if d.overhangs then (1 : Int) else 0) ≤ 1 := by
    split <;> decide
  obtain ⟨hbetween, hlast⟩ := lines_bounds (by decide) hextra hd hidle
  have hplace {k : Nat} {l : ProgramLine} (hl : d.lines[k]? = some l) :=
    Draft.getElem?_builder (d := ⟨d.lines ++ ls, []⟩) (k := k) (l := l)
      (by rw [List.getElem?_append_left (List.getElem?_eq_some_iff.1 hl).1, hl])
  have hdirective {k : Nat} {d' : Directive} (hk : AddedFor template segments (.directive d') k) :
      ∃ l, d.lines[k]? = some l ∧
        l.code.Between d'.line (d'.closeLine + if d'.overhangs then 1 else 0) :=
    hk.exists_line hd fun i hi ss hss => (Segment.steps_bounds hi hss).1
  refine ⟨⟨Draft.lines_text_builder fun l hl => (hbetween l hl).2, ?_⟩,
    fun s hs => Segment.stands_of_mem_scan hs, fun t l k hk => ?_,
    fun d' hd' => ⟨⟨fun hover k hk => ?_, fun hall => ?_⟩, fun k hk => ?_⟩, fun k hk => ?_,
    Draft.entries_between hbetween, fun hover => ?_⟩
  · rw [Draft.size_builder]
    exact (Draft.map_fst_numbered 1 _).trans (by rw [List.length_map])
  · obtain ⟨c, hc, hline⟩ := hk.exists_line hd
      (P := CodeLine.Between l l) fun i hi ss hss => Segment.steps_bounds hi hss
    rw [(hplace hc).1, Int.le_antisymm hline.1.2 hline.1.1]
  · obtain ⟨c, hc, hline⟩ := hdirective hk
    rw [hover, if_neg Bool.false_ne_true, Int.add_zero] at hline
    exact ⟨c.code.line, (hplace hc).1, hline.1⟩
  · -- a directive that overhangs adds a line behind its closing bracket
    rw [← Bool.not_eq_true]
    intro hover
    obtain ⟨k, l, hk, hl, hline⟩ : ∃ k l, AddedFor template segments (.directive d') k ∧
        d.lines[k]? = some l ∧ l.code.line = d'.closeLine + 1 :=
      Directive.exists_addedFor hd' hd hover
    obtain ⟨l', hl', -, hle⟩ := hall k hk
    rw [(hplace hl).1] at hl'
    obtain rfl := Option.some.inj hl'
    omega
  · obtain ⟨c, hc, hline⟩ := hdirective hk
    have hle := hextra d' hd'
    have hline := hline.1
    exact ⟨c.code.line, (hplace hc).1, by omega, by omega⟩
  · rw [Draft.size_builder] at hk
    rcases Nat.lt_or_ge k d.lines.length with hlt | hge
    · have hempty : Draft.empty.instructAll? (Instruction.ofSegments []) = some Draft.empty := rfl
      exact .inl (exists_addedFor hempty hd (Nat.zero_le _) hlt)
    · -- the program ends with the idle lines of blocks that are still open
      obtain ⟨l, hl⟩ : ∃ l, (d.lines ++ ls)[k]? = some l := ⟨_, List.getElem?_eq_getElem hk⟩
      have hmem : l ∈ ls := by
        rw [List.getElem?_append_right hge] at hl
        exact List.mem_of_getElem? hl
      obtain ⟨hcode, hlow, hhigh⟩ := hlast l hmem
      obtain ⟨hmap, htext⟩ := Draft.getElem?_builder (d := ⟨d.lines ++ ls, []⟩) hl
      refine .inr ⟨l.code.line, Builder.indentStep * l.depth, hmap, hlow, hhigh, ?_⟩
      rw [htext, ProgramLine.text, hcode]
      rfl
  · have hextra (d : Directive) (hd : Segment.directive d ∈ segments) :
        (if d.overhangs then (1 : Int) else 0) ≤ 0 := by
      rw [hover d hd]
      decide
    have hbetween := (lines_bounds (Int.le_refl 0) hextra hd hidle).1
    rw [Int.add_zero] at hbetween
    exact Draft.entries_between hbetween

/-- A template of one line whose expression ends with a remark. -/
def remarkTemplate : Text := "<%= x # c %>".toList

/-- The program of the template has a second line, which belongs to the line behind the template: the
directive overhangs, and its lines are not all between its brackets. -/
theorem lineMap_generate_remark :
    ∃ b d, generate "page" true (Instruction.ofSegments (Segment.scan remarkTemplate 1)) = .ok b ∧
      b.lineMap.entries = [(1, 1), (2, 2)] ∧ 1 + Text.breaks remarkTemplate = 1 ∧
      .directive d ∈ Segment.scan remarkTemplate 1 ∧ d.overhangs ∧
      ¬ ∀ k, AddedFor "page" (Segment.scan remarkTemplate 1) (.directive d) k →
        ∃ l, b.lineMap.get? (k + 1) = some l ∧ d.line ≤ l ∧ l ≤ d.closeLine := by
  have hgenerate : generate "page" true (Instruction.ofSegments (Segment.scan remarkTemplate 1)) =
      .ok ⟨#["_buf.append(_escape(x # c".toList, "))".toList], ⟨[(1, 1), (2, 2)]⟩, 0, []⟩ := rfl
  have hsegment : Segment.directive ⟨.escapedExpr, "x # c".toList, some [], none, 1⟩ ∈
      Segment.scan remarkTemplate 1 := by decide +kernel
  have hover : Directive.overhangs ⟨.escapedExpr, "x # c".toList, some [], none, 1⟩ := by
    decide +kernel
  refine ⟨_, _, hgenerate, rfl, rfl, hsegment, hover, fun hall => ?_⟩
  have hnot := ((lineMap_generate hgenerate).2.2.2.1 _ hsegment).1.2 hall
  exact absurd (hnot.symm.trans hover) Bool.false_ne_true

end Stencil
