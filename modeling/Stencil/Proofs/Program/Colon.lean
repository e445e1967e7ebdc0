import Stencil.Proofs.Program.Bodies
import Stencil.Proofs.Script.Colon

/-!
# The colon behind a header

A statement whose last logical line is a header has its colon or gets one. Without the colon the header
is looked at alone: it must go on with a block, or be one that opens a block by itself. So the colon may be
left out exactly where the header compiles outside the blocks that surround it
(`generate_without_colon_iff`).
-/

namespace Stencil

/-! ## Lines with a colon behind them -/

namespace Text

/-- Whether a text ends with a character that is not blank. -/
def EndsInk (t : Text) : Prop :=
  ∃ c ∈ t.getLast?, ¬ isBlank c

variable {t : Text}

/-- A text that does not end with a blank is not all gaps. -/
theorem EndsInk.not_all_gaps (h : t.EndsInk) : ¬ t.all isGap := by
  obtain ⟨c, hc, hblank⟩ := h
  exact fun hgaps => hblank (isBlank_of_isGap (List.all_eq_true.1 hgaps c (List.mem_of_getLast? hc)))

/-- Nothing is trimmed at the end of a text that does not end with a blank. -/
theorem EndsInk.trimEnd_eq (h : t.EndsInk) : trimEnd t = t := by
  obtain ⟨c, hc, hblank⟩ := h
  obtain ⟨init, rfl⟩ := List.getLast?_eq_some_iff.1 hc
  rw [trimEnd, List.reverse_append, List.reverse_singleton, List.singleton_append,
    List.dropWhile_cons_of_neg hblank, List.reverse_cons, List.reverse_reverse]

/-- A text that does not end with a blank is not blank. -/
theorem EndsInk.trim_ne_nil (h : t.EndsInk) : ¬ (trim t).isEmpty := by
  obtain ⟨c, hc, hblank⟩ := h
  rw [List.isEmpty_iff, trim_eq_nil]
  exact fun hall => hblank (List.all_eq_true.1 hall c (List.mem_of_getLast? hc))

/-- A colon is not blank. -/
theorem endsInk_colon (t : Text) : (t ++ [':']).EndsInk :=
  ⟨':', List.getLast?_concat, by decide⟩

/-- A colon at the end stays when blanks at the start are trimmed. -/
theorem trimStart_colon (t : Text) : trimStart (t ++ [':']) = trimStart t ++ [':'] := by
  rw [trimStart, List.dropWhile_append]
  split
  · next hnil =>
      rw [trimStart, List.isEmpty_iff.1 hnil]
      rfl
  · rfl

/-- A text that holds more than gaps starts with the same gaps when something follows. -/
theorem takeWhile_append (h : ¬ t.all isGap) (u : Text) :
    (t ++ u).takeWhile isGap = t.takeWhile isGap := by
  induction t with
  | nil => exact absurd rfl h
  | cons c r ih =>
      by_cases hc : isGap c
      · rw [List.cons_append, List.takeWhile_cons_of_pos hc, List.takeWhile_cons_of_pos hc, ih]
        simpa [hc] using h
      · rw [List.cons_append, List.takeWhile_cons_of_neg hc, List.takeWhile_cons_of_neg hc]

/-- The margin of lines is the same when a colon stands behind one that does not end with a blank. -/
theorem margin_colon {last : Text} (h : last.EndsInk) (ls : List Text) :
    margin (ls ++ [last ++ [':']]) = margin (ls ++ [last]) := by
  have hnot : (last ++ [':']).all isGap = false := by simp [isGap]
  have hnot' : last.all isGap = false := Bool.eq_false_iff.2 h.not_all_gaps
  rw [margin, margin, List.filter_append, List.filter_append]
  simp only [List.filter_cons, List.filter_nil, hnot, hnot', Bool.not_false, if_true, List.map_append,
    List.map_cons, List.map_nil, takeWhile_append h.not_all_gaps]

/-- A line that does not end with a blank does so without the common indentation, and a colon behind it
stays. -/
theorem dedentLine_colon {last : Text} (h : last.EndsInk) {ls : List Text} (hmem : last ∈ ls) :
    (dedentLine (margin ls).length last).EndsInk ∧
      dedentLine (margin ls).length (last ++ [':']) = dedentLine (margin ls).length last ++ [':'] := by
  have hnot : ¬ (last ++ [':']).all isGap := (endsInk_colon last).not_all_gaps
  have hle := margin_length_le hmem h.not_all_gaps
  obtain ⟨gaps, hgaps, heq⟩ := exists_gaps_dedentLine hmem
  have hle' : (margin ls).length ≤ last.length :=
    Nat.le_trans hle (List.takeWhile_prefix isGap).length_le
  refine ⟨?_, ?_⟩
  · obtain ⟨c, hc, hblank⟩ := h
    refine ⟨c, ?_, hblank⟩
    rw [heq] at hc
    cases hdedent : dedentLine (margin ls).length last with
    | nil =>
        rw [hdedent, List.append_nil] at hc
        exact absurd (isBlank_of_isGap (List.all_eq_true.1 hgaps c (List.mem_of_getLast? hc))) hblank
    | cons d r => rwa [hdedent, List.getLast?_append_of_ne_nil _ (List.cons_ne_nil d r)] at hc
  · rw [dedentLine, dedentLine, if_neg hnot, if_neg h.not_all_gaps, List.drop_append_of_le_length hle']

end Text

/-- The lines of a statement that does not end with a blank get a colon when one stands behind it. -/
theorem codeLines_colon {code : Text} (h : code.EndsInk) (line : Int) :
    codeLines (code ++ [':']) line = addColon (codeLines code line) := by
  obtain ⟨ls, last, hlines, hlines', hlast⟩ := Script.exists_lines_colon h
  have hmem : last ∈ ls ++ [last] := List.mem_append_right _ List.mem_cons_self
  have hmargin : Text.margin (Text.lines (code ++ [':'])) = Text.margin (Text.lines code) := by
    rw [hlines, hlines', Text.margin_colon hlast]
  obtain ⟨hink, hcolon⟩ := Text.dedentLine_colon hlast hmem
  have hcontinued : Script.continuationLines (Text.dedent (code ++ [':'])) =
      Script.continuationLines (Text.dedent code) := by
    have hdedent : Text.dedent (code ++ [':']) = Text.dedent code ++ [':'] ∧
        (Text.dedent code).EndsInk := by
      have hmap (code : Text) : Text.dedent code =
          Text.joinLines ((Text.lines code).map (Text.dedentLine (Text.margin (Text.lines code)).length)) := rfl
      obtain ⟨before, -, hjoin⟩ := Script.exists_joinLines_concat
        (ls.map (Text.dedentLine (Text.margin (Text.lines code)).length))
      rw [hmap, hmap code, hmargin, hlines', hlines, List.map_append, List.map_append, List.map_singleton,
        List.map_singleton, hcolon, ← hlines, hjoin, hjoin, List.append_assoc]
      refine ⟨rfl, ?_⟩
      obtain ⟨c, hc, hblank⟩ := hink
      rw [hlines]
      refine ⟨c, ?_, hblank⟩
      rw [List.getLast?_append_of_ne_nil]
      · exact hc
      · exact List.ne_nil_of_mem (List.mem_of_getLast? hc)
    rw [hdedent.1, Script.continuationLines_colon hdedent.2]
  -- the last line is not blank, and no blanks are removed at its end
  have hkept (code : Text) {x : Text × Nat}
      (hx : (Text.dedentLine (Text.margin (Text.lines code)).length x.1).EndsInk) :
      codeLine? code line x = some ⟨line + x.2, Text.dedentLine (Text.margin (Text.lines code)).length x.1,
        !(Script.continuationLines (Text.dedent code)).contains x.2⟩ := by
    rw [codeLine?, hx.trimEnd_eq, ite_self]
    split
    · next hp => rw [hp]; rfl
    · next hp =>
        rw [if_neg hx.trim_ne_nil, Bool.eq_false_iff.2 hp]
        rfl
  have hrest : ls.zipIdx.filterMap (codeLine? (code ++ [':']) line) =
      ls.zipIdx.filterMap (codeLine? code line) := by
    refine List.filterMap_congr fun x _ => ?_
    rw [codeLine?, codeLine?, hcontinued, hmargin]
  have hink' : (Text.dedentLine (Text.margin (Text.lines code)).length last).EndsInk := hlines ▸ hink
  have hcolon' : Text.dedentLine (Text.margin (Text.lines code)).length (last ++ [':']) =
      Text.dedentLine (Text.margin (Text.lines code)).length last ++ [':'] := hlines ▸ hcolon
  have hlast₁ := hkept code (x := (last, ls.length)) hink'
  have hlast₂ := hkept (code ++ [':']) (x := (last ++ [':'], ls.length))
    (by rw [hmargin, hcolon']; exact Text.endsInk_colon _)
  rw [hmargin, hcolon', hcontinued] at hlast₂
  rw [codeLines_eq, codeLines_eq, hlines, hlines', List.zipIdx_append, List.zipIdx_append,
    List.filterMap_append, List.filterMap_append, hrest, Nat.zero_add, List.zipIdx_singleton,
    List.zipIdx_singleton, List.filterMap_cons_some hlast₁, List.filterMap_cons_some hlast₂,
    List.filterMap_nil, List.filterMap_nil, addColon_concat]

/-! ## Headers with and without their colon -/

/-- The text of the last logical line of a statement. -/
def lastText (ls : List CodeLine) : Text :=
  Text.joinLines ((lastLogical ls).map (·.text))

/-- Whether a text starts with a word that opens a block or goes on with one. -/
def StartsHeader (t : Text) : Prop :=
  (leadingWord? siblingWords t).isSome ∨ (leadingWord? openingWords t).isSome

/-- Whether a header that has no colon opens a block: it goes on with one, is the single word that does so,
or compiles alone with a colon and a body. -/
def OpensAlone (t : Text) : Prop :=
  (leadingWord? siblingWords t).isSome ∨ t = "try".toList ∨
    (Script.check (t ++ ":\n    pass\n".toList)).isOk

/-- A header without a colon opens a block exactly when it does so alone. -/
theorem opensBlock_eq_true_iff {statement : Text} (hheader : StartsHeader (Text.trim statement))
    (hcolon : ¬ Text.endsWith (Text.trim statement) [':']) :
    opensBlock statement = .ok true ↔ OpensAlone (Text.trim statement) := by
  rw [opensBlock, OpensAlone, if_neg hcolon]
  by_cases hsibling : (leadingWord? siblingWords (Text.trim statement)).isSome
  · rw [if_pos hsibling]
    exact ⟨fun _ => .inl hsibling, fun _ => rfl⟩
  · have hopening : ¬ (leadingWord? openingWords (Text.trim statement)).isNone := by
      rw [Option.isNone_iff_eq_none, ← Option.not_isSome_iff_eq_none, Classical.not_not]
      exact hheader.resolve_left hsibling
    rw [if_neg hsibling, if_neg hopening]
    by_cases htry : Text.trim statement = "try".toList
    · simp [htry]
    · rw [if_neg (by simpa using htry)]
      cases hcheck : Script.check (Text.trim statement ++ ":\n    pass\n".toList) with
      | ok body => simp [Except.isOk, Except.toBool]
      | error e =>
          have hnot : ¬ (Except.error e : Except Script.CheckError (List Script.Stmt)).isOk := Bool.false_ne_true
          have halone : ¬ ((leadingWord? siblingWords (Text.trim statement)).isSome ∨
              Text.trim statement = "try".toList ∨
              (Except.error e : Except Script.CheckError (List Script.Stmt)).isOk) :=
            fun h => h.elim hsibling fun h => h.elim htry hnot
          cases e with
          | nullCharacter => exact ⟨fun h => (by cases h), fun h => absurd h halone⟩
          | fault line => exact ⟨fun h => (by cases h), fun h => absurd h halone⟩

/-- The colon that is added stands behind the text of the last logical line. -/
theorem lastText_addColon {ls : List CodeLine} (h : ls ≠ []) : lastText (addColon ls) = lastText ls ++ [':'] := by
  obtain ⟨init, l, hlast⟩ : ∃ init l, lastLogical ls = init ++ [l] :=
    ⟨_, _, (List.dropLast_append_getLast (lastLogical_ne_nil h)).symm⟩
  obtain ⟨before, -, hjoin⟩ := Script.exists_joinLines_concat (init.map (·.text))
  rw [lastText, lastText, lastLogical_addColon h, hlast, addColon_concat, List.map_append, List.map_append,
    List.map_singleton, List.map_singleton, hjoin, hjoin, List.append_assoc]

/-- Blanks at the start do not matter to whether a text ends with a colon. -/
theorem endsWith_trim (t : Text) :
    Text.endsWith (Text.trim t) [':'] = Text.endsWith (Text.trimEnd t) [':'] := by
  rw [Text.endsWith, Text.endsWith, Text.trim, ← Text.trimStart_trimEnd, Bool.eq_iff_iff,
    List.isSuffixOf_iff_suffix, List.isSuffixOf_iff_suffix]
  constructor
  · exact fun h => h.trans (List.dropWhile_suffix _)
  · rintro ⟨init, hinit⟩
    rw [← hinit, Text.trimStart_colon]
    exact List.suffix_append _ _

/-- A text with a colon behind it ends with the colon when it is trimmed. -/
theorem endsWith_colon (t : Text) : Text.endsWith (Text.trim (t ++ [':'])) [':'] := by
  rw [endsWith_trim, (Text.endsInk_colon t).trimEnd_eq, Text.endsWith, List.isSuffixOf_iff_suffix]
  exact List.suffix_append _ _

/-- The steps of a statement that has its colon. -/
theorem openingSteps?_addColon {ls : List CodeLine} (h : ls ≠ []) : openingSteps? (addColon ls) =
    some ((addColon ls).map .add ++ ((lastLogical (addColon ls)).head?.toList.map fun head =>
      .opens (blockWord head.text) head.line)) := by
  have hend := endsWith_colon (lastText ls)
  have hopens : opensBlock (lastText (addColon ls)) = .ok true := by
    rw [lastText_addColon h, opensBlock, if_pos hend]
  have hlines : headerLines (addColon ls) = addColon ls := by
    rw [headerLines, ← lastText, lastText_addColon h, ← endsWith_trim, if_pos hend]
  rw [openingSteps?, ← lastText, hopens, hlines]

/-- The closing of a block that a statement with the given lines goes on with. -/
def closingSteps : List CodeLine → List BuildStep
  | [] => []
  | first :: _ =>
    if (leadingWord? siblingWords (Text.trimStart first.text)).isSome then [.closes first.line] else []

/-- The steps of a statement that is no end word. -/
theorem steps?_runStatement {code : Text} {line : Int} {ls : List CodeLine} (hcode : codeLines code line = ls)
    (hend : ∀ first, ls = [first] → ¬ isEndWord (Text.trim first.text)) (hne : ls ≠ []) :
    (Instruction.runStatement code line).steps? = (openingSteps? ls).map (closingSteps ls ++ ·) := by
  rw [Instruction.steps?, statementSteps?, hcode]
  cases ls with
  | nil => exact absurd rfl hne
  | cons first rest =>
      have hnot : (rest.isEmpty && isEndWord (Text.trim first.text)) = false := by
        cases rest with
        | nil => simpa using hend first rfl
        | cons l rest => rfl
      dsimp only [closingSteps]
      rw [if_neg (Bool.eq_false_iff.1 hnot)]
      split
      · rfl
      · exact Option.map_id'.symm

/-- The colon behind a statement leaves whether it goes on with a block. -/
theorem closingSteps_addColon (ls : List CodeLine) : closingSteps (addColon ls) = closingSteps ls := by
  cases ls with
  | nil => rfl
  | cons first rest =>
      cases rest with
      | nil =>
          have hcolon : ¬ Text.isWord ':' := by decide +kernel
          have hword : ∀ c ∈ [':'].head?, ¬ Text.isWord c := by simpa using hcolon
          have hadd : addColon [first] = [{ first with text := first.text ++ [':'] }] := rfl
          rw [hadd, closingSteps, closingSteps, Text.trimStart_colon,
            leadingWord?_append isWord_siblingWords hword]
      | cons l rest =>
          obtain ⟨init, last, hlast⟩ : ∃ init last, l :: rest = init ++ [last] :=
            ⟨_, _, (List.dropLast_append_getLast (List.cons_ne_nil l rest)).symm⟩
          rw [hlast, ← List.cons_append, addColon_concat]
          rfl

/-- The end words. -/
theorem exists_of_isEndWord {t : Text} (h : isEndWord t) :
    ∃ w ∈ "" :: openingWords, t = "end".toList ++ w.toList := by
  rw [isEndWord, Bool.or_eq_true, beq_iff_eq, List.any_eq_true] at h
  rcases h with rfl | ⟨w, hw, ht⟩
  · exact ⟨"", List.mem_cons_self, rfl⟩
  · exact ⟨w, List.mem_cons_of_mem _ hw, beq_iff_eq.1 ht⟩

/-- A header is no end word. -/
theorem not_isEndWord_of_startsHeader {t : Text} (h : StartsHeader t) : ¬ isEndWord t := by
  have hwords : ∀ w ∈ "" :: openingWords, ¬ StartsHeader ("end".toList ++ w.toList) := by
    unfold StartsHeader
    decide +kernel
  intro hend
  obtain ⟨w, hw, rfl⟩ := exists_of_isEndWord hend
  exact hwords w hw h

/-- A text with a colon at its end is no end word. -/
theorem not_isEndWord_of_endsWith {t : Text} (h : Text.endsWith t [':']) : ¬ isEndWord t := by
  have hwords : ∀ w ∈ "" :: openingWords, ¬ Text.endsWith ("end".toList ++ w.toList) [':'] := by
    decide +kernel
  intro hend
  obtain ⟨w, hw, rfl⟩ := exists_of_isEndWord hend
  exact hwords w hw h

/-- A single line is the last logical line. -/
theorem lastLogical_singleton (l : CodeLine) : lastLogical [l] = [l] := by
  have hzero (n : Nat) : [l].length - n - 1 = 0 := by
    rw [List.length_singleton]
    omega
  rw [lastLogical, hzero, List.drop_zero]

/-! ## Programs with and without the colon -/

/-- A program is generated by the instructions and then ended. -/
theorem generate_eq_ok_iff {template : String} {strict : Bool} {is : List Instruction} {b : Builder} :
    generate template strict is = .ok b ↔
      ∃ d, Draft.empty.instructAll? is = some d ∧ d.builder.finish template strict = .ok b := by
  rw [generate, ← Draft.builder_empty]
  constructor
  · intro h
    cases hfold : is.foldlM (fun b i => b.add template i) Draft.empty.builder with
    | error e =>
        rw [hfold] at h
        cases h
    | ok b₁ =>
        rw [hfold] at h
        obtain ⟨d, hd, rfl⟩ := Draft.foldlM_add_eq_ok_iff.1 hfold
        exact ⟨d, hd, h⟩
  · rintro ⟨d, hd, hfinish⟩
    rw [Draft.foldlM_add_eq_ok_iff.2 ⟨d, hd, rfl⟩]
    exact hfinish

/-- Instructions with the same steps generate the same program. -/
theorem generate_congr_steps {template : String} {strict : Bool} {before after : List Instruction}
    {i i' : Instruction} (hsteps : i.steps? = i'.steps?) {b : Builder} :
    generate template strict (before ++ i :: after) = .ok b ↔
      generate template strict (before ++ i' :: after) = .ok b := by
  have hinstruct : Draft.empty.instructAll? (before ++ i :: after) =
      Draft.empty.instructAll? (before ++ i' :: after) := by
    rw [Draft.instructAll?_append, Draft.instructAll?_append]
    refine congrArg _ (funext fun d => ?_)
    rw [Draft.instructAll?_cons, Draft.instructAll?_cons, Draft.instruct?, Draft.instruct?, hsteps]
  rw [generate_eq_ok_iff, generate_eq_ok_iff, hinstruct]

/-- The lines that an instruction adds stand in the program, behind those of the instructions before it. -/
theorem exists_lines_of_generate {template : String} {strict : Bool} {before after : List Instruction}
    {i : Instruction} {closed rest : List BuildStep} {ls : List CodeLine} {b : Builder}
    (hi : i.steps? = some (closed ++ (ls.map .add ++ rest)))
    (h : generate template strict (before ++ i :: after) = .ok b) :
    ∃ d d₁, Draft.empty.instructAll? before = some d ∧ d.run? closed = some d₁ ∧
      (d₁.lines ++ ls.map (ProgramLine.mk d₁.blocks.length)).map ProgramLine.text <+: b.lines.toList := by
  obtain ⟨dₐ, line, dₙ, hall, -, hrun, rfl⟩ := exists_closed_of_generate h
  rw [Draft.instructAll?_append, Option.bind_eq_some_iff] at hall
  obtain ⟨d, hd, hall⟩ := hall
  rw [Draft.instructAll?_cons, Draft.instruct?, hi, Option.bind_some, Option.bind_eq_some_iff] at hall
  obtain ⟨d₃, hsteps, hafter⟩ := hall
  rw [Draft.run?_append, Option.bind_eq_some_iff] at hsteps
  obtain ⟨d₁, hclosed, hsteps⟩ := hsteps
  rw [Draft.run?_append, Draft.run?_add, Option.bind_some] at hsteps
  refine ⟨d, d₁, hd, hclosed, ?_⟩
  have hstart := (Draft.prefix_of_run? hsteps).trans
    ((Draft.prefix_of_instructAll? hafter).trans (Draft.prefix_of_run? hrun))
  have hlines : dₙ.builder.lines.toList = dₙ.lines.map ProgramLine.text := rfl
  rw [hlines]
  exact List.IsPrefix.map _ hstart

/-- Lines that get a colon are no longer the same in a program. -/
theorem map_text_addColon_ne {ls : List CodeLine} (h : ls ≠ []) (depth : Nat) :
    ((addColon ls).map (ProgramLine.mk depth)).map ProgramLine.text ≠
      (ls.map (ProgramLine.mk depth)).map ProgramLine.text := by
  obtain ⟨init, l, rfl⟩ : ∃ init l, ls = init ++ [l] :=
    ⟨_, _, (List.dropLast_append_getLast h).symm⟩
  rw [addColon_concat]
  simp only [List.map_append, List.map_cons, List.map_nil]
  intro heq
  have hlast := congrArg List.length (List.singleton_inj.1 (List.append_cancel_left heq))
  simp only [ProgramLine.text, CodeLine.generated] at hlast
  split at hlast <;> simp only [List.length_append, List.length_singleton] at hlast <;> omega

/-- The colon behind a statement whose last logical line is a header may be left out exactly when the
header opens a block alone, and then the program is the same. So the headers that need the colon are those
that only compile where they stand. -/
theorem generate_without_colon_iff {template : String} {strict : Bool} {before after : List Instruction}
    {code : Text} {line : Int} {b : Builder} (hink : code.EndsInk)
    (hheader : StartsHeader (Text.trim (lastText (codeLines code line))))
    (h : generate template strict (before ++ .runStatement (code ++ [':']) line :: after) = .ok b) :
    generate template strict (before ++ .runStatement code line :: after) = .ok b ↔
      ¬ Text.endsWith (Text.trim (lastText (codeLines code line))) [':'] ∧
        OpensAlone (Text.trim (lastText (codeLines code line))) := by
  obtain ⟨ls, hcode⟩ : ∃ ls, codeLines code line = ls := ⟨_, rfl⟩
  rw [hcode] at hheader ⊢
  have hcode' : codeLines (code ++ [':']) line = addColon ls := hcode ▸ codeLines_colon hink line
  have hne : ls ≠ [] := by
    rintro rfl
    exact absurd hheader (by unfold StartsHeader; decide +kernel)
  obtain ⟨init, l, hls⟩ : ∃ init l, ls = init ++ [l] :=
    ⟨_, _, (List.dropLast_append_getLast hne).symm⟩
  have hadd : addColon ls = init ++ [{ l with text := l.text ++ [':'] }] := hls ▸ addColon_concat init l
  have hsteps := steps?_runStatement hcode (fun first hfirst => by
    have htext : lastText ls = first.text := by
      rw [hfirst, lastText, lastLogical_singleton]
      rfl
    exact not_isEndWord_of_startsHeader (htext ▸ hheader)) hne
  have hsteps' := steps?_runStatement hcode' (fun first hfirst => by
    have hlast := congrArg List.getLast? (hadd.symm.trans hfirst)
    rw [List.getLast?_concat] at hlast
    obtain rfl := Option.some.inj hlast
    exact not_isEndWord_of_endsWith (endsWith_colon l.text)) (hadd ▸ List.concat_ne_nil _ _)
  rw [closingSteps_addColon, openingSteps?_addColon hne, Option.map_some] at hsteps'
  -- lines without the colon are not those of the program
  have hdiffer (rest : List BuildStep) (hopening : openingSteps? ls = some (ls.map .add ++ rest)) :
      generate template strict (before ++ .runStatement code line :: after) ≠ .ok b := by
    intro h'
    rw [hopening, Option.map_some] at hsteps
    obtain ⟨d, d₁, hd, hclosed, hstart⟩ := exists_lines_of_generate hsteps' h
    obtain ⟨d', d₁', hd', hclosed', hstart'⟩ := exists_lines_of_generate hsteps h'
    obtain rfl := Option.some.inj (hd.symm.trans hd')
    obtain rfl := Option.some.inj (hclosed.symm.trans hclosed')
    have hlen : (addColon ls).length = ls.length := by rw [hadd, hls]; simp
    have heq := (List.prefix_of_prefix_length_le hstart hstart' (by simp [hlen])).eq_of_length
      (by simp [hlen])
    rw [List.map_append, List.map_append] at heq
    exact map_text_addColon_ne hne _ (List.append_cancel_left heq)
  have hheaderLines : headerLines ls =
      if Text.endsWith (Text.trim (lastText ls)) [':'] then ls else addColon ls := by
    rw [headerLines, ← lastText, endsWith_trim]
  by_cases hcolon : Text.endsWith (Text.trim (lastText ls)) [':']
  · refine ⟨fun h' => absurd h' ?_, fun h' => absurd hcolon h'.1⟩
    have hopens : opensBlock (lastText ls) = .ok true := by rw [opensBlock, if_pos hcolon]
    have hopening := openingSteps?.eq_1 ls
    rw [← lastText, hopens, hheaderLines, if_pos hcolon] at hopening
    exact hdiffer _ hopening
  · have hopens := opensBlock_eq_true_iff hheader hcolon
    refine ⟨fun h' => ⟨hcolon, Classical.byContradiction fun halone => ?_⟩, fun h' => ?_⟩
    · cases hblock : opensBlock (lastText ls) with
      | error e =>
          have hnone : openingSteps? ls = none := by rw [openingSteps?, ← lastText, hblock]
          rw [hnone, Option.map_none] at hsteps
          obtain ⟨d, hd, -⟩ := generate_eq_ok_iff.1 h'
          rw [Draft.instructAll?_append, Option.bind_eq_some_iff] at hd
          obtain ⟨d', -, hd⟩ := hd
          rw [Draft.instructAll?_cons, Draft.instruct?, hsteps] at hd
          cases hd
      | ok opens =>
          cases opens with
          | true => exact halone (hopens.1 hblock)
          | false =>
              refine hdiffer [] ?_ h'
              rw [openingSteps?, ← lastText, hblock, List.append_nil]
    · have hsame : openingSteps? ls = openingSteps? (addColon ls) := by
        rw [openingSteps?_addColon hne, openingSteps?, ← lastText, hopens.2 h'.2, hheaderLines,
          if_neg hcolon]
      rw [hsame, openingSteps?_addColon hne, Option.map_some] at hsteps
      exact (generate_congr_steps (hsteps'.trans hsteps.symm)).1 h

/-- A function with a choice whose header yields a value, which is given with its colon or without. -/
def choiceInGenerator (header : Text) : List Instruction :=
  [.runStatement "def f():".toList 1] ++ .runStatement header 1 ::
    [.emitText ['x'] 1, .runStatement "end".toList 1, .runStatement "end".toList 1]

/-- With its colon the header opens a block and the program compiles. Without it the header, which compiles
within a function only, opens none, and the last end word finds no block. -/
theorem colon_needed_choiceInGenerator : ∃ b,
    generate "page" true (choiceInGenerator ("if (yield 1)".toList ++ [':'])) = .ok b ∧
      b.text = "def f():\n    if (yield 1):\n        _buf.append('x')\n".toList ∧
      (Script.check b.text).isOk ∧
      generate "page" true (choiceInGenerator "if (yield 1)".toList) ≠ .ok b ∧
      generate "page" true (choiceInGenerator "if (yield 1)".toList) =
        .error (.located "page" (some 1) (.unopened "end".toList)) := by
  have hgenerate : generate "page" true (choiceInGenerator ("if (yield 1)".toList ++ [':'])) =
      .ok ⟨#["def f():".toList, "    if (yield 1):".toList, "        _buf.append('x')".toList],
        ⟨[(1, 1), (2, 1), (3, 1)]⟩, 0, []⟩ := by decide +kernel
  have hink : Text.EndsInk "if (yield 1)".toList := ⟨')', by decide +kernel, by decide⟩
  have hheader : StartsHeader (Text.trim (lastText (codeLines "if (yield 1)".toList 1))) := by
    unfold StartsHeader
    decide +kernel
  have halone : ¬ OpensAlone (Text.trim (lastText (codeLines "if (yield 1)".toList 1))) := by
    unfold OpensAlone
    decide +kernel
  refine ⟨_, hgenerate, by decide +kernel, by decide +kernel, fun h => ?_, by decide +kernel⟩
  exact halone ((generate_without_colon_iff hink hheader hgenerate).1 h).2

end Stencil
