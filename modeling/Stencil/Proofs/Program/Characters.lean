import Stencil.Proofs.Program.TemplateLines

/-!
# The characters of programs

A program consists of the code of directives and of fixed, printable texts. So a character that is not
printable stands in a program only where the code of a directive holds it (`exists_codeHolds_of_mem_text`),
and one that is not blank either does stand there (`mem_text_iff`).
-/

namespace Stencil

variable {c : Char}

/-! ## Code -/

/-- Whether the code of an instruction holds a character. -/
def Instruction.CodeHolds (c : Char) : Instruction → Prop
  | emitText _ _ => False
  | emitExpr code _ _ | runStatement code _ => c ∈ code

/-- Whether a segment is a statement or an expression whose code holds a character. -/
def Segment.CodeHolds (c : Char) : Segment → Prop
  | literal _ _ => False
  | directive d => d.kind ≠ .comment ∧ c ∈ d.code

instance (c : Char) : (s : Segment) → Decidable (s.CodeHolds c)
  | .literal _ _ => .isFalse id
  | .directive d => inferInstanceAs (Decidable (d.kind ≠ .comment ∧ c ∈ d.code))

/-- The code of a segment holds a character when the code of one of its instructions does. -/
theorem Segment.codeHolds_iff (s : Segment) : s.CodeHolds c ↔ ∃ i ∈ s.instructions, i.CodeHolds c := by
  cases s with
  | literal t line =>
      refine iff_of_false id ?_
      rintro ⟨i, hi, hc⟩
      rw [List.mem_singleton.1 hi] at hc
      exact hc
  | directive d =>
      have hspace {space : Option Text} {line : Int} {i : Instruction}
          (hi : i ∈ Instruction.ofSpace space line) : ¬ i.CodeHolds c := by
        unfold Instruction.ofSpace at hi
        split at hi
        · cases hi
        · cases hi
        · rw [List.mem_singleton.1 hi]
          exact id
      have hcore : (∃ i ∈ d.core, i.CodeHolds c) ↔ d.kind ≠ .comment ∧ c ∈ d.code := by
        cases hkind : d.kind with
        | statement | escapedExpr | rawExpr => simp [Directive.core, hkind, Instruction.CodeHolds]
        | comment =>
            simp only [Directive.core, hkind]
            split <;> simp [Instruction.CodeHolds]
      refine hcore.symm.trans ?_
      change _ ↔ ∃ i ∈ d.instructions, i.CodeHolds c
      rw [Directive.instructions]
      split
      · rfl
      · constructor
        · rintro ⟨i, hi, hc⟩
          exact ⟨i, List.mem_append_left _ (List.mem_append_right _ hi), hc⟩
        · rintro ⟨i, hi, hc⟩
          rw [List.mem_append, List.mem_append] at hi
          rcases hi with (hi | hi) | hi
          · exact absurd hc (hspace hi)
          · exact ⟨i, hi, hc⟩
          · exact absurd hc (hspace hi)

/-- The code of one of some segments holds a character when that of one of their instructions does. -/
theorem exists_codeHolds_ofSegments {segments : List Segment} :
    (∃ i ∈ Instruction.ofSegments segments, i.CodeHolds c) ↔ ∃ s ∈ segments, s.CodeHolds c := by
  simp only [Segment.codeHolds_iff, Instruction.ofSegments, List.mem_flatMap]
  constructor
  · rintro ⟨i, ⟨s, hs, hi⟩, hc⟩
    exact ⟨s, hs, i, hi, hc⟩
  · rintro ⟨s, hs, i, hi, hc⟩
    exact ⟨i, ⟨s, hs, hi⟩, hc⟩

/-! ## The lines for code -/

/-- A character that is not blank stays in a text that is trimmed. -/
theorem Text.mem_trim_iff (hblank : ¬ isBlank c) {t : Text} : c ∈ trim t ↔ c ∈ t :=
  ⟨mem_of_mem_trim, fun h => (isBlank_or_mem_trim h).resolve_left hblank⟩

/-- A character in the code of a statement that is not blank is in one of its lines. -/
theorem exists_codeLine (hblank : ¬ Text.isBlank c) {code : Text} (line : Int) (h : c ∈ code) :
    ∃ l ∈ codeLines code line, c ∈ l.text := by
  have hbreak : c ≠ '\n' := by
    rintro rfl
    exact hblank (by decide)
  obtain ⟨t, ht, hc⟩ := (Text.mem_lines h).resolve_left hbreak
  obtain ⟨i, hi⟩ := List.mem_iff_getElem?.1 ht
  have hx : (t, i) ∈ (Text.lines code).zipIdx := List.mk_mem_zipIdx_iff_getElem?.2 hi
  have hall : ¬ t.all Text.isBlank := fun h => hblank (List.all_eq_true.1 h c hc)
  have hne : codeLine? code line (t, i) ≠ none := codeLine?_ne_none ht hall
  obtain ⟨l, hl⟩ := Option.ne_none_iff_exists'.1 hne
  have hdedent : c ∈ Text.dedentLine (Text.margin (Text.lines code)).length t := by
    rw [← Text.mem_trim_iff hblank, Text.trim_dedentLine ht, Text.mem_trim_iff hblank]
    exact hc
  refine ⟨l, by rw [codeLines_eq]; exact List.mem_filterMap.2 ⟨_, hx, hl⟩, ?_⟩
  rw [codeLine?] at hl
  split at hl
  · obtain rfl := Option.some.inj hl
    exact hdedent
  · split at hl
    · cases hl
    · obtain rfl := Option.some.inj hl
      dsimp only
      split
      · exact hdedent
      · rw [← Text.mem_trim_iff hblank, Text.trim_trimEnd, Text.mem_trim_iff hblank]
        exact hdedent

/-- A line of a header keeps its characters when the colon that is missing is added. -/
theorem exists_headerLine {ls : List CodeLine} {l : CodeLine} (hl : l ∈ ls) (hc : c ∈ l.text) :
    ∃ l' ∈ headerLines ls, c ∈ l'.text := by
  rw [headerLines]
  split
  · exact ⟨l, hl, hc⟩
  · cases ls using List.reverseRecOn with
    | nil => cases hl
    | append_singleton init last =>
        rw [addColon_concat]
        rcases List.mem_append.1 hl with hl | hl
        · exact ⟨l, List.mem_append_left _ hl, hc⟩
        · rw [List.mem_singleton.1 hl] at hc
          exact ⟨_, List.mem_append_right _ List.mem_cons_self, List.mem_append_left _ hc⟩

/-- The steps for lines add their characters. -/
theorem exists_add_of_openingSteps? {ls : List CodeLine} {ss : List BuildStep}
    (h : openingSteps? ls = some ss) {l : CodeLine} (hl : l ∈ ls) (hc : c ∈ l.text) :
    ∃ l', .add l' ∈ ss ∧ c ∈ l'.text := by
  rw [openingSteps?] at h
  split at h
  · cases h
  · cases h
    exact ⟨l, List.mem_map_of_mem hl, hc⟩
  · cases h
    obtain ⟨l', hl', hc'⟩ := exists_headerLine hl hc
    exact ⟨l', List.mem_append_left _ (List.mem_map_of_mem hl'), hc'⟩

/-- An end word holds printable characters only. -/
theorem isPrintable_of_isEndWord {t : Text} (h : isEndWord t) (hc : c ∈ t) : Text.isPrintable c := by
  have hwords : ∀ w ∈ openingWords, ("end".toList ++ w.toList).all Text.isPrintable := by
    decide
  rw [isEndWord, Bool.or_eq_true, beq_iff_eq, List.any_eq_true] at h
  rcases h with rfl | ⟨w, hw, ht⟩
  · exact List.all_eq_true.1 (by decide) c hc
  · rw [eq_of_beq ht] at hc
    exact List.all_eq_true.1 (hwords w hw) c hc

/-- The line that does nothing holds printable characters only. -/
theorem isPrintable_of_mem_idleLine (hc : c ∈ Builder.idleLine) : Text.isPrintable c :=
  List.all_eq_true.1 (by decide : Builder.idleLine.all Text.isPrintable) c hc

/-- The call that adds a piece of output holds printable characters only. -/
theorem isPrintable_of_mem_append (hc : c ∈ "_buf.append(".toList) : Text.isPrintable c :=
  List.all_eq_true.1 (by decide : "_buf.append(".toList.all Text.isPrintable) c hc

/-- The call for an expression holds the characters of the expression. -/
theorem mem_exprCall {code : Text} (h : c ∈ code) (escaped : Bool) : c ∈ exprCall code escaped := by
  have hbody : c ∈ if code.contains '#' then code ++ ['\n'] else code := by
    split
    · exact List.mem_append_left _ h
    · exact h
  exact List.mem_append_left _ (List.mem_append_right _ (List.mem_cons_of_mem _ hbody))

/-- The call for an expression holds printable characters besides those of the expression and a line
break. -/
theorem of_mem_exprCall {code : Text} {escaped : Bool} (h : c ∈ exprCall code escaped) :
    c ∈ code ∨ c = '\n' ∨ Text.isPrintable c := by
  have hwrapper : (if escaped then "_escape".toList else "_str".toList).all Text.isPrintable := by
    cases escaped <;> decide
  have hending : "))".toList.all Text.isPrintable := by decide
  rcases List.mem_append.1 h with h | h
  · rcases List.mem_append.1 h with h | h
    · rcases List.mem_append.1 h with h | h
      · exact .inr (.inr (isPrintable_of_mem_append h))
      · exact .inr (.inr (List.all_eq_true.1 hwrapper c h))
    · rcases List.mem_cons.1 h with rfl | h
      · exact .inr (.inr (by decide))
      · split at h
        · rcases List.mem_append.1 h with h | h
          · exact .inl h
          · exact .inr (.inl (List.mem_singleton.1 h))
        · exact .inl h
  · exact .inr (.inr (List.all_eq_true.1 hending c h))

/-- The steps for an instruction add the characters of its code that are not blank. -/
theorem exists_add_of_steps? (hblank : ¬ Text.isBlank c) (hprint : ¬ Text.isPrintable c)
    {i : Instruction} {ss : List BuildStep} (h : i.steps? = some ss) (hc : i.CodeHolds c) :
    ∃ l, .add l ∈ ss ∧ c ∈ l.text := by
  have hbreak : c ≠ '\n' := by
    rintro rfl
    exact hblank (by decide)
  cases i with
  | emitText text line => exact False.elim hc
  | emitExpr code escaped line =>
      rw [Instruction.steps?, Option.some_inj] at h
      subst h
      have htrim : c ∈ Text.trim code := (Text.mem_trim_iff hblank).2 hc
      obtain ⟨t, ht, hc⟩ := (Text.mem_lines (mem_exprCall htrim escaped)).resolve_left hbreak
      obtain ⟨k, hk⟩ := List.mem_iff_getElem?.1 ht
      have hx : (t, k) ∈ (Text.lines (exprCall (Text.trim code) escaped)).zipIdx :=
        List.mk_mem_zipIdx_iff_getElem?.2 hk
      rw [exprLines, if_neg (mt List.isEmpty_iff.1 (List.ne_nil_of_mem htrim))]
      refine ⟨⟨line + Text.breaks (code.takeWhile Text.isBlank) + k, t, k = 0⟩, ?_, hc⟩
      exact List.mem_map_of_mem (List.mem_map.2 ⟨(t, k), hx, rfl⟩)
  | runStatement code line =>
      obtain ⟨l, hl, hl'⟩ := exists_codeLine hblank line hc
      change statementSteps? code line = some ss at h
      rw [statementSteps?] at h
      cases hlines : codeLines code line with
      | nil =>
          rw [hlines] at hl
          cases hl
      | cons first rest =>
          rw [hlines] at h hl
          dsimp only at h
          split at h
          · -- an end word stands alone, and holds printable characters only
            next hend =>
              rw [Bool.and_eq_true, List.isEmpty_iff] at hend
              obtain ⟨rfl, hend⟩ := hend
              rw [List.mem_singleton.1 hl] at hl'
              exact absurd (isPrintable_of_isEndWord hend ((Text.mem_trim_iff hblank).2 hl')) hprint
          split at h
          · obtain ⟨ss', hss', rfl⟩ := Option.map_eq_some_iff.1 h
            obtain ⟨l', hadd, hc'⟩ := exists_add_of_openingSteps? hss' hl hl'
            exact ⟨l', List.mem_cons_of_mem _ hadd, hc'⟩
          · exact exists_add_of_openingSteps? h hl hl'

/-- The lines that the steps for an instruction add hold only printable characters besides those of its
code. -/
theorem stepsAdd_notMem (hprint : ¬ Text.isPrintable c) {i : Instruction} {ss : List BuildStep}
    (h : i.steps? = some ss) (hc : ¬ i.CodeHolds c) : StepsAdd (fun l => c ∉ l.text) ss := by
  cases i with
  | emitText text line =>
      rw [Instruction.steps?, Option.some_inj] at h
      subst h
      refine (steps_map_add (fun l hl => ?_) (fun _ => True)).1
      rw [textLines] at hl
      split at hl
      · cases hl
      · rw [List.mem_singleton.1 hl]
        have hending : Text.isPrintable ')' := by decide
        intro hmem
        rcases List.mem_append.1 hmem with hmem | hmem
        · rcases List.mem_append.1 hmem with hmem | hmem
          · exact hprint (isPrintable_of_mem_append hmem)
          · exact hprint (Script.isPrintable_of_mem_quoted hmem)
        · rw [List.mem_singleton.1 hmem] at hprint
          exact hprint hending
  | emitExpr code escaped line =>
      rw [Instruction.steps?, Option.some_inj] at h
      subst h
      refine (steps_map_add (fun l hl => ?_) (fun _ => True)).1
      rw [exprLines] at hl
      split at hl
      · cases hl
      · obtain ⟨x, hx, rfl⟩ := List.mem_map.1 hl
        have ht := List.fst_mem_of_mem_zipIdx hx
        intro hmem
        rcases of_mem_exprCall (Text.mem_of_mem_lines ht hmem) with hcode | rfl | hmem
        · exact hc (Text.mem_of_mem_trim hcode)
        · exact Text.break_not_mem_of_mem_lines ht hmem
        · exact hprint hmem
  | runStatement code line =>
      intro s hs
      obtain ⟨l', hl', ⟨l, rfl, -, htext⟩ | ⟨word, rfl⟩ | rfl⟩ := of_mem_statementSteps? h hs
      · have hcode : c ∉ l'.text := fun hmem => hc (mem_of_mem_codeLines hl' hmem)
        rcases htext with htext | htext
        · change c ∉ l.text
          rwa [htext]
        · change c ∉ l.text
          rw [htext, List.mem_append, List.mem_singleton]
          rintro (hmem | rfl)
          · exact hcode hmem
          · exact hprint (by decide)
      · trivial
      · exact fun hmem => hprint (isPrintable_of_mem_idleLine hmem)

/-! ## Programs -/

namespace Draft

variable {d d' : Draft}

/-- A line that a step adds is there when the steps are done. -/
theorem mem_of_run? {ss : List BuildStep} (h : d.run? ss = some d') {l : CodeLine} (hl : .add l ∈ ss) :
    ∃ p ∈ d'.lines, p.code = l := by
  induction ss generalizing d with
  | nil => cases hl
  | cons s ss ih =>
      obtain ⟨d₁, hstep, hrest⟩ := Option.bind_eq_some_iff.1 h
      rcases List.mem_cons.1 hl with rfl | hl
      · obtain ⟨ls, hls, -⟩ := run?_adds (P := fun _ => True) hrest
          fun s _ => by cases s <;> trivial
        cases hstep
        refine ⟨⟨d.blocks.length, l⟩, ?_, rfl⟩
        rw [hls]
        exact List.mem_append_left _ (List.mem_append_right _ List.mem_cons_self)
      · exact ih hrest hl

/-- A line that a step of an instruction adds is there when the instructions are done. -/
theorem mem_of_instructAll? {is : List Instruction} (h : d.instructAll? is = some d') {i : Instruction}
    (hi : i ∈ is) {ss : List BuildStep} (hss : i.steps? = some ss) {l : CodeLine} (hl : .add l ∈ ss) :
    ∃ p ∈ d'.lines, p.code = l := by
  induction is generalizing d with
  | nil => cases hi
  | cons j is ih =>
      rw [instructAll?_cons, Option.bind_eq_some_iff] at h
      obtain ⟨d₁, hj, hrest⟩ := h
      rcases List.mem_cons.1 hi with rfl | hi
      · rw [instruct?, hss, Option.bind_some] at hj
        obtain ⟨p, hp, hcode⟩ := mem_of_run? hj hl
        exact ⟨p, (prefix_of_instructAll? hrest).subset hp, hcode⟩
      · exact ih hrest hi

/-- Every instruction of a draft has steps. -/
theorem exists_steps?_of_instructAll? {is : List Instruction} (h : d.instructAll? is = some d')
    {i : Instruction} (hi : i ∈ is) : ∃ ss, i.steps? = some ss := by
  induction is generalizing d with
  | nil => cases hi
  | cons j is ih =>
      rw [instructAll?_cons, Option.bind_eq_some_iff] at h
      obtain ⟨d₁, hj, hrest⟩ := h
      rcases List.mem_cons.1 hi with rfl | hi
      · obtain ⟨ss, hss, -⟩ := Option.bind_eq_some_iff.1 hj
        exact ⟨ss, hss⟩
      · exact ih hrest hi

end Draft

section

variable {template : String} {strict : Bool} {is : List Instruction} {b : Builder}

/-- A line of a program holds printable characters besides those of the line that was added. -/
theorem ProgramLine.mem_text_iff (hprint : ¬ Text.isPrintable c) (l : ProgramLine) :
    c ∈ l.text ↔ c ∈ l.code.text := by
  have hspace : c ≠ ' ' := by
    rintro rfl
    exact hprint (by decide)
  rw [ProgramLine.text, CodeLine.generated]
  split
  · rw [List.mem_append, List.mem_replicate]
    exact or_iff_right fun h => hspace h.2
  · rfl

/-- A character that is not printable and no line break is in the text of a program when it is in one of
its lines. -/
theorem Draft.mem_text_builder (hprint : ¬ Text.isPrintable c) (hbreak : c ≠ '\n') (d : Draft) :
    c ∈ d.builder.text ↔ ∃ l ∈ d.lines, c ∈ l.code.text := by
  rw [Builder.text, List.mem_flatMap]
  constructor
  · rintro ⟨t, ht, hc⟩
    obtain ⟨l, hl, rfl⟩ := List.mem_map.1 ht
    rcases List.mem_append.1 hc with hc | hc
    · exact ⟨l, hl, (l.mem_text_iff hprint).1 hc⟩
    · exact absurd (List.mem_singleton.1 hc) hbreak
  · rintro ⟨l, hl, hc⟩
    exact ⟨l.text, List.mem_map_of_mem hl, List.mem_append_left _ ((l.mem_text_iff hprint).2 hc)⟩

/-- A character of a program that is neither printable nor a line break is in the code of an
instruction. -/
theorem exists_codeHolds_of_mem_text (hprint : ¬ Text.isPrintable c) (hbreak : c ≠ '\n')
    (h : generate template strict is = .ok b) (hc : c ∈ b.text) : ∃ i ∈ is, i.CodeHolds c := by
  obtain ⟨d, ls, hd, rfl, hls⟩ := exists_draft_of_generate h
  by_contra hnone
  obtain ⟨⟨added, hadded, hnot⟩, -⟩ := Draft.instructAll?_adds (P := fun l => c ∉ l.text)
    (Q := fun _ => True) hd
    (fun i hi ss hss => ⟨stepsAdd_notMem hprint hss fun hcode => hnone ⟨i, hi, hcode⟩,
      fun _ _ _ => trivial⟩) fun _ _ => trivial
  obtain ⟨l, hl, hc⟩ := (Draft.mem_text_builder hprint hbreak _).1 hc
  rcases List.mem_append.1 hl with hl | hl
  · rw [hadded] at hl
    exact hnot l hl hc
  · obtain ⟨k, -, hcode⟩ := hls l hl
    rw [hcode] at hc
    exact hprint (isPrintable_of_mem_idleLine hc)

/-- A character that is neither printable nor blank is in a program exactly when it is in the code of an
instruction. -/
theorem mem_text_iff (hblank : ¬ Text.isBlank c) (hprint : ¬ Text.isPrintable c)
    (h : generate template strict is = .ok b) : c ∈ b.text ↔ ∃ i ∈ is, i.CodeHolds c := by
  have hbreak : c ≠ '\n' := by
    rintro rfl
    exact hblank (by decide)
  refine ⟨exists_codeHolds_of_mem_text hprint hbreak h, ?_⟩
  rintro ⟨i, hi, hc⟩
  obtain ⟨d, ls, hd, rfl, -⟩ := exists_draft_of_generate h
  obtain ⟨ss, hss⟩ := Draft.exists_steps?_of_instructAll? hd hi
  obtain ⟨l, hl, hc⟩ := exists_add_of_steps? hblank hprint hss hc
  obtain ⟨p, hp, rfl⟩ := Draft.mem_of_instructAll? hd hi hss hl
  exact (Draft.mem_text_builder hprint hbreak _).2 ⟨p, List.mem_append_left _ hp, hc⟩

end

end Stencil
