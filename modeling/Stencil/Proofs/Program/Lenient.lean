import Stencil.Proofs.Program.Blocks

/-!
# Lenient programs are strict programs with their ends written out

In lenient mode the blocks that are open behind the last instruction are closed, all of them where the
innermost one was opened. An `end` on that line for each of them does the same (`foldlM_endStatement`), so
lenient mode gives what strict mode gives once these are written out (`generate_lenient_eq_strict`).
-/

namespace Stencil

/-- The statement on a template line that closes the innermost block. -/
def endStatement (line : Int) : Instruction :=
  .runStatement "end".toList line

/-- The program of instructions before it is finished: blocks may still be open. -/
def generateOpen (template : String) (is : List Instruction) : Except CompileError Builder :=
  is.foldlM (fun b i => b.add template i) Builder.empty

/-- Whether an error is that of a block that is open at the end. -/
def CompileError.IsUnclosed (e : CompileError) : Prop :=
  ∃ template line word, e = .located template line (.unclosed word)

namespace Builder

variable {b : Builder} {template : String}

/-- An `end` closes the innermost block on its own line. -/
theorem add_endStatement (template : String) (line : Int) {b' : Builder} {block : Block}
    (h : b.closeBlock? line = some (b', block)) : b.add template (endStatement line) = .ok b' := by
  have hlines : codeLines "end".toList line = [⟨line, "end".toList, true⟩] :=
    codeLines_of_isSingle (by decide +kernel) line
  have hword : isEndWord (Text.trim "end".toList) = true := by decide +kernel
  rw [endStatement, add, addStatement, hlines]
  dsimp only
  rw [hword, List.isEmpty_nil, Bool.and_self, if_pos rfl, closeFor, h]

/-- Where a block is open it can be closed, and then one block less is open. -/
theorem exists_closeBlock? {n : Nat} (h : b.blocks.length = n + 1) (line : Int) :
    ∃ b' block, b.closeBlock? line = some (b', block) ∧ b'.blocks.length = n := by
  cases hblocks : b.blocks with
  | nil => simp [hblocks] at h
  | cons block outer =>
      have hlength : outer.length = n := by simpa [hblocks] using h
      refine ⟨_, block, by rw [closeBlock?, hblocks], ?_⟩
      dsimp only
      split <;> exact hlength

/-- As many ends as blocks are open close them all, like the end of a lenient program. -/
theorem foldlM_endStatement (template : String) (line : Int) {n : Nat} (h : b.blocks.length = n) :
    (List.replicate n (endStatement line)).foldlM (fun b i => b.add template i) b =
      .ok (closeAll line n b) ∧ (closeAll line n b).blocks = [] := by
  induction n generalizing b with
  | zero => exact ⟨rfl, List.length_eq_zero_iff.1 h⟩
  | succ n ih =>
      obtain ⟨b', block, hclose, hlength⟩ := exists_closeBlock? h line
      rw [List.replicate_succ, List.foldlM_cons, add_endStatement template line hclose, closeAll, hclose]
      exact ih hlength

/-- Closing a block for a statement fails only where no block is open. -/
theorem not_isUnclosed_of_closeFor {first : CodeLine} {e : CompileError}
    (h : b.closeFor template first = .error e) : ¬ e.IsUnclosed := by
  rw [closeFor] at h
  split at h
  · cases h
  · cases h
    rintro ⟨_, _, _, he⟩
    cases he

/-- Adding the lines of a statement fails only for a null character. -/
theorem not_isUnclosed_of_addOpening {ls : List CodeLine} {e : CompileError}
    (h : b.addOpening ls = .error e) : ¬ e.IsUnclosed := by
  rw [addOpening] at h
  dsimp only at h
  split at h
  · cases h
    rintro ⟨_, _, _, he⟩
    cases he
  · cases h
  · split at h <;> cases h

/-- An instruction does not fail for a block that is open at the end. -/
theorem not_isUnclosed_of_add {i : Instruction} {e : CompileError} (h : b.add template i = .error e) :
    ¬ e.IsUnclosed := by
  cases i with
  | emitText text line => cases h
  | emitExpr code escaped line => cases h
  | runStatement code line =>
      rw [add, addStatement] at h
      cases hlines : codeLines code line with
      | nil => simp [hlines] at h
      | cons first rest =>
          rw [hlines] at h
          dsimp only at h
          split at h
          · exact not_isUnclosed_of_closeFor h
          split at h
          · cases hclose : b.closeFor template first with
            | error e' =>
                obtain rfl : e' = e := by simpa [hclose, bind, Except.bind] using h
                exact not_isUnclosed_of_closeFor hclose
            | ok b' =>
                simp only [hclose, bind, Except.bind] at h
                exact not_isUnclosed_of_addOpening h
          · exact not_isUnclosed_of_addOpening h

/-- Instructions do not fail for a block that is open at the end. -/
theorem not_isUnclosed_of_foldlM {is : List Instruction} {e : CompileError}
    (h : is.foldlM (fun b i => b.add template i) b = .error e) : ¬ e.IsUnclosed := by
  induction is generalizing b with
  | nil => cases h
  | cons i is ih =>
      rw [List.foldlM_cons] at h
      cases hadd : b.add template i with
      | error e' =>
          rw [hadd] at h
          cases h
          exact not_isUnclosed_of_add hadd
      | ok b' =>
          rw [hadd] at h
          exact ih h

end Builder

/-- A program is generated by adding its instructions and finishing it. -/
theorem generate_eq (template : String) (strict : Bool) (is : List Instruction) :
    generate template strict is = (generateOpen template is).bind (·.finish template strict) := rfl

/-- Further instructions are added behind the first ones. -/
theorem generateOpen_append {template : String} {is : List Instruction} {b : Builder}
    (h : generateOpen template is = .ok b) (is' : List Instruction) :
    generateOpen template (is ++ is') = is'.foldlM (fun b i => b.add template i) b := by
  rw [generateOpen] at h ⊢
  rw [List.foldlM_append, h]
  rfl

/-- In strict mode an open block is at fault exactly where the instructions can be added and leave blocks
open, and the line is that of the innermost one. -/
theorem generate_strict_eq_unclosed_iff {template : String} {is : List Instruction} {t : String}
    {line : Option Int} {word : Text} :
    generate template true is = .error (.located t line (.unclosed word)) ↔
      ∃ b block outer, generateOpen template is = .ok b ∧ b.blocks = block :: outer ∧
        t = template ∧ line = some block.line ∧ word = block.word := by
  rw [generate_eq]
  cases hopen : generateOpen template is with
  | error e =>
      have hnot : ¬ e.IsUnclosed := Builder.not_isUnclosed_of_foldlM hopen
      constructor
      · intro h
        cases h
        exact absurd ⟨_, _, _, rfl⟩ hnot
      · rintro ⟨_, _, _, h, -⟩
        cases h
  | ok b =>
      rw [Except.bind, Builder.finish]
      cases hblocks : b.blocks with
      | nil =>
          constructor
          · intro h
            cases h
          · rintro ⟨_, _, _, hb, hcons, -⟩
            cases hb
            cases hblocks.symm.trans hcons
      | cons block outer =>
          dsimp only
          rw [if_pos rfl]
          constructor
          · intro h
            cases h
            exact ⟨b, block, outer, rfl, hblocks, rfl, rfl, rfl⟩
          · rintro ⟨_, block', outer', hb, hcons, rfl, rfl, rfl⟩
            cases hb
            cases hblocks.symm.trans hcons
            rfl

/-- Lenient mode fails exactly where strict mode fails for another reason than an open block, with the same
error. What strict mode generates lenient mode generates too. Where strict mode fails because blocks are
open, lenient mode generates the program that strict mode generates from the instructions and as many ends
as blocks are open, all on the line of that error. -/
theorem generate_lenient_eq_strict (template : String) (is : List Instruction) :
    (∀ e, generate template false is = .error e ↔
      generate template true is = .error e ∧ ¬ e.IsUnclosed) ∧
    (∀ b, generate template true is = .ok b → generate template false is = .ok b) ∧
    (∀ t line word, generate template true is = .error (.located t line (.unclosed word)) →
      ∃ opened innermost b, generateOpen template is = .ok opened ∧ 0 < opened.blocks.length ∧
        line = some innermost ∧ generate template false is = .ok b ∧
        generate template true
          (is ++ List.replicate opened.blocks.length (endStatement innermost)) = .ok b) := by
  refine ⟨fun e => ?_, fun b hb => ?_, fun t line word h => ?_⟩
  · rw [generate_eq, generate_eq]
    cases hopen : generateOpen template is with
    | error e' =>
        have hnot : ¬ e'.IsUnclosed := Builder.not_isUnclosed_of_foldlM hopen
        refine ⟨fun h => ⟨h, ?_⟩, fun h => h.1⟩
        cases h
        exact hnot
    | ok b =>
        simp only [Except.bind, Builder.finish]
        cases b.blocks with
        | nil => simp
        | cons block outer =>
            simp only [Bool.false_eq_true, if_false, if_true, reduceCtorEq, Except.error.injEq, false_iff,
              not_and, not_not]
            rintro rfl
            exact ⟨_, _, _, rfl⟩
  · rw [generate_eq] at hb ⊢
    cases hopen : generateOpen template is with
    | error e => simp [hopen, Except.bind] at hb
    | ok b' =>
        rw [hopen, Except.bind, Builder.finish] at hb
        rw [Except.bind, Builder.finish]
        cases hblocks : b'.blocks with
        | nil => simpa [hblocks] using hb
        | cons block outer => simp [hblocks] at hb
  · obtain ⟨opened, block, outer, hopen, hblocks, -, rfl, -⟩ := generate_strict_eq_unclosed_iff.1 h
    obtain ⟨hends, hclosed⟩ := Builder.foldlM_endStatement template block.line
      (b := opened) (n := opened.blocks.length) rfl
    refine ⟨opened, block.line, Builder.closeAll block.line opened.blocks.length opened, hopen, ?_, rfl, ?_, ?_⟩
    · rw [hblocks]
      exact Nat.succ_pos _
    · rw [generate_eq, hopen, Except.bind, Builder.finish]
      split
      · next hnil => cases hblocks.symm.trans hnil
      · next hcons =>
          cases hblocks.symm.trans hcons
          rw [if_neg Bool.false_ne_true]
    · rw [generate_eq, generateOpen_append hopen, hends, Except.bind, Builder.finish, hclosed]

/-- A choice within a loop, both of them open at the end. -/
def openChoice : List Instruction :=
  [.runStatement "for x in xs:".toList 1, .runStatement "if x:".toList 2]

/-- Two ends on the line of the inner block make the program of lenient mode. -/
theorem generate_lenient_openChoice :
    generate "page" true openChoice = .error (.located "page" (some 2) (.unclosed "if".toList)) ∧
    ∃ b, generate "page" false openChoice = .ok b ∧
      generate "page" true (openChoice ++ [endStatement 2, endStatement 2]) = .ok b := by
  have hopen : ∃ b, generateOpen "page" openChoice = .ok b ∧
      b.blocks = [⟨"if".toList, 2, 2⟩, ⟨"for".toList, 1, 1⟩] := ⟨_, rfl, by decide +kernel⟩
  obtain ⟨b, hb, hblocks⟩ := hopen
  have hstrict : generate "page" true openChoice =
      .error (.located "page" (some 2) (.unclosed "if".toList)) :=
    generate_strict_eq_unclosed_iff.2 ⟨b, _, _, hb, hblocks, rfl, rfl, rfl⟩
  obtain ⟨b', innermost, finished, hb', -, hline, hlenient, hends⟩ :=
    (generate_lenient_eq_strict "page" openChoice).2.2 _ _ _ hstrict
  obtain rfl := Except.ok.inj (hb.symm.trans hb')
  obtain rfl := Option.some.inj hline
  rw [hblocks] at hends
  exact ⟨hstrict, finished, hlenient, hends⟩

end Stencil
