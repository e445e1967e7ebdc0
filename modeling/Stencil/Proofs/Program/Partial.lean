import Stencil.Proofs.Program.Indentation
import Stencil.Proofs.Program.Lenient

/-!
# Generating a program never crashes

Some steps of generating a program are partial: the largest of some numbers is asked for, or the place of
a character, or a line by its number, or the innermost block is closed. The careful generation takes each
such step as it is and crashes where it finds nothing. It never does (`Careful.generate_eq`): what guards
these steps is that the first line of a statement always starts a logical line. All that stops generating
a program are unbalanced blocks, and a null character in a statement that is examined
(`generate_never_crashes`).
-/

namespace Stencil

namespace Careful

/-- A partial step that finds nothing. -/
inductive Crash where
  /-- The largest of no numbers. -/
  | noLargest
  /-- A character, or its place in a text that does not hold it. -/
  | noCharacter
  /-- A line behind the last one. -/
  | noLine
  /-- A block to be closed where none is open. -/
  | noBlock
  deriving Repr, DecidableEq

/-- Why generating a program stops: for an error of compilation, or in a crash. -/
inductive Stop where
  | fault (e : CompileError)
  | crash (c : Crash)
  deriving Repr, DecidableEq

/-! ## Careful generation -/

/-- What a partial step finds. -/
def found {α : Type} (c : Crash) : Option α → Except Stop α
  | some a => .ok a
  | none => .error (.crash c)

/-- Closes the innermost block. -/
def closeBlock (b : Builder) (line : Int) : Except Stop Builder := do
  let (b, _) ← found .noBlock (b.closeBlock? line)
  return b

/-- Closes the innermost block for a statement. It is looked first whether there is one. -/
def closeFor (b : Builder) (template : String) (first : CodeLine) : Except Stop Builder :=
  if b.blocks.isEmpty then
    .error (.fault (.located template (some first.line) (.unopened (Text.trim first.text))))
  else closeBlock b first.line

/-- The number of the last line that starts a logical line. -/
def lastStart (ls : List CodeLine) : Except Stop Nat :=
  found .noLargest ((ls.zipIdx.filter (·.1.starts)).map (·.2)).max?

/-- Puts a colon behind the last line. -/
def addColon (ls : List CodeLine) : Except Stop (List CodeLine) := do
  let l ← found .noLine ls.getLast?
  return ls.dropLast ++ [{ l with text := l.text ++ [':'] }]

/-- Adds a statement that is no end word; the block it continues is closed already. -/
def addOpening (b : Builder) (ls : List CodeLine) : Except Stop Builder := do
  let start ← lastStart ls
  let text := Text.joinLines ((ls.drop start).map (·.text))
  match opensBlock text with
  | .error _ => .error (.fault .nullCharacter)
  | .ok false => return b.addCode ls
  | .ok true =>
    let ls' ← if Text.endsWith (Text.trimEnd text) [':'] then pure ls else addColon ls
    let head ← found .noLine ls'[start]?
    return (b.addCode ls').openBlock (blockWord head.text) head.line

/-- Adds a statement. -/
def addStatement (b : Builder) (template : String) (code : Text) (line : Int) :
    Except Stop Builder :=
  match codeLines code line with
  | [] => .ok b
  | first :: rest =>
    if rest.isEmpty && isEndWord (Text.trim first.text) then closeFor b template first
    else if (leadingWord? siblingWords (Text.trimStart first.text)).isSome then do
      let b ← closeFor b template first
      addOpening b (first :: rest)
    else addOpening b (first :: rest)

/-- The part of a code in front of the place where the first character of its trimmed text occurs
first. -/
def beforeFirst (code : Text) : Except Stop Text := do
  let c ← found .noCharacter (Text.trim code).head?
  let i ← found .noCharacter (code.idxOf? c)
  return code.take i

/-- Adds an expression whose value is emitted. -/
def addExpr (b : Builder) (code : Text) (escaped : Bool) (line : Int) : Except Stop Builder := do
  let trimmed := Text.trim code
  if trimmed.isEmpty then return b
  let start := line + Text.breaks (← beforeFirst code)
  return (Text.lines (exprCall trimmed escaped)).zipIdx.foldl
    (fun b (t, i) => b.addLine t (start + i) (i = 0)) b

/-- Adds an instruction. -/
def add (b : Builder) (template : String) : Instruction → Except Stop Builder
  | .emitText text line => .ok (b.addText text line)
  | .emitExpr code escaped line => addExpr b code escaped line
  | .runStatement code line => addStatement b template code line

/-- Closes a number of blocks at a line. -/
def closeAll (line : Int) : Nat → Builder → Except Stop Builder
  | 0, b => .ok b
  | n + 1, b => do closeAll line n (← closeBlock b line)

/-- The end of a program. -/
def finish (b : Builder) (template : String) (strict : Bool) : Except Stop Builder :=
  match b.blocks with
  | [] => .ok b
  | block :: _ =>
    if strict then .error (.fault (.located template (some block.line) (.unclosed block.word)))
    else closeAll block.line b.blocks.length b

/-- Generates the program of instructions. -/
def generate (template : String) (strict : Bool) (instructions : List Instruction) :
    Except Stop Builder := do
  let b ← instructions.foldlM (fun b i => add b template i) Builder.empty
  finish b template strict

/-! ## It is generation -/

/-- What stops generation with an error stops it carefully with the same error. -/
def ofFaults {α : Type} : Except CompileError α → Except Stop α :=
  Except.mapError Stop.fault

/-- Two steps that stop for errors only stop for errors only. -/
theorem ofFaults_bind {α β : Type} {x : Except CompileError α} {f : α → Except CompileError β}
    {y : Except Stop α} {g : α → Except Stop β} (hx : y = ofFaults x)
    (hf : ∀ a, x = .ok a → g a = ofFaults (f a)) : y >>= g = ofFaults (x >>= f) := by
  subst hx
  cases x with
  | error e => rfl
  | ok a => exact hf a rfl

variable {b : Builder} {template : String}

/-- A block is closed only where one is open. -/
theorem closeFor_eq (b : Builder) (template : String) (first : CodeLine) :
    closeFor b template first = ofFaults (b.closeFor template first) := by
  rw [closeFor, Builder.closeFor, closeBlock, Builder.closeBlock?]
  cases b.blocks <;> rfl

/-- The number of the last line that starts a logical line is that of the first line of the last logical
line. -/
theorem lastStart_eq {before rest : List CodeLine} {head : CodeLine} (hhead : head.starts)
    (hrest : ∀ l ∈ rest, l.starts = false) :
    lastStart (before ++ head :: rest) = .ok before.length := by
  have hmax : (((before ++ head :: rest).zipIdx.filter (·.1.starts)).map (·.2)).max? =
      some before.length := by
    refine List.max?_eq_some_iff.2 ⟨?_, fun k hk => ?_⟩
    · refine List.mem_map.2 ⟨(head, before.length), List.mem_filter.2 ⟨?_, hhead⟩, rfl⟩
      exact List.mk_mem_zipIdx_iff_getElem?.2 (by simp)
    · obtain ⟨⟨l, i⟩, hl, rfl⟩ := List.mem_map.1 hk
      obtain ⟨hmem, hstarts⟩ := List.mem_filter.1 hl
      have hget : (before ++ head :: rest)[i]? = some l := List.mk_mem_zipIdx_iff_getElem?.1 hmem
      refine Nat.le_of_not_lt fun hlt => ?_
      obtain ⟨j, rfl⟩ : ∃ j, i = before.length + (j + 1) := ⟨i - before.length - 1, by omega⟩
      rw [List.getElem?_append_right (Nat.le_add_right _ _), Nat.add_sub_cancel_left,
        List.getElem?_cons_succ] at hget
      have hnot := hrest l (List.mem_of_getElem? hget)
      rw [hstarts] at hnot
      cases hnot
  rw [lastStart, hmax]
  rfl

/-- The line at the place of the header is the header, with its colon or without. -/
theorem getElem?_headerLines {before rest : List CodeLine} {head : CodeLine}
    (hlast : lastLogical (before ++ head :: rest) = head :: rest) (colon : Bool) :
    ∃ head' rest', (if colon then before ++ head :: rest else Stencil.addColon (before ++ head :: rest)) =
      before ++ head' :: rest' ∧
      lastLogical (if colon then before ++ head :: rest
        else Stencil.addColon (before ++ head :: rest)) = head' :: rest' := by
  cases colon with
  | true => exact ⟨head, rest, rfl, hlast⟩
  | false =>
      obtain ⟨init, l, hinit⟩ : ∃ init l, head :: rest = init ++ [l] :=
        ⟨_, _, (List.dropLast_append_getLast (List.cons_ne_nil head rest)).symm⟩
      have hne : before ++ head :: rest ≠ [] := by simp
      have hadd := lastLogical_addColon hne
      have hsame : head :: rest = head :: rest := rfl
      obtain ⟨head', rest', hcons, -, -⟩ := head_addColon hsame
      rw [if_neg Bool.false_ne_true]
      refine ⟨head', rest', ?_, ?_⟩
      · rw [← hcons, hinit, ← List.append_assoc, addColon_concat, addColon_concat, List.append_assoc]
      · rw [hadd, hlast, hcons]

/-- A statement whose first line starts a logical line has a last one, which is examined. -/
theorem addOpening_eq (b : Builder) {ls : List CodeLine} (h : ∃ l ∈ ls, l.starts) :
    addOpening b ls = ofFaults (b.addOpening ls) := by
  obtain ⟨before, head, rest, rfl, hlast, hhead, hrest⟩ := exists_lastLogical h
  have hdrop : (before ++ head :: rest).drop before.length = head :: rest := List.drop_left
  rw [addOpening, Builder.addOpening, lastStart_eq hhead hrest]
  simp only [bind, Except.bind, pure, Except.pure, hdrop, hlast]
  cases opensBlock (Text.joinLines ((head :: rest).map (·.text))) with
  | error e => rfl
  | ok opens =>
      cases opens with
      | false => rfl
      | true =>
          obtain ⟨head', rest', hlines, hlast'⟩ := getElem?_headerLines hlast
            (Text.endsWith (Text.trimEnd (Text.joinLines ((head :: rest).map (·.text)))) [':'])
          have hcolon : addColon (before ++ head :: rest) =
              .ok (Stencil.addColon (before ++ head :: rest)) := by
            rw [addColon, Stencil.addColon]
            cases hget : (before ++ head :: rest).getLast? with
            | none => simp at hget
            | some l => rfl
          dsimp only
          rw [hlast', hlines]
          split
          · next hends =>
            rw [if_pos hends] at hlines
            dsimp only
            rw [hlines]
            simp [found, ofFaults, Except.mapError]
          · next hends =>
            rw [if_neg hends] at hlines
            rw [hcolon]
            dsimp only
            rw [hlines]
            simp [found, ofFaults, Except.mapError]

/-- A statement is added without a crash: its first line starts a logical line. -/
theorem addStatement_eq (b : Builder) (template : String) (code : Text) (line : Int) :
    addStatement b template code line = ofFaults (b.addStatement template code line) := by
  rw [addStatement, Builder.addStatement]
  cases hlines : codeLines code line with
  | nil => rfl
  | cons first rest =>
      have hstarts : ∃ l ∈ first :: rest, l.starts := by
        obtain ⟨first', more, hcons, hfirst⟩ :=
          exists_codeLines_cons (by rw [hlines]; exact List.cons_ne_nil _ _)
        rw [hlines] at hcons
        exact ⟨first', hcons ▸ List.mem_cons_self, hfirst⟩
      dsimp only
      split
      · exact closeFor_eq b template first
      split
      · exact ofFaults_bind (closeFor_eq b template first) fun b' _ => addOpening_eq b' hstarts
      · exact addOpening_eq b hstarts

/-- In front of the first place of the first character that is not blank there are only blanks. -/
theorem beforeFirst_eq {code : Text} (h : Text.trim code ≠ []) :
    beforeFirst code = .ok (code.takeWhile Text.isBlank) := by
  obtain ⟨c, r, hdrop⟩ : ∃ c r, code.dropWhile Text.isBlank = c :: r :=
    List.exists_cons_of_ne_nil fun hnil => h (by rw [Text.trim, Text.trimStart, hnil]; rfl)
  have hsplit : code.takeWhile Text.isBlank ++ c :: r = code := by
    rw [← hdrop, List.takeWhile_append_dropWhile]
  have hblank : Text.isBlank c = false := by
    have hnot := List.head?_dropWhile_not Text.isBlank code
    rw [hdrop] at hnot
    simpa using hnot
  have hhead : (Text.trim code).head? = some c := by
    rw [Text.trim, Text.trimStart, hdrop, Text.trimEnd_cons, if_neg]
    · rfl
    · simp [hblank]
  have hnot : c ∉ code.takeWhile Text.isBlank := by
    intro hmem
    rw [List.mem_takeWhile_imp hmem] at hblank
    cases hblank
  have hplace : code.idxOf? c = some (code.takeWhile Text.isBlank).length := by
    conv => lhs; rw [← hsplit]
    refine List.idxOf?_eq_some_iff.2 ⟨by simp, by simp, fun j hj heq => hnot ?_⟩
    rw [List.getElem_append_left hj] at heq
    exact heq ▸ List.getElem_mem hj
  have htake : code.take (code.takeWhile Text.isBlank).length = code.takeWhile Text.isBlank :=
    (List.prefix_iff_eq_take.1 (List.takeWhile_prefix _)).symm
  rw [beforeFirst, hhead]
  simp only [found, bind, Except.bind, pure, Except.pure, hplace, htake]

/-- An expression is added without a crash: its trimmed text starts with a character of the code. -/
theorem addExpr_eq (b : Builder) (code : Text) (escaped : Bool) (line : Int) :
    addExpr b code escaped line = .ok (b.addExpr code escaped line) := by
  rw [addExpr, Builder.addExpr]
  dsimp only
  split
  · rfl
  · next hne =>
    rw [beforeFirst_eq (mt List.isEmpty_iff.2 hne)]
    rfl

/-- An instruction is added without a crash. -/
theorem add_eq (b : Builder) (template : String) (i : Instruction) :
    add b template i = ofFaults (b.add template i) := by
  cases i with
  | emitText text line => rfl
  | emitExpr code escaped line => exact addExpr_eq b code escaped line
  | runStatement code line => exact addStatement_eq b template code line

/-- Instructions are added without a crash, whatever blocks are open before. -/
theorem foldlM_add_eq (b : Builder) (template : String) (is : List Instruction) :
    is.foldlM (fun b i => add b template i) b =
      ofFaults (is.foldlM (fun b i => b.add template i) b) := by
  induction is generalizing b with
  | nil => rfl
  | cons i is ih =>
      rw [List.foldlM_cons, List.foldlM_cons]
      exact ofFaults_bind (add_eq b template i) fun b' _ => ih b'

/-- As many blocks can be closed as are open. -/
theorem closeAll_eq {n : Nat} {b : Builder} (h : b.blocks.length = n) (line : Int) :
    closeAll line n b = .ok (Builder.closeAll line n b) := by
  induction n generalizing b with
  | zero => rfl
  | succ n ih =>
      obtain ⟨b', block, hclose, hlength⟩ := Builder.exists_closeBlock? h line
      rw [closeAll, closeBlock, Builder.closeAll, hclose]
      exact ih hlength

/-- A program is finished without a crash. -/
theorem finish_eq (b : Builder) (template : String) (strict : Bool) :
    finish b template strict = ofFaults (b.finish template strict) := by
  rw [finish, Builder.finish]
  cases hblocks : b.blocks with
  | nil => rfl
  | cons block outer =>
      cases strict with
      | true => rfl
      | false => exact closeAll_eq (congrArg List.length hblocks) block.line

/-- Careful generation is generation: no partial step finds nothing. -/
theorem generate_eq (template : String) (strict : Bool) (is : List Instruction) :
    generate template strict is = ofFaults (Stencil.generate template strict is) :=
  ofFaults_bind (foldlM_add_eq Builder.empty template is) fun b _ => finish_eq b template strict

end Careful

/-! ## Errors -/

/-- An error of unbalanced blocks in a template, which names a line. -/
def CompileError.IsUnbalanced (template : String) (e : CompileError) : Prop :=
  ∃ line, (∃ statement, e = .located template (some line) (.unopened statement)) ∨
    ∃ word, e = .located template (some line) (.unclosed word)

/-- A statement cannot be examined: its last logical line holds a null character. -/
def Instruction.IsUnreadable (i : Instruction) : Prop :=
  ∃ code line last, i = .runStatement code line ∧
    last = Text.joinLines ((lastLogical (codeLines code line)).map (·.text)) ∧
    Char.ofNat 0 ∈ last ∧ opensBlock last = .error .nullCharacter

namespace Builder

variable {b : Builder} {template : String} {e : CompileError}

/-- No block can be closed for a statement when the blocks are unbalanced. -/
theorem isUnbalanced_of_closeFor {first : CodeLine} (h : b.closeFor template first = .error e) :
    e.IsUnbalanced template := by
  rw [closeFor] at h
  split at h
  · cases h
  · exact ⟨_, .inl ⟨_, (Except.error.inj h).symm⟩⟩

/-- Whether a statement opens a block is not known only for a null character. -/
theorem opensBlock_eq_error {statement : Text} {e : Script.CheckError}
    (h : opensBlock statement = .error e) : e = .nullCharacter := by
  rw [opensBlock] at h
  split at h
  · cases h
  split at h
  · cases h
  split at h
  · cases h
  split at h
  · cases h
  split at h
  · cases h
  · cases h
  · exact (Except.error.inj h).symm

/-- Adding the lines of a statement fails only for a null character in it. -/
theorem isUnreadable_of_addOpening {code : Text} {line : Int}
    (h : b.addOpening (codeLines code line) = .error e) :
    e = .nullCharacter ∧ (Instruction.runStatement code line).IsUnreadable := by
  rw [addOpening] at h
  dsimp only at h
  split at h
  · next e' heq =>
    have hnull := Classical.byContradiction fun hnull => opensBlock_ne_error hnull e' heq
    exact ⟨(Except.error.inj h).symm, code, line, _, rfl, rfl, hnull, opensBlock_eq_error heq ▸ heq⟩
  · cases h
  · split at h <;> cases h

/-- Adding an instruction fails for unbalanced blocks, or for a null character in it. -/
theorem fails_of_add {i : Instruction} (h : b.add template i = .error e) :
    e.IsUnbalanced template ∨ e = .nullCharacter ∧ i.IsUnreadable := by
  cases i with
  | emitText text line => cases h
  | emitExpr code escaped line => cases h
  | runStatement code line =>
      rw [add, addStatement] at h
      cases hlines : codeLines code line with
      | nil => simp [hlines] at h
      | cons first rest =>
          rw [hlines] at h
          dsimp only at h
          split at h
          · exact .inl (isUnbalanced_of_closeFor h)
          rw [← hlines] at h
          split at h
          · cases hclose : b.closeFor template first with
            | error e' =>
                obtain rfl : e' = e := by simpa [hclose, bind, Except.bind] using h
                exact .inl (isUnbalanced_of_closeFor hclose)
            | ok b' =>
                simp only [hclose, bind, Except.bind] at h
                exact .inr (isUnreadable_of_addOpening h)
          · exact .inr (isUnreadable_of_addOpening h)

/-- Adding instructions fails for unbalanced blocks, or for a null character in one of them. -/
theorem fails_of_foldlM {is : List Instruction}
    (h : is.foldlM (fun b i => b.add template i) b = .error e) :
    e.IsUnbalanced template ∨ e = .nullCharacter ∧ ∃ i ∈ is, i.IsUnreadable := by
  induction is generalizing b with
  | nil => cases h
  | cons i is ih =>
      rw [List.foldlM_cons] at h
      cases hadd : b.add template i with
      | error e' =>
          obtain rfl : e' = e := by simpa [hadd, bind, Except.bind] using h
          exact (fails_of_add hadd).imp id fun ⟨he, hi⟩ => ⟨he, i, List.mem_cons_self, hi⟩
      | ok b' =>
          rw [hadd] at h
          refine (ih h).imp id fun ⟨he, j, hj, hunreadable⟩ => ?_
          exact ⟨he, j, List.mem_cons_of_mem _ hj, hunreadable⟩

/-- A program cannot be finished when the blocks are unbalanced. -/
theorem isUnbalanced_of_finish {strict : Bool} (h : b.finish template strict = .error e) :
    e.IsUnbalanced template := by
  rw [finish] at h
  split at h
  · cases h
  · split at h
    · exact ⟨_, .inr ⟨_, (Except.error.inj h).symm⟩⟩
    · cases h

end Builder

/-- **Generating a program has no hidden crash.** Each statement that adds lines starts with a line that
starts a logical line. Careful generation ends as generation does: with a program, or with an error. The
error tells of unbalanced blocks and names a line, or a statement cannot be examined because it holds a
null character. -/
theorem generate_never_crashes (template : String) (strict : Bool) (is : List Instruction) :
    (∀ code line, ∀ first ∈ (codeLines code line).head?, first.starts) ∧
    ((∃ b, Careful.generate template strict is = .ok b ∧ generate template strict is = .ok b) ∨
      ∃ e, Careful.generate template strict is = .error (.fault e) ∧
        generate template strict is = .error e ∧
        (e.IsUnbalanced template ∨ e = .nullCharacter ∧ ∃ i ∈ is, i.IsUnreadable)) := by
  refine ⟨fun code line first hfirst => ?_, ?_⟩
  · have hne : codeLines code line ≠ [] := by
      intro hnil
      rw [hnil] at hfirst
      cases hfirst
    obtain ⟨first', more, hcons, hstarts⟩ := exists_codeLines_cons hne
    rw [hcons] at hfirst
    exact Option.some.inj hfirst ▸ hstarts
  · rw [Careful.generate_eq]
    cases hgenerate : generate template strict is with
    | ok b => exact .inl ⟨b, rfl, rfl⟩
    | error e =>
        refine .inr ⟨e, rfl, rfl, ?_⟩
        rw [generate] at hgenerate
        cases hfold : is.foldlM (fun b i => b.add template i) Builder.empty with
        | error e' =>
            obtain rfl : e' = e := by simpa [hfold, bind, Except.bind] using hgenerate
            exact Builder.fails_of_foldlM hfold
        | ok b =>
            rw [hfold] at hgenerate
            exact .inl (Builder.isUnbalanced_of_finish hgenerate)

end Stencil
