import Stencil.Proofs.Tree.Generation

/-!
# Templates that only put something out

A template without statements puts out, one after the other, its texts, the line breaks of its remarks, and
the values of words, each of them escaped. It is compiled whatever the settings, and its program is one
statement for each text that is not empty and for each word (`compile_putsOut`).
-/

namespace Stencil

open Script Stencil.Tree

/-! ## What is put out -/

/-- Whether a text, blanks around it aside, is an identifier that is no keyword and no name of the engine. -/
def isWordCode (code : Text) : Bool :=
  let w := Text.trim code
  isName w && !keywords.contains (String.ofList w) && !engineNames.contains (String.ofList w)

/-- Whether an instruction only puts something out: a text, or the escaped value of a word. -/
def Instruction.PutsOut : Instruction → Prop
  | emitText _ _ => True
  | emitExpr code escaped _ => escaped = true ∧ isWordCode code
  | runStatement _ _ => False

/-- Whether a segment only puts something out: a text, a remark, or the escaped value of a word. -/
def Segment.PutsOut : Segment → Prop
  | literal _ _ => True
  | directive d => d.kind = .comment ∨ d.kind = .escapedExpr ∧ isWordCode d.code

instance : DecidablePred Segment.PutsOut
  | .literal _ _ => inferInstanceAs (Decidable True)
  | .directive d => inferInstanceAs (Decidable (d.kind = .comment ∨ d.kind = .escapedExpr ∧ isWordCode d.code))

/-- The instructions for white space put it out. -/
theorem putsOut_ofSpace {space : Option Text} {line : Int} {i : Instruction}
    (h : i ∈ Instruction.ofSpace space line) : i.PutsOut := by
  unfold Instruction.ofSpace at h
  split at h
  · cases h
  · cases h
  · rw [List.mem_singleton.1 h]
    trivial

/-- The instructions of a segment that only puts something out do so, too. -/
theorem Segment.PutsOut.instructions {s : Segment} (h : s.PutsOut) {i : Instruction}
    (hi : i ∈ s.instructions) : i.PutsOut := by
  cases s with
  | literal t line =>
      rw [List.mem_singleton.1 hi]
      trivial
  | directive d =>
      have hcore : ∀ j ∈ d.core, j.PutsOut := by
        rcases h with hkind | ⟨hkind, hcode⟩
        · intro j hj
          simp only [Directive.core, hkind] at hj
          split at hj
          · cases hj
          · rw [List.mem_singleton.1 hj]
            trivial
        · intro j hj
          simp only [Directive.core, hkind, List.mem_singleton] at hj
          rw [hj]
          exact ⟨rfl, hcode⟩
      have hi : i ∈ d.instructions := hi
      rw [Directive.instructions] at hi
      split at hi
      · exact hcore i hi
      · rw [List.mem_append, List.mem_append] at hi
        rcases hi with (hi | hi) | hi
        · exact putsOut_ofSpace hi
        · exact hcore i hi
        · exact putsOut_ofSpace hi

/-- Something that is put out on a template line: a text, or the escaped value of a word that is no name of
the engine. -/
inductive Put where
  | text (t : Text) (line : Int)
  | value (x : Word) (own : x.id ∉ engineNames) (line : Int)

namespace Put

/-- Whether an instruction puts something out. -/
inductive OfInstruction : Instruction → Put → Prop where
  | text (t : Text) (line : Int) : OfInstruction (.emitText t line) (.text t line)
  | value {x : Word} {code : Text} (own : x.id ∉ engineNames) (h : Text.trim code = x.text) (line : Int) :
      OfInstruction (.emitExpr code true line)
        (.value x own (line + Text.breaks (code.takeWhile Text.isBlank)))

/-- An instruction that only puts something out puts that out. -/
theorem exists_ofInstruction {i : Instruction} (h : i.PutsOut) : ∃ p, OfInstruction i p := by
  cases i with
  | emitText t line => exact ⟨_, .text t line⟩
  | runStatement code line => exact False.elim h
  | emitExpr code escaped line =>
      obtain ⟨rfl, hcode⟩ := h
      simp only [isWordCode, Bool.and_eq_true, Bool.not_eq_true'] at hcode
      obtain ⟨⟨hname, hkeyword⟩, hengine⟩ := hcode
      let x : Word := ⟨String.ofList (Text.trim code), by
        rw [String.toList_ofList, hname, hkeyword]
        rfl⟩
      have hown : x.id ∉ engineNames := fun hmem => by
        rw [List.contains_iff_mem.2 hmem] at hengine
        cases hengine
      exact ⟨_, .value hown String.toList_ofList.symm line⟩

/-- Instructions that only put something out, with what they put out. -/
theorem exists_forall_ofInstruction {is : List Instruction} (h : ∀ i ∈ is, i.PutsOut) :
    ∃ puts, List.Forall₂ OfInstruction is puts := by
  induction is with
  | nil => exact ⟨[], .nil⟩
  | cons i is ih =>
      obtain ⟨p, hp⟩ := exists_ofInstruction (h i List.mem_cons_self)
      obtain ⟨puts, hputs⟩ := ih fun j hj => h j (List.mem_cons_of_mem _ hj)
      exact ⟨p :: puts, .cons hp hputs⟩

/-! ## Lines and statements -/

/-- The lines of the program for what is put out. -/
def rows : Put → List Row
  | text t line => emitRows 0 t line
  | value x _ line => [⟨0, .put true x, line⟩]

/-- The lines of the program for all that is put out. -/
def rowsAll (puts : List Put) : List Row :=
  puts.flatMap rows

/-- The statements for what is put out, on a line of the program. -/
def stmts (line : Nat) : Put → List Stmt
  | text t _ => emitStmts line t
  | value x _ _ => [appendStmt line (showExpr line true x)]

/-- The statements for all that is put out, from a line of the program on. -/
def stmtsAll (line : Nat) : List Put → List Stmt
  | [] => []
  | p :: rest => p.stmts line ++ stmtsAll (line + p.rows.length) rest

/-- The lines of the program are not indented. -/
theorem depth_of_mem_rows {p : Put} {r : Row} (h : r ∈ p.rows) : r.depth = 0 := by
  cases p with
  | text t line =>
      rw [rows, emitRows] at h
      split at h
      · cases h
      · rw [List.mem_singleton.1 h]
  | value x own line =>
      rw [List.mem_singleton.1 h]

/-- The lines of the program nest. -/
theorem nests_rowsAll (puts : List Put) : Nests 0 (rowsAll puts) := by
  have hnests : ∀ {rs : List Row}, (∀ r ∈ rs, r.depth = 0) → Nests 0 rs := by
    intro rs
    induction rs with
    | nil => exact fun _ => trivial
    | cons r rs ih =>
        intro h
        have hr := h r List.mem_cons_self
        refine ⟨by omega, by rw [hr]; decide, ?_⟩
        rw [hr]
        exact ih fun r' hr' => h r' (List.mem_cons_of_mem _ hr')
  refine hnests fun r hr => ?_
  obtain ⟨p, -, hp⟩ := List.mem_flatMap.1 hr
  exact depth_of_mem_rows hp

/-- The line for what is put out is read as its statement. -/
theorem statements_rows (p : Put) {k line : Nat} {tail : List Row} :
    Statements (.level (k + 7)) (rowTokens 0 line (p.rows ++ tail)) (p.stmts line)
      (rowTokens 0 (line + p.rows.length) tail) := by
  cases p with
  | text t l =>
      rw [rows, length_emitRows]
      exact statements_emitRows t l
  | value x own l =>
      rw [rows, List.singleton_append, rowTokens_same (r := ⟨0, .put true x, l⟩) rfl]
      exact statements_put true x

/-- The lines for all that is put out are read as their statements. -/
theorem statements_rowsAll (puts : List Put) {k : Nat} (line : Nat) :
    Statements (.level (k + 7)) (rowTokens 0 line (rowsAll puts)) (stmtsAll line puts)
      (rowTokens 0 (line + (rowsAll puts).length) []) := by
  induction puts generalizing line with
  | nil => exact .none _
  | cons p puts ih =>
      have hrest := ih (line + p.rows.length)
      rw [rowsAll, List.flatMap_cons, ← rowsAll, List.length_append, ← Nat.add_assoc]
      exact p.statements_rows.append hrest

/-- The statements are of the kinds that trees are made of. -/
theorem blocks_stmtsAll (puts : List Put) (line : Nat) : Blocks 0 (stmtsAll line puts) := by
  induction puts generalizing line with
  | nil => exact .nil
  | cons p puts ih =>
      refine .append ?_ (ih _)
      cases p with
      | text t l => exact .emitStmts line t
      | value x own l => exact .put .nil

/-- The program is a script. -/
theorem check_programText (puts : List Put) :
    check (programText (rowsAll puts)) = .ok (stmtsAll 1 puts) := by
  have hparse : parse (programText (rowsAll puts)) = .ok (stmtsAll 1 puts) :=
    parse_of_statements (nests_rowsAll puts)
      (statements_rowsAll puts (k := 4 * ((rowTokens 0 1 (rowsAll puts)).length +
        (programText (rowsAll puts)).length) + 13) 1)
  exact check_of_blocks hparse (blocks_stmtsAll puts 1) (Nat.zero_le _)

/-! ## The program -/

/-- An instruction adds the lines for what it puts out. -/
theorem OfInstruction.add_eq {i : Instruction} {p : Put} (h : OfInstruction i p) {b : Builder}
    (hb : b.indent = Builder.indentStep * 0) (template : String) :
    b.add template i = .ok (b.writeAll p.rows) := by
  cases h with
  | text t line => exact congrArg Except.ok (Builder.addText_eq hb t line)
  | value own hcode line => exact congrArg Except.ok (Builder.addExpr_eq hb true hcode line)

/-- Instructions add the lines for all that they put out. -/
theorem foldlM_add {is : List Instruction} {puts : List Put} (h : List.Forall₂ OfInstruction is puts)
    {b : Builder} (hb : b.indent = Builder.indentStep * 0) (template : String) :
    is.foldlM (fun b i => b.add template i) b = .ok (b.writeAll (rowsAll puts)) := by
  induction h generalizing b with
  | nil => rfl
  | @cons i p is puts hi _ ih =>
      have hrest := ih ((Builder.indent_writeAll b p.rows).trans hb)
      rw [List.foldlM_cons, hi.add_eq hb, rowsAll, List.flatMap_cons, Builder.writeAll_append]
      exact hrest

/-- The program of instructions that only put something out. -/
theorem generate_eq {is : List Instruction} {puts : List Put} (h : List.Forall₂ OfInstruction is puts)
    (template : String) (strict : Bool) :
    ∃ b, generate template strict is = .ok b ∧ b.Holds (rowsAll puts) := by
  have hholds : (Builder.empty.writeAll (rowsAll puts)).Holds ([] ++ rowsAll puts) :=
    Builder.holds_empty.writeAll
  have hblocks : (Builder.empty.writeAll (rowsAll puts)).blocks = [] :=
    Builder.blocks_writeAll Builder.empty _
  refine ⟨Builder.empty.writeAll (rowsAll puts), ?_, hholds⟩
  rw [generate, foldlM_add h rfl]
  change Builder.finish _ template strict = _
  rw [Builder.finish, hblocks]

end Put

/-- A template whose segments only put something out is compiled to the statements for what they put
out. -/
theorem compile_putsOut (settings : Settings) (name : String) {source : Text} {line : Int}
    (h : ∀ s ∈ Segment.scan source line, s.PutsOut) (log : Array LogEntry) : ∃ p log' puts,
    (Program.ofText settings name source line).run.run log = (.ok p, log') ∧
      List.Forall₂ Put.OfInstruction (Instruction.ofSegments (Segment.scan source line)) puts ∧
      p.body = some (Put.stmtsAll 1 puts) := by
  obtain ⟨puts, hputs⟩ : ∃ puts,
      List.Forall₂ Put.OfInstruction (Instruction.ofSegments (Segment.scan source line)) puts :=
    Put.exists_forall_ofInstruction fun i hi => by
      obtain ⟨s, hs, hi⟩ := List.mem_flatMap.1 hi
      exact (h s hs).instructions hi
  obtain ⟨b, hgenerate, hholds⟩ := Put.generate_eq hputs name settings.strictBlocks
  have hcheck : check b.text = .ok (Put.stmtsAll 1 puts) := by
    rw [hholds.text, Put.check_programText]
  obtain ⟨log', hlog'⟩ := run_ofInstructions settings hgenerate hcheck
    (log.push ⟨3, s!"Tokenized {source.length} characters into {(Segment.scan source line).length} segments"⟩)
  exact ⟨_, log', puts, hlog', hputs, rfl⟩

end Stencil
