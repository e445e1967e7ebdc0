import Stencil.Source
import Stencil.Program.Compile
import Stencil.Proofs.Program.Blocks
import Stencil.Proofs.Program.Characters

/-!
# Null characters

Reading and compiling a template fail with errors of their own, but for one cause: a null character, in a
path, in the name of an encoding, or in the code of a directive. Such a path is refused whatever else it
holds, and so is such a name when there is a file to read (`exists_hasNull_iff`). A template with such
code is never compiled (`ofText_ne_ok`), and only such code is refused for the character
(`exists_codeHolds_of_ofText`).
-/

namespace Stencil

/-- The character that no path, no name of an encoding and no code may hold. -/
abbrev nullChar : Char := Char.ofNat 0

/-! ## Paths and encodings -/

namespace Path

/-- The texts between slashes hold the characters of a text but for the slashes. -/
theorem exists_mem_splitSlashes {c : Char} (hc : c ≠ '/') (t : Text) :
    (∃ part ∈ splitSlashes t, c ∈ part) ↔ c ∈ t := by
  induction t with
  | nil => simp [splitSlashes]
  | cons d r ih =>
      rw [splitSlashes]
      split
      · next hd =>
          rw [List.mem_cons, ← ih, hd]
          simp [hc]
      · cases hparts : splitSlashes r with
        | nil =>
            rw [hparts] at ih
            have hr : c ∉ r := fun hmem => by simpa using ih.2 hmem
            simp [hr]
        | cons first rest =>
            rw [hparts] at ih
            rw [List.mem_cons, ← ih]
            simp [or_assoc]

/-- A path has a name with a null character when its text holds one. -/
theorem any_names_ofString (s : String) :
    ((ofString s).names.any fun n => n.toList.contains nullChar) ↔ nullChar ∈ s.toList := by
  rw [← exists_mem_splitSlashes (by decide : nullChar ≠ '/') s.toList, List.any_eq_true]
  constructor
  · rintro ⟨n, hn, hnull⟩
    obtain ⟨part, hpart, rfl⟩ := List.mem_map.1 hn
    rw [String.toList_ofList, List.contains_iff_mem] at hnull
    exact ⟨part, (List.mem_filter.1 hpart).1, hnull⟩
  · rintro ⟨part, hpart, hnull⟩
    have hname : isName part := by
      have hne : part ≠ [] := List.ne_nil_of_mem hnull
      have hpoint : part ≠ ['.'] := by
        rintro rfl
        revert hnull
        decide
      simp [isName, hne, hpoint]
    refine ⟨String.ofList part, List.mem_map_of_mem (List.mem_filter.2 ⟨hpart, hname⟩), ?_⟩
    rw [String.toList_ofList, List.contains_iff_mem]
    exact hnull

end Path

namespace Files

/-- Walking along names meets no null character. -/
theorem walk_ne_nullByte (fs : Files) (p : Place) (names : List String) :
    fs.walk p names ≠ .error .nullByte := by
  induction names generalizing p with
  | nil => exact nofun
  | cons n rest ih =>
      rw [walk]
      split
      · exact nofun
      · exact nofun
      · split
        · exact nofun
        · exact ih _

/-- A file cannot be looked for exactly when there is a null character in a name of its path. -/
theorem read_eq_nullByte_iff (fs : Files) (path : Path) :
    fs.read path = .error .nullByte ↔ path.names.any fun n => n.toList.contains nullChar := by
  cases hnull : path.names.any fun n => n.toList.contains nullChar with
  | true =>
      rw [read, place, if_pos hnull]
      exact iff_of_true rfl rfl
  | false =>
      have hplace : fs.place path ≠ .error .nullByte := by
        rw [place, hnull, if_neg Bool.false_ne_true]
        split
        · exact nofun
        · exact fs.walk_ne_nullByte _ _
      refine iff_of_false (fun hread => ?_) Bool.false_ne_true
      rw [read] at hread
      cases hp : fs.place path with
      | error fault =>
          rw [hp] at hread
          exact hplace (hp.trans (congrArg _ (Except.error.inj hread)))
      | ok p =>
          rw [hp] at hread
          dsimp only [bind, Except.bind] at hread
          split at hread <;> cases hread

end Files

/-- A name of an encoding cannot be looked up exactly when there is a null character in it. -/
theorem Encoding.lookup_eq_nullCharacter_iff (name : String) :
    Encoding.lookup name = .error .nullCharacter ↔ nullChar ∈ name.toList := by
  rw [lookup]
  split
  · next h => exact iff_of_true rfl (List.contains_iff_mem.1 h)
  · next h =>
      refine iff_of_false (fun h' => ?_) (fun hmem => h (List.contains_iff_mem.2 hmem))
      split at h' <;> cases h'

/-- Bytes that were read are refused for a null character exactly when the name of the encoding holds
one. -/
theorem hasNull_of_textOfBytes {path encoding : String} {bytes : Bytes} {e : SourceError}
    (h : textOfBytes path encoding bytes = .error e) : e.hasNull ↔ nullChar ∈ encoding.toList := by
  rw [← Encoding.lookup_eq_nullCharacter_iff]
  rw [textOfBytes] at h
  cases hlookup : Encoding.lookup encoding with
  | error fault =>
      rw [hlookup] at h
      cases fault with
      | nullCharacter =>
          cases h
          exact iff_of_true rfl rfl
      | unknown =>
          dsimp only at h
          split at h
          · cases h
          · cases h
            exact iff_of_false Bool.false_ne_true nofun
  | ok enc =>
      rw [hlookup] at h
      dsimp only at h
      split at h
      · cases h
      · cases h
        exact iff_of_false Bool.false_ne_true nofun

/-- A template cannot be read for a null character exactly when its path holds one, or when the path leads
to a file and the name of the encoding holds one. All other errors say why there is no text. -/
theorem hasNull_of_readSource {files : Files} {path encoding : String} {e : SourceError}
    (h : readSource files path encoding = .error e) :
    e.hasNull ↔ nullChar ∈ path.toList ∨
      (∃ bytes, files.read (Path.ofString path) = .ok bytes) ∧ nullChar ∈ encoding.toList := by
  have hpath := (files.read_eq_nullByte_iff (Path.ofString path)).trans (Path.any_names_ofString path)
  rw [← hpath]
  rw [readSource] at h
  cases hread : files.read (Path.ofString path) with
  | ok bytes =>
      rw [hread] at h
      rw [hasNull_of_textOfBytes h]
      simp
  | error fault =>
      rw [hread] at h
      cases h
      cases fault <;> simp [SourceError.hasNull]

/-- Loading a template fails with what stands in the way of reading it. -/
theorem loadSource_error_iff {settings : Settings} {files : Files} {path : String}
    {encoding : Option String} {log : Array LogEntry} {e : SourceError} :
    (∃ log', (loadSource settings files path encoding).run.run log = (.error e, log')) ↔
      readSource files path (settings.encodingName encoding) = .error e := by
  rw [loadSource]
  cases readSource files path (settings.encodingName encoding) with
  | error e' =>
      constructor
      · rintro ⟨log', h⟩
        cases h
        rfl
      · rintro h
        cases h
        exact ⟨log, rfl⟩
  | ok text =>
      refine iff_of_false ?_ nofun
      rintro ⟨log', h⟩
      cases h

/-- Loading a template fails for a null character exactly when its path holds one, or when the path leads
to a file and the name of the encoding holds one. -/
theorem exists_hasNull_iff (settings : Settings) (files : Files) (path : String)
    (encoding : Option String) (log : Array LogEntry) :
    (∃ e log', (loadSource settings files path encoding).run.run log = (.error e, log') ∧ e.hasNull) ↔
      nullChar ∈ path.toList ∨ (∃ bytes, files.read (Path.ofString path) = .ok bytes) ∧
        nullChar ∈ (settings.encodingName encoding).toList := by
  constructor
  · rintro ⟨e, log', h, hnull⟩
    exact (hasNull_of_readSource (loadSource_error_iff.1 ⟨log', h⟩)).1 hnull
  · intro h
    have hread : ∃ e, readSource files path (settings.encodingName encoding) = .error e := by
      rw [readSource]
      rcases h with hpath | ⟨⟨bytes, hfile⟩, hname⟩
      · rw [(files.read_eq_nullByte_iff _).2 ((Path.any_names_ofString path).2 hpath)]
        exact ⟨_, rfl⟩
      · rw [hfile]
        dsimp only
        rw [textOfBytes, (Encoding.lookup_eq_nullCharacter_iff _).2 hname]
        exact ⟨_, rfl⟩
    obtain ⟨e, he⟩ := hread
    obtain ⟨log', hload⟩ : ∃ log', (loadSource settings files path encoding).run.run log = (.error e, log') :=
      loadSource_error_iff.2 he
    exact ⟨e, log', hload, (hasNull_of_readSource he).2 h⟩

/-! ## Code -/

/-- Whether an error is a fault of a template. -/
def CompileError.IsFaultOf (template : String) (e : CompileError) : Prop :=
  ∃ line fault, e = .located template line fault

section

variable {template : String} {strict : Bool} {is : List Instruction} {b : Builder} {e : CompileError}

/-- A statement that closes a block without an open one is at fault. -/
theorem isFaultOf_of_closeFor {first : CodeLine} (h : b.closeFor template first = .error e) :
    e.IsFaultOf template := by
  rw [Builder.closeFor] at h
  split at h
  · cases h
  · cases h
    exact ⟨_, _, rfl⟩

/-- A statement that may open a block is refused for a null character in its code only. -/
theorem mem_of_addOpening {code : Text} {line : Int}
    (h : b.addOpening (codeLines code line) = .error e) : e = .nullCharacter ∧ nullChar ∈ code := by
  rw [Builder.addOpening] at h
  dsimp only at h
  split at h
  · next hopens =>
      refine ⟨(Except.error.inj h).symm, ?_⟩
      by_contra hcode
      exact opensBlock_lastLogical_ne_error hcode _ hopens
  · cases h
  · split at h <;> cases h

/-- An instruction is at fault, or is refused for a null character in its code. -/
theorem isFaultOf_or_codeHolds_of_add {i : Instruction} (h : b.add template i = .error e) :
    e.IsFaultOf template ∨ e = .nullCharacter ∧ i.CodeHolds nullChar := by
  cases i with
  | emitText text line | emitExpr code escaped line => cases h
  | runStatement code line =>
      have hopening {b : Builder} {first : CodeLine} {rest : List CodeLine}
          (hlines : codeLines code line = first :: rest)
          (h : b.addOpening (first :: rest) = .error e) :
          e = .nullCharacter ∧ (Instruction.runStatement code line).CodeHolds nullChar := by
        rw [← hlines] at h
        exact mem_of_addOpening h
      rw [Builder.add, Builder.addStatement] at h
      split at h
      · cases h
      · next first rest hlines =>
          split at h
          · exact .inl (isFaultOf_of_closeFor h)
          split at h
          · cases hclose : b.closeFor template first with
            | error e' =>
                rw [hclose] at h
                obtain rfl := Except.error.inj h
                exact .inl (isFaultOf_of_closeFor hclose)
            | ok b' =>
                rw [hclose] at h
                simp only [bind, Except.bind] at h
                exact .inr (hopening hlines h)
          · exact .inr (hopening hlines h)

/-- Instructions are at fault, or are refused for a null character in the code of one of them. -/
theorem isFaultOf_or_codeHolds_of_foldlM
    (h : is.foldlM (fun b i => b.add template i) b = .error e) :
    e.IsFaultOf template ∨ e = .nullCharacter ∧ ∃ i ∈ is, i.CodeHolds nullChar := by
  induction is generalizing b with
  | nil => cases h
  | cons i is ih =>
      rw [List.foldlM_cons] at h
      cases hadd : b.add template i with
      | error e' =>
          rw [hadd] at h
          obtain rfl := Except.error.inj h
          exact (isFaultOf_or_codeHolds_of_add hadd).imp_right fun ⟨he, hc⟩ =>
            ⟨he, i, List.mem_cons_self, hc⟩
      | ok b' =>
          rw [hadd] at h
          exact (ih h).imp_right fun ⟨he, j, hj, hc⟩ => ⟨he, j, List.mem_cons_of_mem _ hj, hc⟩

/-- A program that is not generated is at fault, or is refused for a null character in the code of an
instruction. -/
theorem isFaultOf_or_codeHolds_of_generate (h : generate template strict is = .error e) :
    e.IsFaultOf template ∨ e = .nullCharacter ∧ ∃ i ∈ is, i.CodeHolds nullChar := by
  rw [generate] at h
  cases hadd : is.foldlM (fun b i => b.add template i) Builder.empty with
  | error e' =>
      rw [hadd] at h
      obtain rfl := Except.error.inj h
      exact isFaultOf_or_codeHolds_of_foldlM hadd
  | ok b =>
      rw [hadd] at h
      change b.finish template strict = _ at h
      rw [Builder.finish] at h
      split at h
      · cases h
      · split at h
        · cases h
          exact .inl ⟨_, _, rfl⟩
        · cases h

/-- The program that instructions are compiled to. -/
def compiled (template : String) (strict : Bool) (is : List Instruction) :
    Except CompileError Program := do
  let b ← generate template strict is
  let body ← checkGenerated b.text template b.lineMap
  return ⟨is, b.text, template, b.lineMap, some body⟩

/-- Compiling a template compiles its instructions. -/
theorem run_ofText_eq (template : String) (settings : Settings) (source : Text) (line : Int) (log : Array LogEntry) :
    ∃ log', (Program.ofText settings template source line).run.run log =
      (compiled template settings.strictBlocks
        (Instruction.ofSegments (Segment.scan source line)), log') := by
  have hlift {α : Type} (a : α) : (liftM (Except.ok a : Except CompileError α) : Logged CompileError α) =
    pure a := rfl
  rw [Program.ofText, scanLogged]
  simp only [bind_assoc, pure_bind, Program.ofInstructions, compiled]
  cases generate template settings.strictBlocks
      (Instruction.ofSegments (Segment.scan source line)) with
  | error e => exact ⟨_, rfl⟩
  | ok b =>
      have hok (f : Builder → Except CompileError Program) : (Except.ok b >>= f) = f b := rfl
      rw [hlift, hok]
      cases hcheck : checkGenerated b.text template b.lineMap with
      | error e =>
          simp only [pure_bind, hcheck]
          cases settings.logSource <;> exact ⟨_, rfl⟩
      | ok body =>
          simp only [pure_bind, hcheck]
          cases settings.logSource <;> exact ⟨_, rfl⟩

variable {settings : Settings} {source : Text} {line : Int} {log log' : Array LogEntry}

/-- A template that is not compiled is at fault, or is refused for a null character in the code of a
directive. -/
theorem exists_codeHolds_of_ofText
    (h : (Program.ofText settings template source line).run.run log = (.error e, log')) :
    e.IsFaultOf template ∨ e = .nullCharacter ∧
      ∃ s ∈ Segment.scan source line, s.CodeHolds nullChar := by
  obtain ⟨log₁, hrun⟩ := run_ofText_eq template settings source line log
  rw [← exists_codeHolds_ofSegments]
  have hcompiled := congrArg Prod.fst (hrun.symm.trans h)
  rw [compiled] at hcompiled
  dsimp only at hcompiled
  cases hgenerate : generate template settings.strictBlocks
      (Instruction.ofSegments (Segment.scan source line)) with
  | error e' =>
      rw [hgenerate] at hcompiled
      obtain rfl := Except.error.inj hcompiled
      exact isFaultOf_or_codeHolds_of_generate hgenerate
  | ok b =>
      rw [hgenerate] at hcompiled
      cases hcheck : Script.check b.text with
      | ok body =>
          simp [checkGenerated, hcheck, bind, Except.bind] at hcompiled
          cases hcompiled
      | error fault =>
          simp [checkGenerated, hcheck, bind, Except.bind] at hcompiled
          cases fault with
          | fault l =>
              cases hcompiled
              exact .inl ⟨_, _, rfl⟩
          | nullCharacter =>
              refine .inr ⟨(Except.error.inj hcompiled).symm, ?_⟩
              refine exists_codeHolds_of_mem_text (by decide) (by decide) hgenerate ?_
              by_contra hmem
              exact Script.check_ne_nullCharacter hmem hcheck

/-- The program that a template is compiled to is generated from its segments and checked. -/
theorem exists_generate_of_ofText {p : Program}
    (h : (Program.ofText settings template source line).run.run log = (.ok p, log')) :
    ∃ b body, generate template settings.strictBlocks
        (Instruction.ofSegments (Segment.scan source line)) = .ok b ∧
      Script.check b.text = .ok body ∧
      p = ⟨Instruction.ofSegments (Segment.scan source line), b.text, template, b.lineMap, some body⟩ := by
  obtain ⟨log₁, hrun⟩ := run_ofText_eq template settings source line log
  have hcompiled := congrArg Prod.fst (hrun.symm.trans h)
  dsimp only at hcompiled
  rw [compiled] at hcompiled
  cases hgenerate : generate template settings.strictBlocks
      (Instruction.ofSegments (Segment.scan source line)) with
  | error e =>
      rw [hgenerate] at hcompiled
      cases hcompiled
  | ok b =>
      rw [hgenerate] at hcompiled
      cases hcheck : Script.check b.text with
      | error e => cases e <;> simp [checkGenerated, hcheck, bind, Except.bind] at hcompiled
      | ok body =>
          simp only [checkGenerated, hcheck, bind, Except.bind] at hcompiled
          cases hcompiled
          exact ⟨b, body, rfl, hcheck, rfl⟩

/-- A program has the name it is compiled under. -/
theorem name_of_ofText {p : Program}
    (h : (Program.ofText settings template source line).run.run log = (.ok p, log')) :
    p.name = template := by
  obtain ⟨b, body, -, -, rfl⟩ := exists_generate_of_ofText h
  rfl

/-- A template with a null character in the code of a directive is not compiled. -/
theorem ofText_ne_ok (hcode : ∃ s ∈ Segment.scan source line, s.CodeHolds nullChar) (p : Program) :
    (Program.ofText settings template source line).run.run log ≠ (.ok p, log') := by
  intro h
  obtain ⟨log₁, hrun⟩ := run_ofText_eq template settings source line log
  have hcompiled := congrArg Prod.fst (hrun.symm.trans h)
  rw [compiled] at hcompiled
  dsimp only at hcompiled
  cases hgenerate : generate template settings.strictBlocks
      (Instruction.ofSegments (Segment.scan source line)) with
  | error e =>
      rw [hgenerate] at hcompiled
      cases hcompiled
  | ok b =>
      have hnull : nullChar ∈ b.text :=
        (mem_text_iff (by decide) (by decide) hgenerate).2
          (exists_codeHolds_ofSegments.2 hcode)
      have hcheck : Script.check b.text = .error .nullCharacter := by
        rw [Script.check, if_pos (List.contains_iff_mem.2 hnull)]
      simp [hgenerate, checkGenerated, hcheck, bind, Except.bind] at hcompiled

end

end Stencil
