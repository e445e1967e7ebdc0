import Stencil.Proofs.Program.Draft
import Stencil.Proofs.Script.Rejection

/-!
# Statements that are whole scripts

A statement whose code is a script by itself continues no block: its first word is none of those that
continue one, unless a character follows that goes on a name but is no word character. Such a statement
is added at every depth without fault, and it leaves the open blocks as they are exactly when its last
logical line is not taken for a header (`addStatement_of_check`).
-/

namespace Stencil

/-! ## The first line -/

/-- A text whose first lines are blank starts with blanks and the next line. -/
theorem exists_joinLines {before : List Text} (hbefore : ∀ x ∈ before, x.all Text.isBlank) (l : Text)
    (after : List Text) :
    ∃ blanks rest, Text.joinLines (before ++ l :: after) = blanks ++ (Text.trim l ++ rest) ∧
      (∀ c ∈ blanks, Text.isBlank c) ∧ rest.head?.all Text.isBlank := by
  induction before with
  | nil =>
      obtain ⟨ending, hending, hblank⟩ := Text.exists_blank_ending (Text.trimStart l)
      obtain ⟨tail, htail, hhead⟩ : ∃ tail, Text.joinLines (l :: after) = l ++ tail ∧
          tail.head?.all Text.isBlank := by
        cases after with
        | nil => exact ⟨[], by simp [Text.joinLines], rfl⟩
        | cons l' after => exact ⟨_, rfl, rfl⟩
      refine ⟨l.takeWhile Text.isBlank, ending ++ tail, ?_, fun c hc => List.mem_takeWhile_imp hc, ?_⟩
      · have hsplit : l = l.takeWhile Text.isBlank ++ (Text.trim l ++ ending) := by
          conv => lhs; rw [← List.takeWhile_append_dropWhile (p := Text.isBlank) (l := l)]
          exact congrArg _ hending
        rw [List.nil_append, htail]
        conv => lhs; rw [hsplit]
        simp only [List.append_assoc]
      · cases ending with
        | nil => exact hhead
        | cons c ending => exact (List.all_eq_true.1 hblank) c List.mem_cons_self
  | cons x before ih =>
      obtain ⟨blanks, rest, heq, hblanks, hrest⟩ := ih fun y hy => hbefore y (List.mem_cons_of_mem _ hy)
      refine ⟨x ++ '\n' :: blanks, rest, ?_, fun c hc => ?_, hrest⟩
      · obtain ⟨y, ys, hys⟩ : ∃ y ys, before ++ l :: after = y :: ys :=
          List.exists_cons_of_ne_nil (by simp)
        rw [List.cons_append, hys, Text.joinLines, ← hys, heq]
        · simp
        · exact List.cons_ne_nil y ys
      · rcases List.mem_append.1 hc with hc | hc
        · exact List.all_eq_true.1 (hbefore x List.mem_cons_self) c hc
        · rcases List.mem_cons.1 hc with rfl | hc
          · rfl
          · exact hblanks c hc

/-- The code of a statement starts with blanks and its first line that is not blank. -/
theorem exists_of_contentLines {code : Text} {line l : Int} {t : Text} {rest : List (Int × Text)}
    (h : contentLines code line = (l, t) :: rest) :
    ∃ blanks ending, code = blanks ++ (t ++ ending) ∧ (∀ c ∈ blanks, Text.isBlank c) ∧
      ending.head?.all Text.isBlank := by
  rcases blank_or_first (Text.lines code) with hblank | ⟨before, l', after, hlines, hbefore, hl⟩
  · have hnil : contentLines code line = [] := List.filterMap_eq_nil_iff.2 fun x hx =>
      contentLine?_eq_none.2 (hblank _ (List.fst_mem_of_mem_zipIdx hx))
    rw [hnil] at h
    cases h
  · have hcontent : contentLine? line (l', before.length) = some (line + before.length, Text.trim l') :=
      if_neg (mt (fun h => Text.trim_eq_nil.1 (List.isEmpty_iff.1 h)) hl)
    have hcontents : contentLines code line = (line + before.length, Text.trim l') ::
        (after.zipIdx (before.length + 1)).filterMap (contentLine? line) := by
      rw [contentLines, hlines]
      exact filterMap_zipIdx_first (fun x hx => contentLine?_eq_none.2
        (hbefore _ (List.fst_mem_of_mem_zipIdx hx))) hcontent
    rw [hcontents] at h
    obtain ⟨hfirst, -⟩ := List.cons.inj h
    obtain ⟨blanks, ending, heq, hblanks, hending⟩ := exists_joinLines hbefore l' after
    rw [← hlines, Text.joinLines_lines] at heq
    rw [Prod.mk.injEq] at hfirst
    exact ⟨blanks, ending, hfirst.2 ▸ heq, hblanks, hending⟩

/-- A script starts with no word that continues a block, unless a character follows that goes on a
name. -/
theorem isNameRest_of_check {code : Text} {line l : Int} {t w : Text} {rest : List (Int × Text)}
    (hcheck : (Script.check code).isOk) (hreturn : '\r' ∉ code)
    (hcontent : contentLines code line = (l, t) :: rest) (hw : leadingWord? siblingWords t = some w) :
    (t.drop w.length).head?.any Text.isNameRest := by
  obtain ⟨blanks, ending, hcode, hblanks, hending⟩ := exists_of_contentLines hcontent
  obtain ⟨hword, hmem⟩ := And.intro (List.find?_some hw) (List.mem_of_find?_eq_some hw)
  obtain ⟨word, hword', rfl⟩ := List.mem_map.1 hmem
  rw [Bool.and_eq_true, List.isPrefixOf_iff_prefix] at hword
  obtain ⟨t', rfl⟩ := hword.1
  rw [List.drop_left]
  refine Classical.byContradiction fun hnot => ?_
  have hrest : (t' ++ ending).head?.any Text.isNameRest = false := by
    cases t' with
    | nil =>
        cases ending with
        | nil => rfl
        | cons c ending => exact (Text.nameless_of_isBlank hending).2.2
    | cons c t' => exact Bool.eq_false_iff.2 hnot
  rw [List.append_assoc] at hcode
  obtain ⟨e, he⟩ := Script.check_of_continuing hword' hrest hblanks (hcode ▸ hreturn)
  rw [hcode, he] at hcheck
  cases hcheck

/-- A script holds no null character. -/
theorem not_mem_of_check {code : Text} (hcheck : (Script.check code).isOk) : Char.ofNat 0 ∉ code := by
  intro hmem
  rw [Script.check, if_pos (List.contains_iff_mem.2 hmem)] at hcheck
  cases hcheck

/-! ## Statements -/

namespace Builder

/-- A statement that is neither an end word nor continues a block adds its lines, and opens the block
that its last logical line is the header of. -/
theorem addStatement_of_opening {code : Text} {line : Int} (hnull : Char.ofNat 0 ∉ code)
    (hend : ∀ l t, contentLines code line = [(l, t)] → ¬ isEndWord t)
    (hword : ∀ x ∈ (contentLines code line).head?, leadingWord? siblingWords x.2 = none)
    (template : String) (b : Builder) :
    (openedBlock? code line = none →
      b.addStatement template code line = .ok (b.addCode (codeLines code line))) ∧
    ∀ l word, openedBlock? code line = some (l, word) → b.addStatement template code line =
      .ok ((b.addCode (headerLines (codeLines code line))).openBlock word l) := by
  rcases codeLines_cases code line with ⟨hcontent, hcode⟩ | ⟨t, rest, first, more, hcontent, hcode,
    -, rfl, hends⟩
  · have hopened : openedBlock? code line = none := by
      rw [openedBlock?, hcode]
      split <;> rfl
    rw [hopened, addStatement, hcode]
    refine ⟨fun _ => rfl, fun l word h => ?_⟩
    cases h
  · have hbare : (more.isEmpty && isEndWord (Text.trim first.text)) = false := by
      rw [hends, Bool.and_eq_false_iff]
      cases rest with
      | nil => exact .inr (Bool.eq_false_iff.2 (hend _ _ hcontent))
      | cons x rest => exact .inl rfl
    have hsibling : leadingWord? siblingWords (Text.trimStart first.text) = none := by
      rw [← leadingWord?_trimEnd isWord_siblingWords]
      exact hword (first.line, Text.trim first.text) (by rw [hcontent]; rfl)
    have hne : codeLines code line ≠ [] := hcode ▸ List.cons_ne_nil first more
    obtain ⟨head, tail, hlast⟩ := List.exists_cons_of_ne_nil (lastLogical_ne_nil hne)
    -- neither of the two tests on the first line holds, so only the last logical line decides
    have hadd : b.addStatement template code line = b.addOpening (codeLines code line) := by
      rw [addStatement, hcode]
      dsimp only
      rw [hbare, hsibling]
      rfl
    rw [hadd, addOpening, openedBlock?]
    dsimp only
    cases hopens : opensBlock (Text.joinLines ((lastLogical (codeLines code line)).map (·.text))) with
    | error e => exact absurd hopens (opensBlock_lastLogical_ne_error hnull e)
    | ok opens =>
        cases opens with
        | false =>
            refine ⟨fun _ => rfl, fun l word h => ?_⟩
            cases h
        | true =>
            obtain ⟨head', tail', hhead, hline, hblock⟩ := lastLogical_withColon hlast
              (Text.endsWith (Text.trimEnd (Text.joinLines
                ((lastLogical (codeLines code line)).map (·.text)))) [':'])
            have hlines : lastLogical (headerLines (codeLines code line)) = head' :: tail' := hhead
            refine ⟨fun h => ?_, fun l word h => ?_⟩
            · rw [hlast] at h
              cases h
            · rw [hlast] at h
              obtain ⟨rfl, rfl⟩ := Prod.mk.inj (Option.some.inj h)
              dsimp only
              rw [← headerLines, hlines, ← hline, ← hblock]

/-- Adding lines leaves the open blocks and the indentation as they are. -/
theorem addCode_blocks (b : Builder) (ls : List CodeLine) :
    (b.addCode ls).blocks = b.blocks ∧ (b.addCode ls).indent = b.indent :=
  foldl_addLine b ls (·.text) (·.line) (·.starts)

end Builder

/-- A statement that is a whole script and not just an end word never lacks an open block, unless its
first word continues one and a character follows that goes on a name. It is added at every depth. When
its last logical line is not taken for a header it leaves the open blocks and the indentation as they
are, its lines are added at that indentation, and a program of it alone is generated. Else it opens one
block, which a program of it alone leaves open. -/
theorem addStatement_of_check {code : Text} {line : Int} (hcheck : (Script.check code).isOk)
    (hreturn : '\r' ∉ code) (hend : ∀ l t, contentLines code line = [(l, t)] → ¬ isEndWord t)
    (template : String) :
    (∀ x ∈ (contentLines code line).head?, ∀ w, leadingWord? siblingWords x.2 = some w →
      (x.2.drop w.length).head?.any Text.isNameRest) ∧
    ((∀ x ∈ (contentLines code line).head?, leadingWord? siblingWords x.2 = none) →
      (openedBlock? code line = none →
        (∀ b : Builder, ∃ b', b.addStatement template code line = .ok b' ∧ b'.blocks = b.blocks ∧
          b'.indent = b.indent ∧
          b'.lines.toList = b.lines.toList ++ (codeLines code line).map (·.generated b.indent)) ∧
        ∃ b, generate template true [.runStatement code line] = .ok b) ∧
      ∀ l word, openedBlock? code line = some (l, word) →
        (∀ b : Builder, b.addStatement template code line =
          .ok ((b.addCode (headerLines (codeLines code line))).openBlock word l)) ∧
        generate template true [.runStatement code line] =
          .error (.located template (some l) (.unclosed word))) := by
  constructor
  · intro x hx w hw
    cases hcontent : contentLines code line with
    | nil =>
        rw [hcontent] at hx
        cases hx
    | cons y rest =>
        rw [hcontent] at hx
        obtain rfl := Option.some.inj hx
        exact isNameRest_of_check hcheck hreturn hcontent hw
  · intro hword
    have hadd := Builder.addStatement_of_opening (not_mem_of_check hcheck) hend hword template
    constructor
    · intro hopened
      refine ⟨fun b => ⟨_, (hadd b).1 hopened, (b.addCode_blocks _).1, (b.addCode_blocks _).2,
        b.addCode_lines _⟩, ?_⟩
      refine ⟨Builder.empty.addCode (codeLines code line), ?_⟩
      rw [generate, List.foldlM_cons, Builder.add, (hadd Builder.empty).1 hopened]
      change (Builder.empty.addCode (codeLines code line)).finish template true = _
      rw [Builder.finish, (Builder.addCode_blocks _ _).1]
      rfl
    · intro l word hopened
      refine ⟨fun b => (hadd b).2 l word hopened, ?_⟩
      rw [generate, List.foldlM_cons, Builder.add, (hadd Builder.empty).2 l word hopened]
      rfl

/-- A loop with its body on the same line. -/
def oneLineLoop : Text := "for x in xs: total += x".toList

/-- A loop on one line is a whole script. Within an open block it is added without a block of its own,
and a program of it alone is generated. -/
theorem adds_oneLineLoop :
    (Script.check oneLineLoop).isOk ∧ '\r' ∉ oneLineLoop ∧
      (∃ b, (Builder.empty.openBlock "if".toList 1).addStatement "page" oneLineLoop 2 = .ok b ∧
        b.blocks = [⟨"if".toList, 1, 0⟩] ∧ b.lines.toList = ["    ".toList ++ oneLineLoop]) ∧
      ∃ b, generate "page" true [.runStatement oneLineLoop 2] = .ok b := by
  have hcheck : (Script.check oneLineLoop).isOk := by decide +kernel
  have hreturn : '\r' ∉ oneLineLoop := by decide +kernel
  have hcontent : contentLines oneLineLoop 2 = [(2, oneLineLoop)] := by decide +kernel
  have hend : ∀ l t, contentLines oneLineLoop 2 = [(l, t)] → ¬ isEndWord t := by
    intro l t h
    rw [hcontent] at h
    obtain ⟨-, rfl⟩ := Prod.mk.inj (List.cons.inj h).1
    decide +kernel
  have hword : ∀ x ∈ (contentLines oneLineLoop 2).head?, leadingWord? siblingWords x.2 = none := by
    rw [hcontent]
    intro x hx
    obtain rfl := Option.some.inj hx
    decide +kernel
  obtain ⟨hadds, hgenerate⟩ := ((addStatement_of_check hcheck hreturn hend "page").2 hword).1
    (by decide +kernel)
  obtain ⟨b, hb, hblocks, -, hlines⟩ := hadds (Builder.empty.openBlock "if".toList 1)
  refine ⟨hcheck, hreturn, ⟨b, hb, hblocks, hlines.trans ?_⟩, hgenerate⟩
  decide +kernel

end Stencil
