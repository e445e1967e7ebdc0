import Stencil.Proofs.Program.Blocks
import Stencil.Proofs.Script.Dedent

/-!
# Lines that continue a logical line, as they are written

The lines of a statement that continue a logical line go into the program without indentation. They are
the lines of the dedented code, though, and so are what was written only when dedenting leaves them
alone: when they are empty, or hold more than gaps and there is no common indentation
(`continuationLine_kept_iff`).
-/

namespace Stencil

/-! ## The text that a statement adds -/

/-- A line of a statement as it stands in a program, at an indentation. -/
def CodeLine.generated (indent : Nat) (l : CodeLine) : Text :=
  if l.starts then List.replicate indent ' ' ++ l.text else l.text

/-- Whether no line of a statement behind the line of the given number goes into the program. -/
def isLastLine (code : Text) (line : Int) (i : Nat) : Bool :=
  ((Text.lines code).zipIdx.drop (i + 1)).all fun x => (codeLine? code line x).isNone

/-- The text in the program that a line of a statement, with its number, becomes. The last one may get a
colon. -/
def generatedText (code : Text) (line : Int) (indent : Nat) (colon : Bool) (x : Text × Nat) :
    Option Text :=
  (codeLine? code line x).map fun l =>
    l.generated indent ++ if colon && isLastLine code line x.2 then [':'] else []

namespace Builder

/-- Adding the lines of a statement puts them behind the others. -/
theorem addCode_lines (b : Builder) (ls : List CodeLine) :
    (b.addCode ls).lines.toList = b.lines.toList ++ ls.map (·.generated b.indent) := by
  induction ls generalizing b with
  | nil => exact (List.append_nil _).symm
  | cons l ls ih =>
      have hindent : (b.addLine l.text l.line l.starts).indent = b.indent := rfl
      have hlines : (b.addLine l.text l.line l.starts).lines.toList =
          b.lines.toList ++ [l.generated b.indent] := Array.toList_push
      rw [addCode, List.foldl_cons, ← addCode, ih, hindent, hlines, List.map_cons, List.append_assoc]
      rfl

/-- Closing a block adds at most a line that does nothing. -/
theorem closeFor_lines {b b' : Builder} {template : String} {first : CodeLine}
    (h : b.closeFor template first = .ok b') :
    b'.lines.toList = b.lines.toList ∨
      b'.lines.toList = b.lines.toList ++ [List.replicate b.indent ' ' ++ idleLine] := by
  rw [closeFor, closeBlock?] at h
  cases hb : b.blocks with
  | nil => simp [hb] at h
  | cons block outer =>
      rw [hb] at h
      obtain rfl := Except.ok.inj h
      dsimp only
      split
      · exact .inr Array.toList_push
      · exact .inl rfl

/-- A statement that is no end word adds its lines, with a colon or without. -/
theorem addOpening_lines {b b' : Builder} {ls : List CodeLine} (h : b.addOpening ls = .ok b') :
    ∃ colon : Bool, b'.lines.toList =
      b.lines.toList ++ (if colon then addColon ls else ls).map (·.generated b.indent) := by
  rw [addOpening] at h
  dsimp only at h
  split at h
  · cases h
  · exact ⟨false, Except.ok.inj h ▸ addCode_lines b ls⟩
  · generalize Text.endsWith (Text.trimEnd (Text.joinLines ((lastLogical ls).map (·.text)))) [':'] =
      ended at h
    have hlines : b'.lines = (b.addCode (if ended then ls else addColon ls)).lines := by
      split at h <;> exact Except.ok.inj h ▸ rfl
    refine ⟨!ended, ?_⟩
    rw [hlines, addCode_lines]
    cases ended <;> rfl

end Builder

/-- The text of a line with a colon behind it. -/
theorem CodeLine.generated_colon (indent : Nat) (l : CodeLine) :
    ({ l with text := l.text ++ [':'] } : CodeLine).generated indent =
      l.generated indent ++ [':'] := by
  rw [generated, generated]
  split
  · exact (List.append_assoc _ _ _).symm
  · rfl

/-- A colon behind the last of several lines stands behind the later ones. -/
theorem addColon_cons {l : CodeLine} {ls : List CodeLine} (h : ls ≠ []) :
    addColon (l :: ls) = l :: addColon ls := by
  obtain ⟨init, last, rfl⟩ : ∃ init last, ls = init ++ [last] :=
    ⟨_, _, (List.dropLast_append_getLast h).symm⟩
  rw [addColon_concat, ← List.cons_append, addColon_concat, List.cons_append]

/-- From a line on, the lines of a statement with a colon behind the last one are what each line of its
code becomes. -/
theorem map_generated_addColon (code : Text) (line : Int) (indent : Nat) {xs : List (Text × Nat)}
    {k : Nat} (h : (Text.lines code).zipIdx.drop k = xs) :
    (addColon (xs.filterMap (codeLine? code line))).map (·.generated indent) =
      xs.filterMap (generatedText code line indent true) := by
  induction xs generalizing k with
  | nil => rfl
  | cons x xs ih =>
      have hrest : (Text.lines code).zipIdx.drop (k + 1) = xs := by
        rw [← List.drop_drop, h]
        rfl
      have hk : x.2 = k := by
        have hx : (Text.lines code).zipIdx[k]? = some x := by
          rw [← List.head?_drop, h]
          rfl
        rw [List.getElem?_zipIdx, Option.map_eq_some_iff] at hx
        obtain ⟨l, -, rfl⟩ := hx
        exact Nat.zero_add k
      have hih := ih hrest
      cases hx : codeLine? code line x with
      | none =>
          have htext : generatedText code line indent true x = none := by rw [generatedText, hx]; rfl
          rw [List.filterMap_cons_none hx, List.filterMap_cons_none htext, hih]
      | some l =>
          have hlast : isLastLine code line x.2 = (xs.filterMap (codeLine? code line)).isEmpty := by
            rw [isLastLine, hk, hrest, Bool.eq_iff_iff, List.all_eq_true, List.isEmpty_iff,
              List.filterMap_eq_nil_iff]
            simp
          have htext : generatedText code line indent true x = some (l.generated indent ++
              if (xs.filterMap (codeLine? code line)).isEmpty then [':'] else []) := by
            rw [generatedText, hx, hlast, Bool.true_and]
            rfl
          rw [List.filterMap_cons_some hx, List.filterMap_cons_some htext, ← hih]
          cases hxs : xs.filterMap (codeLine? code line) with
          | nil => exact congrArg (· :: []) (CodeLine.generated_colon indent l)
          | cons l' ls =>
              rw [addColon_cons (List.cons_ne_nil _ _), List.map_cons, List.isEmpty_cons,
                if_neg Bool.false_ne_true, List.append_nil]

/-- The lines of a statement, with a colon or without, are what each line of its code becomes. -/
theorem map_generated_codeLines (code : Text) (line : Int) (indent : Nat) (colon : Bool) :
    (if colon then addColon (codeLines code line) else codeLines code line).map
        (·.generated indent) =
      (Text.lines code).zipIdx.filterMap (generatedText code line indent colon) := by
  rw [codeLines_eq]
  cases colon with
  | true => exact map_generated_addColon code line indent (List.drop_zero ..)
  | false =>
      rw [if_neg Bool.false_ne_true, List.map_filterMap]
      congr
      funext x
      rw [generatedText, Bool.false_and]
      simp

/-- What a statement adds to a program: a line that does nothing where it closes an empty block, and
then the text that each of its lines becomes, at one indentation. -/
theorem addStatement_lines {template : String} {b b' : Builder} {code : Text} {line : Int}
    (h : b.addStatement template code line = .ok b')
    (hword : ∀ l t, contentLines code line = [(l, t)] → isEndWord t = false) :
    ∃ idle indent colon,
      b'.lines.toList = b.lines.toList ++ idle ++
        (Text.lines code).zipIdx.filterMap (generatedText code line indent colon) ∧
      (idle = [] ∨ idle = [List.replicate b.indent ' ' ++ Builder.idleLine]) := by
  rw [Builder.addStatement] at h
  rcases codeLines_cases code line with ⟨-, hcode⟩ | ⟨_, rest, first, more, hcontent, hcode,
    -, rfl, hend⟩
  · rw [hcode] at h
    obtain rfl := Except.ok.inj h
    refine ⟨[], 0, false, ?_, .inl rfl⟩
    rw [← map_generated_codeLines, hcode]
    simp
  · have hnot : (rest.isEmpty && isEndWord (Text.trim first.text)) = false := by
      cases rest with
      | nil => exact hword _ _ hcontent
      | cons => rfl
    have hopening (b₁ : Builder) (h : b₁.addOpening (codeLines code line) = .ok b') :
        ∃ colon, b'.lines.toList = b₁.lines.toList ++
          (Text.lines code).zipIdx.filterMap (generatedText code line b₁.indent colon) := by
      obtain ⟨colon, hlines⟩ := Builder.addOpening_lines h
      exact ⟨colon, map_generated_codeLines code line b₁.indent colon ▸ hlines⟩
    rw [hcode] at h hopening
    dsimp only at h
    rw [hend, hnot, if_neg Bool.false_ne_true] at h
    split at h
    · cases hclose : b.closeFor template first with
      | error e =>
          rw [hclose] at h
          cases h
      | ok b₁ =>
          rw [hclose] at h
          obtain ⟨colon, hlines⟩ := hopening b₁ h
          rcases Builder.closeFor_lines hclose with hclosed | hclosed
          · rw [hclosed, ← List.append_nil b.lines.toList] at hlines
            exact ⟨[], b₁.indent, colon, hlines, .inl rfl⟩
          · rw [hclosed] at hlines
            exact ⟨[List.replicate b.indent ' ' ++ Builder.idleLine], b₁.indent, colon, hlines,
              .inr rfl⟩
    · obtain ⟨colon, hlines⟩ := hopening b h
      rw [← List.append_nil b.lines.toList] at hlines
      exact ⟨[], b.indent, colon, hlines, .inl rfl⟩

/-! ## Lines that continue a logical line -/

/-- What may stand behind a line of a statement that it does not hold itself: nothing, or a colon behind
the last one. -/
def IsEnding (code : Text) (line : Int) (colon : Bool) (i : Nat) (ending : Text) : Prop :=
  ending = [] ∨ ending = [':'] ∧ colon ∧ isLastLine code line i

/-- What is put behind a line is nothing or a colon. -/
theorem isEnding_colon (code : Text) (line : Int) (colon : Bool) (i : Nat) :
    IsEnding code line colon i (if colon && isLastLine code line i then [':'] else []) := by
  split
  · next h =>
      rw [Bool.and_eq_true] at h
      exact .inr ⟨rfl, h⟩
  · exact .inl rfl

/-- How a line goes into the program that continues a logical line of the dedented code. -/
theorem codeLine?_continued {code : Text} {line : Int} {x : Text × Nat}
    (h : x.2 ∈ Script.continuationLines (Text.dedent code)) :
    codeLine? code line x =
      some ⟨line + x.2, Text.dedentLine (Text.margin (Text.lines code)).length x.1, false⟩ := by
  rw [codeLine?, if_pos (by simpa using h)]

/-- A line that continues a logical line of the dedented code stands in the program as the dedented
line. -/
theorem generatedText_continued {code : Text} {line : Int} {x : Text × Nat}
    (h : x.2 ∈ Script.continuationLines (Text.dedent code)) (indent : Nat) (colon : Bool) :
    generatedText code line indent colon x =
      some (Text.dedentLine (Text.margin (Text.lines code)).length x.1 ++
        if colon && isLastLine code line x.2 then [':'] else []) := by
  rw [generatedText, codeLine?_continued h]
  rfl

/-- A line that does not continue a logical line of the dedented code is indented, or missing when it is
blank. -/
theorem generatedText_fresh {code : Text} {line : Int} {x : Text × Nat}
    (h : x.2 ∉ Script.continuationLines (Text.dedent code)) (indent : Nat) (colon : Bool) :
    generatedText code line indent colon x = none ∨
      ∃ rest, generatedText code line indent colon x = some (List.replicate indent ' ' ++ rest) := by
  have hline : codeLine? code line x = none ∨
      ∃ text, codeLine? code line x = some ⟨line + x.2, text, true⟩ := by
    rw [codeLine?, if_neg (by simpa using h)]
    split
    · exact .inl rfl
    · exact .inr ⟨_, rfl⟩
  rw [generatedText]
  rcases hline with hnone | ⟨text, hsome⟩
  · rw [hnone]
    exact .inl rfl
  · rw [hsome]
    exact .inr ⟨_, congrArg some (List.append_assoc _ _ _)⟩

/-- A line that continues a logical line is in the program as it is written, at every indentation and but
for a colon behind the last one, exactly when the dedented code can be read as well and dedenting leaves
the line alone. -/
theorem generatedText_kept_iff {code l : Text} {i : Nat} (hread : Script.Readable code) (line : Int)
    (hl : (Text.lines code)[i]? = some l) (hi : i ∈ Script.continuationLines code) :
    (∀ indent colon, ∃ ending, IsEnding code line colon i ending ∧
        generatedText code line indent colon (l, i) = some (l ++ ending)) ↔
      Script.Readable (Text.dedent code) ∧
        (l = [] ∨ ¬ l.all Text.isGap ∧ Text.margin (Text.lines code) = []) := by
  have hmem := List.mem_of_getElem? hl
  constructor
  · intro h
    have hcont : i ∈ Script.continuationLines (Text.dedent code) := by
      refine Classical.not_not.1 fun hnot => ?_
      -- deeper than the line is long, it cannot be the line
      obtain ⟨ending, hending, htext⟩ := h (l.length + 2) false
      have hnil : ending = [] := hending.resolve_right (by simp)
      rcases @generatedText_fresh code line (l, i) hnot (l.length + 2) false with
        hnone | ⟨rest, hsome⟩
      · exact absurd (htext.symm.trans hnone) (Option.some_ne_none _)
      · have hlen := congrArg List.length (Option.some.inj (htext.symm.trans hsome))
        simp [hnil] at hlen
        omega
    have hdedent : Script.Readable (Text.dedent code) := by
      rw [Script.Readable, Option.isSome_iff_ne_none]
      intro hnone
      rw [Script.continuationLines, hnone] at hcont
      exact List.not_mem_nil hcont
    refine ⟨hdedent, (Text.dedentLine_eq_self hmem).1 ?_⟩
    obtain ⟨ending, hending, htext⟩ := h 0 false
    have hnil : ending = [] := hending.resolve_right (by simp)
    rw [generatedText_continued hcont, hnil, Option.some_inj] at htext
    simpa using htext
  · rintro ⟨hdedent, hkept⟩ indent colon
    have hcont : i ∈ Script.continuationLines (Text.dedent code) :=
      (Script.continuationLines_dedent hread hdedent).symm ▸ hi
    refine ⟨_, isEnding_colon code line colon i, ?_⟩
    rw [generatedText_continued hcont]
    dsimp only
    rw [(Text.dedentLine_eq_self hmem).2 hkept]

/-- A line ahead of one that continues its logical line is indented and keeps what is behind the common
indentation, blanks at its end included. -/
theorem generatedText_ahead {code before after : Text} {i : Nat}
    (hbefore : (Text.lines code)[i]? = some before) (hafter : (Text.lines code)[i + 1]? = some after)
    (hnot : i ∉ Script.continuationLines (Text.dedent code))
    (hnext : i + 1 ∈ Script.continuationLines (Text.dedent code)) (line : Int) (indent : Nat)
    (colon : Bool) :
    generatedText code line indent colon (before, i) =
      some (List.replicate indent ' ' ++ before.drop (Text.margin (Text.lines code)).length) := by
  have hmem := List.mem_of_getElem? hbefore
  have hblank : ¬ before.all Text.isBlank := by
    have hlen : i + 1 < (Text.lines (Text.dedent code)).length := by
      rw [Text.lines_dedent, List.length_map]
      exact (List.getElem?_eq_some_iff.1 hafter).1
    -- the logical line starts on a line with text, and all lines between it and `i + 1` go on with it, so
    -- it starts on line `i`
    obtain ⟨k, l, hk, hl, hne, hgoes⟩ :=
      Script.exists_start_of_mem_continuationLines hnext hlen
    obtain rfl : k = i := by
      refine Nat.le_antisymm (Nat.le_of_lt_succ hk) (Nat.le_of_not_lt fun hlt => hnot ?_)
      exact hgoes i hlt (Nat.le_succ i)
    rw [Text.lines_dedent, List.getElem?_map, hbefore, Option.map_some, Option.some_inj] at hl
    rwa [← hl, Text.blank_dedentLine hmem] at hne
  have hgaps : ¬ before.all Text.isGap := fun h => hblank (List.all_eq_true.2 fun c hc =>
    Text.isBlank_of_isGap (List.all_eq_true.1 h c hc))
  have hdedent : Text.dedentLine (Text.margin (Text.lines code)).length before =
      before.drop (Text.margin (Text.lines code)).length := if_neg hgaps
  have htrim : Text.trim (Text.dedentLine (Text.margin (Text.lines code)).length before) ≠ [] := by
    rw [Text.trim_dedentLine hmem]
    exact mt Text.trim_eq_nil.1 hblank
  have hline : codeLine? code line (before, i) =
      some ⟨line + i, before.drop (Text.margin (Text.lines code)).length, true⟩ := by
    rw [codeLine?, if_neg (by simpa using hnot), if_neg (mt List.isEmpty_iff.1 htrim),
      if_pos (by simpa using hnext), hdedent]
  -- the line behind is kept, so no colon is put behind this one
  have hlast : isLastLine code line i = false := by
    refine Bool.eq_false_iff.2 fun hall => ?_
    have hmem' : (after, i + 1) ∈ (Text.lines code).zipIdx.drop (i + 1) := by
      refine List.mem_of_getElem? (i := 0) ?_
      rw [List.getElem?_drop, List.getElem?_zipIdx, Nat.add_zero, hafter, Option.map_some,
        Nat.zero_add]
    have hnone := List.all_eq_true.1 hall _ hmem'
    rw [codeLine?_continued hnext] at hnone
    cases hnone
  rw [generatedText, hline, hlast, Bool.and_false]
  exact congrArg some (List.append_nil _)

/-- A line that continues a logical line. The statement adds to the program what its lines become. At
every indentation the line is in the program as it is written, but for a colon behind the last one,
exactly when the dedented code can be read as well and dedenting leaves the line alone. And if that code
can be read, the line ahead keeps the blanks at its end. -/
theorem continuationLine_kept_iff {code l : Text} {i : Nat} (hread : Script.Readable code) (line : Int)
    (hl : (Text.lines code)[i]? = some l) (hi : i ∈ Script.continuationLines code) :
    (∀ template b b', Builder.addStatement b template code line = .ok b' →
      ∃ idle indent colon,
        b'.lines.toList = b.lines.toList ++ idle ++
          (Text.lines code).zipIdx.filterMap (generatedText code line indent colon) ∧
        (idle = [] ∨ idle = [List.replicate b.indent ' ' ++ Builder.idleLine])) ∧
      ((∀ indent colon, ∃ ending, IsEnding code line colon i ending ∧
          generatedText code line indent colon (l, i) = some (l ++ ending)) ↔
        Script.Readable (Text.dedent code) ∧
          (l = [] ∨ ¬ l.all Text.isGap ∧ Text.margin (Text.lines code) = [])) ∧
      (Script.Readable (Text.dedent code) → ∀ k before, k + 1 = i →
        (Text.lines code)[k]? = some before → k ∉ Script.continuationLines code →
        ∀ indent colon, generatedText code line indent colon (before, k) =
          some (List.replicate indent ' ' ++ before.drop (Text.margin (Text.lines code)).length)) := by
  refine ⟨fun template b b' hadd => addStatement_lines hadd fun n t hcontent => ?_,
    generatedText_kept_iff hread line hl hi, fun hdedent k before hk hbefore hnot indent colon => ?_⟩
  · refine Bool.eq_false_iff.2 fun hend => ?_
    have hwords : ∀ x ∈ contentLines code line, isEndWord x.2 := by
      rw [hcontent]
      exact fun x hx => List.mem_singleton.1 hx ▸ hend
    rw [(continuationLines_of_isEndWord hwords).1] at hi
    exact List.not_mem_nil hi
  · subst hk
    rw [← Script.continuationLines_dedent hread hdedent] at hnot hi
    exact generatedText_ahead hbefore hl hnot hi line indent colon

/-- The assignment of a string whose second line holds gaps only. -/
def gapString : Text := "s = '''a\n   \nb'''".toList

/-- The second line of the string can be read as part of it, and is not kept. -/
theorem not_kept_gapString :
    Script.Readable gapString ∧ (Text.lines gapString)[1]? = some "   ".toList ∧
      1 ∈ Script.continuationLines gapString ∧
      ¬ ∀ indent colon, ∃ ending, IsEnding gapString 1 colon 1 ending ∧
        generatedText gapString 1 indent colon ("   ".toList, 1) = some ("   ".toList ++ ending) := by
  have hread : Script.Readable gapString := by
    rw [Script.Readable]
    decide +kernel
  have hl : (Text.lines gapString)[1]? = some "   ".toList := by decide +kernel
  have hi : 1 ∈ Script.continuationLines gapString := by decide +kernel
  refine ⟨hread, hl, hi, fun h => ?_⟩
  have hkept := ((continuationLine_kept_iff hread 1 hl hi).2.1.1 h).2
  rcases hkept with hnil | hgaps
  · cases hnil
  · exact hgaps.1 rfl

end Stencil
