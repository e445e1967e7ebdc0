import Mathlib.Data.List.Forall2
import Stencil.Proofs.Program.Blocks
import Stencil.Proofs.Segment.Returns

/-!
# Programs of templates with carriage returns

A carriage return in front of each line break of a template changes neither its segments and their lines
(`Segment.scan_withReturns`) nor what its statements do to the open blocks, as long as no logical line of
a statement goes on over a line break (`statementEvents_withReturns`). What changes is the indentation:
a line of gaps that a carriage return ends takes part in the common indentation of its statement, and the
lines go into the program as they did exactly when that indentation is as wide as before
(`codeLines_withReturns_iff`).
-/

namespace Stencil

open Text (withReturns)

/-! ## Numbered lines -/

section

variable {α β : Type} {R : α → β → Prop}

/-- Lines that belong together get the same numbers. -/
theorem forall₂_zipIdx {ls : List α} {ls' : List β} (h : List.Forall₂ R ls ls') (n : Nat) :
    List.Forall₂ (fun x x' => R x.1 x'.1 ∧ x.2 = x'.2) (ls.zipIdx n) (ls'.zipIdx n) := by
  induction h generalizing n with
  | nil => exact .nil
  | cons hl _ ih => exact .cons ⟨hl, rfl⟩ (ih (n + 1))

variable {γ : Type} {f : α → Option γ} {g : β → Option γ} {ls : List α} {ls' : List β}

/-- The same is kept of lines that belong together. -/
theorem filterMap_congr_forall₂ (h : List.Forall₂ R ls ls') (hsame : ∀ x x', R x x' → f x = g x') :
    ls.filterMap f = ls'.filterMap g := by
  induction h with
  | nil => rfl
  | cons hx _ ih => rw [List.filterMap_cons, List.filterMap_cons, hsame _ _ hx, ih]

/-- When the same lines are kept and what is kept of them is the same, it is the same line by line. -/
theorem eq_of_filterMap_forall₂ (h : List.Forall₂ R ls ls')
    (hnone : ∀ x x', R x x' → (f x = none ↔ g x' = none))
    (heq : ls.filterMap f = ls'.filterMap g) {x : α} (hx : x ∈ ls) : ∃ x', R x x' ∧ f x = g x' := by
  induction h with
  | nil => cases hx
  | @cons y y' ls ls' hy _ ih =>
      have hfirst : f y = g y' ∧ ls.filterMap f = ls'.filterMap g := by
        cases hf : f y with
        | none =>
            have hg := (hnone y y' hy).1 hf
            rw [List.filterMap_cons_none hf, List.filterMap_cons_none hg] at heq
            exact ⟨hg.symm, heq⟩
        | some c =>
            obtain ⟨c', hg⟩ := Option.ne_none_iff_exists'.1 fun hg => by
              rw [(hnone y y' hy).2 hg] at hf
              cases hf
            rw [List.filterMap_cons_some hf, List.filterMap_cons_some hg] at heq
            obtain ⟨rfl, hrest⟩ := List.cons.inj heq
            exact ⟨hg.symm, hrest⟩
      rcases List.mem_cons.1 hx with rfl | hx
      · exact ⟨y', hy, hfirst.1⟩
      · exact ih hfirst.2 hx

end

/-! ## Lines of a statement -/

/-- The lines of a code, numbered, and those of the code with carriage returns. -/
theorem forall₂_lines (code : Text) : List.Forall₂
    (fun x x' => Text.Returns x.1 x'.1 ∧ x.2 = x'.2 ∧ x.1 ∈ Text.lines code ∧
      x'.1 ∈ Text.lines (withReturns code))
    (Text.lines code).zipIdx (Text.lines (withReturns code)).zipIdx := by
  have hlines := forall₂_zipIdx (Text.lines_withReturns code) 0
  refine List.forall₂_iff_zip.2 ⟨hlines.length_eq, fun h => ?_⟩
  obtain ⟨hreturns, hnumber⟩ := (List.forall₂_iff_zip.1 hlines).2 h
  obtain ⟨hmem, hmem'⟩ := List.of_mem_zip h
  exact ⟨hreturns, hnumber, List.fst_mem_of_mem_zipIdx hmem, List.fst_mem_of_mem_zipIdx hmem'⟩

/-- The lines of a statement that are not blank are the same. -/
theorem contentLines_withReturns (code : Text) (line : Int) :
    contentLines (withReturns code) line = contentLines code line := by
  refine (filterMap_congr_forall₂ (forall₂_lines code) fun x x' h => ?_).symm
  rw [contentLine?, contentLine?, Text.trim_returns h.1, h.2.1]

/-- No logical line of a statement goes on over a line break. -/
def SingleRows (code : Text) : Prop :=
  Script.continuationLines (Text.dedent code) = []

instance (code : Text) : Decidable (SingleRows code) :=
  inferInstanceAs (Decidable (Script.continuationLines (Text.dedent code) = []))

/-- A line of a statement that is not blank, less some columns and the blanks at its end. -/
def rowLine? (width : Nat) (line : Int) (x : Text × Nat) : Option CodeLine :=
  if (Text.trim x.1).isEmpty then none
  else some ⟨line + x.2, Text.trimEnd (x.1.drop width), true⟩

/-- Only blank lines are left out. -/
theorem rowLine?_eq_none {width : Nat} {line : Int} {x : Text × Nat} :
    rowLine? width line x = none ↔ (Text.trim x.1).isEmpty := by
  rw [rowLine?]
  split <;> simp_all

/-- A line that is not blank holds more than gaps. -/
theorem not_gaps_of_trim {l : Text} (h : ¬ (Text.trim l).isEmpty) : ¬ l.all Text.isGap := by
  intro hgaps
  refine h (List.isEmpty_iff.2 (Text.trim_eq_nil.2 (List.all_eq_true.2 fun c hc => ?_)))
  exact Text.isBlank_of_isGap (List.all_eq_true.1 hgaps c hc)

/-- Where no logical line goes on over a line break, the lines that are not blank go into the program,
less the common indentation and the blanks at their ends. -/
theorem codeLines_of_singleRows {code : Text} (h : SingleRows code) (line : Int) :
    codeLines code line =
      (Text.lines code).zipIdx.filterMap (rowLine? (Text.margin (Text.lines code)).length line) := by
  rw [codeLines_eq]
  refine List.filterMap_congr fun x hx => ?_
  have hmem : x.1 ∈ Text.lines code := List.fst_mem_of_mem_zipIdx hx
  have hnone (i : Nat) : (Script.continuationLines (Text.dedent code)).contains i = false := by
    rw [SingleRows] at h
    rw [h]
    rfl
  rw [codeLine?, rowLine?]
  simp only [hnone, Text.trim_dedentLine hmem, Bool.false_eq_true, if_false]
  split
  · rfl
  · next hblank => rw [Text.dedentLine, if_neg (not_gaps_of_trim hblank)]

/-- Then these lines start logical lines, and trimmed they are the lines that are not blank. -/
theorem map_codeLines_of_singleRows {code : Text} (h : SingleRows code) (line : Int) :
    (codeLines code line).map (fun l => (l.line, Text.trim l.text)) = contentLines code line ∧
      ∀ l ∈ codeLines code line, l.starts := by
  rw [codeLines_of_singleRows h, contentLines, List.map_filterMap]
  constructor
  · refine List.filterMap_congr fun x hx => ?_
    rw [rowLine?, contentLine?]
    split
    · rfl
    · next hblank =>
        have hle := Text.margin_length_le (List.fst_mem_of_mem_zipIdx hx) (not_gaps_of_trim hblank)
        rw [Option.map_some, Text.trim_trimEnd, Text.trim, Text.trimStart_drop_gaps hle]
        rfl
  · intro l hl
    obtain ⟨x, -, hx⟩ := List.mem_filterMap.1 hl
    rw [rowLine?] at hx
    split at hx
    · cases hx
    · obtain rfl := Option.some.inj hx
      rfl

/-! ## Open blocks -/

/-- A line that is a header, with the word that names its block. -/
def headerOf? (x : Int × Text) : Option (Int × Text) :=
  if (opensBlock x.2).toOption = some true then some (x.1, blockWord x.2) else none

/-- Where no logical line goes on over a line break, the block that a statement opens can be read off the
last line that is not blank. -/
theorem openedBlock?_of_singleRows {code : Text} (h : SingleRows code) (line : Int) :
    openedBlock? code line = (contentLines code line).getLast?.bind headerOf? := by
  obtain ⟨hmap, hstarts⟩ := map_codeLines_of_singleRows h line
  rw [openedBlock?, ← hmap, List.getLast?_map]
  rcases List.eq_nil_or_concat (codeLines code line) with hnil | ⟨init, l, hlines⟩
  · rw [hnil]
    split <;> rfl
  · have hl : l.starts := hstarts l (by rw [hlines, List.concat_eq_append]; simp)
    have hlast : lastLogical (codeLines code line) = [l] := by
      simp [hlines, lastLogical, hl]
    have hopens : opensBlock (Text.trim l.text) = opensBlock l.text := by
      rw [opensBlock, opensBlock, Text.trim_trim]
    have hword : blockWord (Text.trim l.text) = blockWord l.text := by
      have htrim : Text.trimStart (Text.trim l.text) = Text.trimEnd (Text.trimStart l.text) := by
        rw [Text.trim, Text.trimStart_trimEnd, Text.trimStart, Text.trimStart,
          List.dropWhile_idempotent]
      rw [blockWord, blockWord, htrim, leadingWord?_trimEnd isWord_siblingWords,
        leadingWord?_trimEnd isWord_openingWords]
    have htext : Text.joinLines ([l].map (·.text)) = l.text := rfl
    rw [hlast, htext, hlines, List.concat_eq_append, List.getLast?_concat]
    simp only [Option.map_some, Option.bind_some, headerOf?, hopens, hword]
    cases hb : opensBlock l.text with
    | error e => rfl
    | ok opens => cases opens <;> rfl

/-- A carriage return in front of each line break does not change what a statement does to the open
blocks, where no logical line goes on over a line break. -/
theorem statementEvents_withReturns {code : Text} (h : SingleRows code)
    (h' : SingleRows (withReturns code)) (line : Int) :
    statementEvents (withReturns code) line = statementEvents code line := by
  rw [statementEvents, statementEvents, openedBlock?_of_singleRows h, openedBlock?_of_singleRows h',
    contentLines_withReturns]

/-! ## Indentation -/

/-- What stands behind some columns of a line is the same but for a carriage return. -/
theorem trimEnd_drop_returns {l l' : Text} (h : Text.Returns l l') {n : Nat} (hn : n ≤ l.length) :
    Text.trimEnd (l'.drop n) = Text.trimEnd (l.drop n) := by
  refine Text.trimEnd_returns (h.imp (fun h => by rw [h]) fun h => ?_)
  rw [h, List.drop_append_of_le_length hn]

/-- A line that is not blank loses as many characters as there are columns. -/
theorem length_trimEnd_drop {l : Text} (h : ¬ (Text.trim l).isEmpty) {n : Nat}
    (hn : n ≤ (l.takeWhile Text.isGap).length) :
    (Text.trimEnd (l.drop n)).length + n = (Text.trimEnd l).length := by
  have hne : Text.trimEnd (l.drop n) ≠ [] := by
    intro hnil
    have hstart := Text.trimStart_drop_gaps hn
    rw [Text.trimEnd_eq_nil, ← Text.trimStart_eq_nil, hstart, Text.trimStart_eq_nil,
      ← Text.trim_eq_nil] at hnil
    exact h (List.isEmpty_iff.2 hnil)
  have happend {a b : Text} (hb : Text.trimEnd b ≠ []) : Text.trimEnd (a ++ b) = a ++ Text.trimEnd b := by
    rw [Text.trimEnd, ne_eq, List.reverse_eq_nil_iff] at hb
    rw [Text.trimEnd, Text.trimEnd, List.reverse_append, List.dropWhile_append,
      if_neg (by simpa using hb), List.reverse_append, List.reverse_reverse]
  have hlength : n ≤ l.length := Nat.le_trans hn (List.takeWhile_prefix Text.isGap).length_le
  conv => rhs; rw [← List.take_append_drop n l, happend hne, List.length_append,
    List.length_take_of_le hlength, Nat.add_comm]

/-- The lines of a statement go into the program as they did exactly when the common indentation is as
wide as before. -/
theorem codeLines_withReturns_iff {code : Text} (h : SingleRows code)
    (h' : SingleRows (withReturns code)) {line : Int} (hcontent : contentLines code line ≠ []) :
    codeLines (withReturns code) line = codeLines code line ↔
      (Text.margin (Text.lines (withReturns code))).length = (Text.margin (Text.lines code)).length := by
  rw [codeLines_of_singleRows h, codeLines_of_singleRows h']
  have hblank {x x' : Text × Nat} (hx : Text.Returns x.1 x'.1) :
      (Text.trim x'.1).isEmpty = (Text.trim x.1).isEmpty := by rw [Text.trim_returns hx]
  -- the common indentation is no wider than the gaps in front of a line
  have hwidth {ls : List Text} {l : Text} (hl : l ∈ ls) (h : ¬ (Text.trim l).isEmpty) :
      (Text.margin ls).length ≤ (l.takeWhile Text.isGap).length :=
    Text.margin_length_le hl (not_gaps_of_trim h)
  have hlength (l : Text) : (l.takeWhile Text.isGap).length ≤ l.length :=
    (List.takeWhile_prefix Text.isGap).length_le
  constructor
  · intro heq
    obtain ⟨x, hx, hfilled⟩ : ∃ x ∈ (Text.lines code).zipIdx, ¬ (Text.trim x.1).isEmpty := by
      refine Classical.byContradiction fun hnot => hcontent (List.filterMap_eq_nil_iff.2 fun x hx => ?_)
      exact if_pos (Classical.not_not.1 fun h => hnot ⟨x, hx, h⟩)
    obtain ⟨x', ⟨hreturns, -, hmem, hmem'⟩, hrow⟩ := eq_of_filterMap_forall₂ (forall₂_lines code)
      (fun x x' hx => by rw [rowLine?_eq_none, rowLine?_eq_none, hblank hx.1]) heq.symm hx
    have hfilled' : ¬ (Text.trim x'.1).isEmpty := by rwa [hblank hreturns]
    rw [rowLine?, rowLine?, if_neg hfilled, if_neg hfilled', Option.some_inj] at hrow
    have htext := congrArg (fun l : CodeLine => l.text.length) hrow
    have hcount := length_trimEnd_drop hfilled (hwidth hmem hfilled)
    have hcount' := length_trimEnd_drop hfilled' (hwidth hmem' hfilled')
    rw [Text.trimEnd_returns hreturns] at hcount'
    dsimp only at htext
    omega
  · intro heq
    rw [heq]
    refine (filterMap_congr_forall₂ (forall₂_lines code) fun x x' hx => ?_).symm
    obtain ⟨hreturns, hnumber, hmem, -⟩ := hx
    rw [rowLine?, rowLine?, hblank hreturns, hnumber]
    split
    · rfl
    · next hfilled =>
        rw [trimEnd_drop_returns hreturns (Nat.le_trans (hwidth hmem hfilled) (hlength x.1))]

/-! ## Templates -/

/-- A directive whose statement can be read line by line, with carriage returns and without. -/
def Directive.ReadsByLine (d : Directive) : Prop :=
  d.kind = .statement →
    Char.ofNat 0 ∉ d.code ∧ SingleRows d.code ∧ SingleRows (withReturns d.code)

/-- Instructions that do the same to the open blocks are generated alike in strict mode, or fail alike. -/
theorem generate_strict_congr {is is' : List Instruction}
    (hnull : ∀ code line, .runStatement code line ∈ is → Char.ofNat 0 ∉ code)
    (hnull' : ∀ code line, .runStatement code line ∈ is' → Char.ofNat 0 ∉ code)
    (hevents : is'.flatMap (·.events) = is.flatMap (·.events)) (template : String) :
    ((∃ b, generate template true is' = .ok b) ↔ ∃ b, generate template true is = .ok b) ∧
      ∀ e, generate template true is' = .error e ↔ generate template true is = .error e := by
  have h := generate_strict_eq template hnull
  have h' := generate_strict_eq template hnull'
  rw [hevents] at h'
  cases hrun : runEvents [] (is.flatMap (·.events)) with
  | error x =>
      rw [hrun] at h h'
      dsimp only at h h'
      simp [h, h']
  | ok stack =>
      rw [hrun] at h h'
      cases stack with
      | nil =>
          obtain ⟨b, hb, -⟩ := h
          obtain ⟨b', hb', -⟩ := h'
          simp [hb, hb']
      | cons top outer =>
          dsimp only at h h'
          simp [h, h']

/-- The statements of a directive are its code. -/
theorem runStatement_mem_instructions {d : Directive} {code : Text} {line : Int}
    (h : .runStatement code line ∈ d.instructions) : d.kind = .statement ∧ code = d.code := by
  have hspace (space : Option Text) (line' : Int) :
      .runStatement code line ∉ Instruction.ofSpace space line' := by
    rcases space with _ | _ | ⟨c, t⟩ <;> simp [Instruction.ofSpace]
  have hcore : .runStatement code line ∈ d.core := by
    rw [Directive.instructions] at h
    split at h
    · exact h
    · simpa [hspace] using h
  rw [Directive.core] at hcore
  split at hcore
  · next hkind => exact ⟨hkind, (by simpa using hcore : code = d.code ∧ line = d.line).1⟩
  · simp at hcore
  · simp at hcore
  · split at hcore <;> simp at hcore

/-- The white space around a directive leaves the open blocks as they are. -/
theorem events_instructions (d : Directive) :
    d.instructions.flatMap (·.events) =
      if d.kind = .statement then statementEvents d.code d.line else [] := by
  have hspace (space : Option Text) (line : Int) :
      (Instruction.ofSpace space line).flatMap (·.events) = [] := by
    rcases space with _ | _ | ⟨c, t⟩ <;> rfl
  have hcore : d.core.flatMap (·.events) =
      if d.kind = .statement then statementEvents d.code d.line else [] := by
    rw [Directive.core]
    cases hkind : d.kind with
    | statement => simp [Instruction.events]
    | escapedExpr => rfl
    | rawExpr => rfl
    | comment =>
        dsimp only
        split <;> rfl
  rw [Directive.instructions]
  split
  · exact hcore
  · rw [List.flatMap_append, List.flatMap_append, hspace, hspace, hcore, List.append_nil,
      List.nil_append]

/-- A loop over lines of its own. -/
def linesLoop : Text := "<% for x in xs %>\n  <%= x %>\n<% end %>\n".toList

end Stencil
