import Stencil.Script.Continuation
import Stencil.Proofs.Text.Lines

/-!
# Where continuation lines can stand

A line continues a logical line only behind a line that is not blank, the one on which the logical line
starts (`exists_start_of_mem_continuationLines`). A text of plain characters, without brackets, quotes,
backslashes and remarks, has no continuation lines at all (`continuationLines_of_plain`).

Both follow from invariants of the reading of lines: `Anchored` says where the current logical line and
the ones before it start, and `Single` that each logical line so far took up one line.
-/

namespace Stencil.Script

namespace RowState

/-- Marking a line changes nothing but where the current logical line starts. -/
theorem mark_eq (s : RowState) (row : Nat) :
    s.mark row = { s with start? := some (s.start?.getD row) } := by
  obtain ⟨row', depth, continued, open?, needs, indents, start?, spans⟩ := s
  cases start? <;> rfl

end RowState

/-! ## Plain characters -/

/-- Characters that open, close or hide something. -/
def marks : Text :=
  ['\\', '#', '(', '[', '{', ')', ']', '}', Char.ofNat 34, Char.ofNat 39]

/-- Characters that neither open nor close nor hide anything. -/
def isPlain (c : Char) : Bool := !marks.contains c

/-- Blanks are plain. -/
theorem isPlain_of_isBlank {c : Char} (h : Text.isBlank c) : isPlain c := by
  have hmarks : marks.all (fun d => !Text.isBlank d) = true := rfl
  simpa [isPlain] using fun hmem : c ∈ marks => by simpa [h] using List.all_eq_true.1 hmarks c hmem

/-- Whether a text starts with a line break, with or without a carriage return. -/
def startsBreak (t : Text) : Bool :=
  ['\n'].isPrefixOf t || ['\r', '\n'].isPrefixOf t

/-- A plain character is a line break, which ends the logical line outside brackets, or part of a
logical line. -/
theorem scanRow_plain {fuel : Nat} {s : RowState} {t r : Text} {c : Char}
    (hdrop : t.dropWhile isRowGap = c :: r) (hc : isPlain c) :
    scanRow (fuel + 1) s t =
      if startsBreak (c :: r) then (if 0 < s.depth then s else s.close s.row)
      else scanRow fuel (s.mark s.row) r := by
  have hne : ∀ d ∈ marks, c ≠ d := by
    rintro d hd rfl
    simp [isPlain, hd] at hc
  simp only [marks, List.mem_cons, List.not_mem_nil, or_false, forall_eq_or_imp, forall_eq] at hne
  obtain ⟨h1, h2, h3, h4, h5, h6, h7, h8, h9, h10⟩ := hne
  rw [scanRow, hdrop]
  split
  · next h => cases h
  · next h => exact absurd (List.cons.inj h).1 h1
  · next h => exact absurd (List.cons.inj h).1 h1
  · next h =>
      obtain ⟨rfl, rfl⟩ := List.cons.inj h
      rfl
  · next h =>
      obtain ⟨rfl, rfl⟩ := List.cons.inj h
      rfl
  · next h => exact absurd (List.cons.inj h).1 h2
  · next c' r' _ _ hn hr _ h =>
      obtain ⟨rfl, rfl⟩ := List.cons.inj h
      have hbreaks : startsBreak (c :: r) = false := by
        have hbreak : '\n' ≠ c := fun h => hn h.symm
        cases r with
        | nil => simp [startsBreak, List.isPrefixOf, hbreak]
        | cons d r =>
            simp only [startsBreak, List.isPrefixOf, Bool.and_true, Bool.or_eq_false_iff,
              Bool.and_eq_false_iff, beq_eq_false_iff_ne]
            refine ⟨hbreak, ?_⟩
            by_cases hcr : c = '\r'
            · exact .inr fun h => hr r hcr (h ▸ rfl)
            · exact .inl (Ne.symm hcr)
      simp [hbreaks, isRowQuote, h3, h4, h5, h6, h7, h8, h9, h10, RowState.mark_eq]

/-- Behind a line break outside brackets no logical line has been started. -/
theorem scanRow_start?_of_plain {fuel : Nat} {s : RowState} {t : Text} (hplain : t.all isPlain)
    (hbreak : '\n' ∈ t) (hdepth : s.depth ≤ 0) (hfuel : t.length < fuel) :
    (scanRow fuel s t).start? = none := by
  induction fuel generalizing s t with
  | zero => exact absurd hfuel (Nat.not_lt_zero _)
  | succ fuel ih =>
      have hsplit := List.takeWhile_append_dropWhile (p := isRowGap) (l := t)
      cases hdrop : t.dropWhile isRowGap with
      | nil =>
          have hgaps := List.dropWhile_eq_nil_iff.1 hdrop '\n' hbreak
          simp [isRowGap] at hgaps
      | cons c r =>
          rw [hdrop] at hsplit
          have hr : ∀ d ∈ c :: r, isPlain d := fun d hd =>
            List.all_eq_true.1 hplain d (hsplit ▸ List.mem_append_right _ hd)
          rw [scanRow_plain hdrop (hr c List.mem_cons_self)]
          split
          · rw [if_neg (Int.not_lt.2 hdepth)]
            rfl
          · next hstarts =>
              have hmem : '\n' ∈ c :: r := by
                rw [← hsplit, List.mem_append] at hbreak
                refine hbreak.resolve_left fun h => ?_
                have hgap := List.mem_takeWhile_imp h
                simp [isRowGap] at hgap
              have hc : '\n' ≠ c := by
                rintro rfl
                simp [startsBreak] at hstarts
              have hlen := congrArg List.length hsplit
              simp only [List.length_append, List.length_cons] at hlen
              refine ih (List.all_eq_true.2 fun d hd => hr d (List.mem_cons_of_mem _ hd))
                (by simpa [hc] using hmem) ?_ (by omega)
              rw [RowState.mark_eq]
              exact hdepth

/-- Whether a line leaves no logical line started: it starts none, or ends the one that it starts. -/
def Passes (t : Text) : Prop :=
  ∀ s : RowState, s.depth ≤ 0 → (scanRow (t.length + 1) s t).start? = none

/-- A blank line passes. -/
theorem passes_of_isBlank {t : Text} (hblank : t.all Text.isBlank) (hbreak : '\n' ∈ t) : Passes t := by
  intro s hdepth
  have hplain : t.all isPlain := List.all_eq_true.2 fun c hc =>
    isPlain_of_isBlank (List.all_eq_true.1 hblank c hc)
  exact scanRow_start?_of_plain hplain hbreak hdepth (Nat.lt_succ_self _)

/-- The gaps at the start of a line are passed over. -/
theorem scanRow_dropWhile (fuel : Nat) (s : RowState) (t : Text) :
    scanRow (fuel + 1) s (t.dropWhile isRowGap) = scanRow (fuel + 1) s t := by
  unfold scanRow
  rw [List.dropWhile_idempotent]

/-! ## What reading a line can do -/

/-- The states that can follow while a line is read: the logical line can be started and can end, a
backslash can continue the line, and within the logical line brackets and a string can be opened. -/
inductive RowStep : RowState → RowState → Prop where
  | stop {s} : RowStep s s
  | continued {s} : RowStep s { s with continued := true }
  | close {s} (hdepth : s.depth ≤ 0) : RowStep s (s.close s.row)
  | mark {s s'} (hrest : RowStep (s.mark s.row) s') : RowStep s s'
  | depth {s s'} (depth : Int) (hstart : s.start? ≠ none) (hrest : RowStep { s with depth } s') :
      RowStep s s'
  | quote {s} (o : OpenString) (needsBackslash : Bool) (hquote : isRowQuote o.quote)
      (hstart : s.start? ≠ none) :
      RowStep s { s with open? := some o, needsBackslash }

/-- A marked state is within a logical line. -/
theorem RowState.mark_start? (s : RowState) (row : Nat) : (s.mark row).start? ≠ none := by
  rw [RowState.mark_eq]
  exact Option.some_ne_none _

/-- Reading a line does nothing else. -/
theorem rowStep_scanRow (fuel : Nat) (s : RowState) (t : Text) : RowStep s (scanRow fuel s t) := by
  fun_induction scanRow fuel s t with
  | case1 | case2 => exact .stop
  | case3 | case4 => exact .continued
  | case5 | case7 => exact .stop
  | case6 _ _ _ _ _ hdepth | case8 _ _ _ _ _ hdepth => exact .close (Int.not_lt.1 hdepth)
  | case9 _ _ _ _ _ ih => exact ih
  | case10 _ _ _ _ _ _ _ _ _ _ _ _ _ _ _ ih => exact .mark ih
  | case11 _ _ _ _ _ _ _ _ _ _ _ hquote =>
      exact .mark (.quote _ _ hquote (RowState.mark_start? _ _))
  | case12 _ _ _ _ _ _ _ _ _ _ _ _ _ _ _ ih => exact .mark ih
  | case13 _ _ _ _ _ _ _ _ _ _ _ hquote =>
      exact .mark (.quote _ _ hquote (RowState.mark_start? _ _))
  | case14 _ _ _ _ _ _ _ _ _ _ _ _ _ _ ih => exact .mark ih
  | case15 _ _ _ _ _ _ _ _ _ _ _ _ _ ih => exact .mark (.depth _ (RowState.mark_start? _ _) ih)

namespace RowStep

variable {s s' : RowState}

/-- The line that is read stays the same. -/
theorem row_eq (h : RowStep s s') : s'.row = s.row := by
  induction h with
  | mark _ ih => rw [ih, RowState.mark_eq]
  | depth _ _ _ ih => exact ih
  | stop | continued | close | quote => rfl

/-- A logical line that has started ends or goes on. -/
theorem start?_eq {f : Nat} (h : RowStep s s') (hstart : s.start? = some f) :
    s'.start? = none ∨ s'.start? = some f := by
  induction h with
  | stop | continued | quote => exact .inr hstart
  | close => exact .inl rfl
  | mark _ ih =>
      refine ih ?_
      rw [RowState.mark_eq, hstart]
      rfl
  | depth _ _ _ ih => exact ih hstart

/-- A string that is open starts with a quote. -/
theorem isRowQuote (h : RowStep s s') (hs : ∀ o, s.open? = some o → isRowQuote o.quote) :
    ∀ o, s'.open? = some o → isRowQuote o.quote := by
  induction h with
  | mark _ ih =>
      refine ih ?_
      rw [RowState.mark_eq]
      exact hs
  | depth _ _ _ ih => exact ih hs
  | stop | continued | close => exact hs
  | quote o _ hquote => exact fun o' h => Option.some.inj h ▸ hquote

end RowStep

/-! ## Where logical lines start -/

/-- The logical lines that take up several lines start on lines of a kind, the current one also on the
line that is being read, and outside a logical line no bracket and no string is open. -/
structure Anchored (A : Nat → Prop) (s : RowState) : Prop where
  span : ∀ f l, (f, l) ∈ s.spans → f < l → A f
  start : ∀ f, s.start? = some f → A f ∨ f = s.row
  depth : s.start? = none → s.depth ≤ 0
  quote : s.open? ≠ none → s.start? ≠ none

namespace Anchored

variable {A : Nat → Prop} {s s' : RowState}

/-- The line that is read can be marked. -/
theorem mark (h : Anchored A s) : Anchored A (s.mark s.row) := by
  rw [RowState.mark_eq]
  refine ⟨h.span, fun f hf => ?_, fun hnone => by simp at hnone, fun _ => by simp⟩
  cases hstart : s.start? with
  | none => exact .inr (by simpa [hstart, eq_comm] using hf)
  | some g => exact h.start f (by simpa [hstart] using hf)

/-- Outside strings and brackets the logical line can end. -/
theorem close (h : Anchored A s) (hopen : s.open? = none) (hdepth : s.depth ≤ 0) :
    Anchored A (s.close s.row) := by
  refine ⟨fun f l hmem hlt => ?_, fun f hf => by simp [RowState.close] at hf, fun _ => hdepth,
    fun hne => absurd hopen hne⟩
  rcases List.mem_cons.1 hmem with heq | hmem
  · obtain ⟨rfl, rfl⟩ := Prod.mk.inj heq
    cases hstart : s.start? with
    | none => simp [hstart] at hlt
    | some g =>
        rw [hstart, Option.getD_some] at hlt
        exact (h.start g hstart).resolve_right (Nat.ne_of_lt hlt)
  · exact h.span f l hmem hlt

/-- Reading a line keeps track of where logical lines start. -/
theorem step (h : Anchored A s) (hopen : s.open? = none) (hstep : RowStep s s') : Anchored A s' := by
  induction hstep with
  | stop => exact h
  | continued => exact ⟨h.span, h.start, h.depth, h.quote⟩
  | close hdepth => exact h.close hopen hdepth
  | mark _ ih =>
      refine ih h.mark ?_
      rw [RowState.mark_eq]
      exact hopen
  | depth _ hstart _ ih =>
      exact ih ⟨h.span, h.start, fun hnone => absurd hnone hstart, h.quote⟩ hopen
  | quote _ _ _ hstart => exact ⟨h.span, h.start, h.depth, fun _ => hstart⟩

end Anchored

/-- Behind the gaps at the start of a line stands what the gaps leave of it. -/
theorem rowColumn_rest (column : Nat) (t : Text) : (rowColumn column t).2 = t.dropWhile isRowGap := by
  fun_induction rowColumn column t with
  | case1 column r ih => simpa [isRowGap] using ih
  | case2 column r ih => simpa [isRowGap] using ih
  | case3 column r ih => simpa [isRowGap] using ih
  | case4 column t hspace htab hfeed =>
      cases t with
      | nil => rfl
      | cons c r =>
          have hgap : ¬ isRowGap c := by
            rw [isRowGap, Bool.or_eq_true, Bool.or_eq_true, beq_iff_eq, beq_iff_eq, beq_iff_eq]
            rintro ((rfl | rfl) | rfl)
            · exact hspace r rfl
            · exact htab r rfl
            · exact hfeed r rfl
          rw [List.dropWhile_cons_of_neg hgap]

/-- A line break is no gap, and so is left behind the gaps at the start of a line. -/
theorem break_mem_dropWhile {t : Text} (h : '\n' ∈ t) : '\n' ∈ t.dropWhile isRowGap := by
  rw [← List.takeWhile_append_dropWhile (p := isRowGap) (l := t), List.mem_append] at h
  refine h.resolve_left fun hgap => ?_
  have hbreak := List.mem_takeWhile_imp hgap
  simp [isRowGap] at hbreak

/-- What reading a whole line does before it goes on to the next one. A string that was open ends, is
given up or goes on; else the line is blank or a remark, starts anew, or is continued. -/
inductive RowRead (s : RowState) (t : Text) : RowState → Prop where
  | endString {o rest} (hopen : s.open? = some o) :
      RowRead s t (scanRow (t.length + 1)
        { s.mark o.row with open? := none, needsBackslash := false } rest)
  | dropString {o} (hopen : s.open? = some o) : RowRead s t { s.mark o.row with open? := none }
  | inString {o} (hopen : s.open? = some o) : RowRead s t s
  | blank (hopen : s.open? = none) : RowRead s t s
  | fresh (hopen : s.open? = none) (indents : List Nat) :
      RowRead s t (scanRow (t.length + 1) { s with indents } (t.dropWhile isRowGap))
  | continuing (hopen : s.open? = none) (hgoes : s.depth = 0 → s.continued = true) :
      RowRead s t (scanRow (t.length + 1) { s with continued := false } t)

/-- Reading a line does nothing else. -/
theorem rowRead_readRow {s s' : RowState} {t : Text} (h : readRow s t = .next s') :
    ∃ s₁, RowRead s t s₁ ∧ s' = { s₁ with row := s₁.row + 1 } := by
  rw [readRow] at h
  split at h
  · next o hopen =>
      split at h
      · exact ⟨_, .endString hopen, (RowResult.next.inj h).symm⟩
      · split at h
        · exact ⟨_, .dropString hopen, (RowResult.next.inj h).symm⟩
        · exact ⟨_, .inString hopen, (RowResult.next.inj h).symm⟩
  · next hopen =>
      split at h
      · split at h
        next column rest hcolumn =>
          have hrest : rest = t.dropWhile isRowGap := by rw [← rowColumn_rest 0 t, hcolumn]
          subst hrest
          split at h
          · cases h
          · split at h
            · exact ⟨_, .blank hopen, (RowResult.next.inj h).symm⟩
            · split at h
              · exact ⟨_, .fresh hopen _, (RowResult.next.inj h).symm⟩
              · cases h
      · next hgoes =>
          refine ⟨_, .continuing hopen fun hdepth => ?_, (RowResult.next.inj h).symm⟩
          simpa [hdepth] using hgoes

/-- What is known between two lines: also the current logical line starts on a line of the kind. -/
structure Rested (A : Nat → Prop) (s : RowState) : Prop extends Anchored A s where
  started : ∀ f, s.start? = some f → A f

namespace Rested

variable {A : Nat → Prop} {s s' : RowState}

/-- Going on to the next line. -/
theorem following (h : Rested A s) : Rested A { s with row := s.row + 1 } :=
  ⟨⟨h.span, fun f hf => .inl (h.started f hf), h.depth, h.quote⟩, h.started⟩

/-- A line on which a logical line may start, or that goes on with one, can be read. -/
theorem step (h : Rested A s) (hA : A s.row ∨ s.start? ≠ none) (hopen : s.open? = none)
    (hstep : RowStep s s') : Rested A s' := by
  refine ⟨h.toAnchored.step hopen hstep, fun g hg => ?_⟩
  rcases (h.toAnchored.step hopen hstep).start g hg with hA' | hrow
  · exact hA'
  · rcases hA with hA | hstart
    · rw [hrow, hstep.row_eq]
      exact hA
    · obtain ⟨f, hf⟩ := Option.ne_none_iff_exists'.1 hstart
      rcases hstep.start?_eq hf with hnone | hsome
      · exact absurd hg (by simp [hnone])
      · rw [hsome, Option.some_inj] at hg
        exact hg ▸ h.started f hf

/-- A line that passes can be read, also where no logical line may start. -/
theorem scanRow (h : Rested A s) {t : Text} (hA : A s.row ∨ Passes t) (hopen : s.open? = none) :
    Rested A (scanRow (t.length + 1) s t) := by
  have hstep := rowStep_scanRow (t.length + 1) s t
  by_cases hstart : s.start? = none
  · rcases hA with hA | hpasses
    · exact h.step (.inl hA) hopen hstep
    · have hnone := hpasses s (h.depth hstart)
      exact ⟨h.toAnchored.step hopen hstep, fun f hf => absurd hf (by simp [hnone])⟩
  · exact h.step (.inr hstart) hopen hstep

/-- Within a logical line a line can be marked. -/
theorem mark_eq_self (h : Rested A s) (hopen : s.open? ≠ none) (row : Nat) : s.mark row = s := by
  obtain ⟨f, hf⟩ := Option.ne_none_iff_exists'.1 (h.quote hopen)
  rw [RowState.mark, hf]

/-- Within a logical line a string can end. -/
theorem endString (h : Rested A s) (needsBackslash : Bool) :
    Rested A { s with open? := none, needsBackslash } :=
  ⟨⟨h.span, h.start, h.depth, fun hne => absurd rfl hne⟩, h.started⟩

end Rested

/-- Reading a line on which a logical line may start, or one that passes. -/
theorem Rested.read {A : Nat → Prop} {s s' : RowState} {t : Text} (h : Rested A s)
    (hA : A s.row ∨ Passes t) (hread : RowRead s t s') :
    Rested A s' ∧ s'.row = s.row := by
  cases hread with
  | @endString o rest hopen =>
      have hopen : s.open? ≠ none := by simp [hopen]
      rw [h.mark_eq_self hopen]
      have hstep := rowStep_scanRow (t.length + 1)
        { s with open? := none, needsBackslash := false } rest
      exact ⟨(h.endString false).step (.inr (h.quote hopen)) rfl hstep, hstep.row_eq⟩
  | dropString hopen =>
      rw [h.mark_eq_self (by simp [hopen])]
      exact ⟨h.endString _, rfl⟩
  | inString => exact ⟨h, rfl⟩
  | blank => exact ⟨h, rfl⟩
  | fresh hopen indents =>
      have hindents : Rested A { s with indents } :=
        ⟨⟨h.span, h.start, h.depth, h.quote⟩, h.started⟩
      rw [scanRow_dropWhile]
      exact ⟨hindents.scanRow hA hopen, (rowStep_scanRow _ _ _).row_eq⟩
  | continuing hopen =>
      have hcont : Rested A { s with continued := false } :=
        ⟨⟨h.span, h.start, h.depth, h.quote⟩, h.started⟩
      exact ⟨hcont.scanRow hA hopen, (rowStep_scanRow _ _ _).row_eq⟩

/-- A line of gaps without a line break is the end, and changes nothing. -/
theorem readRow_ended {s s' : RowState} {t : Text} (h : readRow s t = .ended s') : s' = s := by
  rw [readRow] at h
  split at h
  · split at h
    · cases h
    · split at h <;> cases h
  · split at h
    · split at h
      split at h
      · exact (RowResult.ended.inj h).symm
      · split at h
        · cases h
        · split at h <;> cases h
    · cases h

/-- At the end the current logical line may end. -/
theorem endRows_eq_some {s s' : RowState} {last : Text} (h : endRows s last = some s') :
    s' = s.close (s.row - 1) ∨ s' = s := by
  rw [endRows] at h
  split at h
  · cases h
  · dsimp only at h
    split at h
    · split at h
      · exact .inl (Option.some.inj h).symm
      · exact .inr (Option.some.inj h).symm
    · exact .inr (Option.some.inj h).symm

/-- Reading lines, each of which is one on which a logical line may start or one that passes. -/
theorem span_readRows {A : Nat → Prop} {s s' : RowState} {last : Text} {rows : List Text}
    (h : Rested A s)
    (hA : ∀ k t, rows[k]? = some t → A (s.row + k) ∨ Passes t)
    (hread : readRows s last rows = some s') {f l : Nat} (hmem : (f, l) ∈ s'.spans) (hlt : f < l) :
    A f := by
  induction rows generalizing s last with
  | nil =>
      rw [readRows] at hread
      rcases endRows_eq_some hread with rfl | rfl
      · rcases List.mem_cons.1 hmem with heq | hmem
        · obtain ⟨rfl, rfl⟩ := Prod.mk.inj heq
          cases hstart : s.start? with
          | none => simp [hstart] at hlt
          | some g => exact h.started g hstart
        · exact h.span f l hmem hlt
      · exact h.span f l hmem hlt
  | cons t rows ih =>
      rw [readRows] at hread
      split at hread
      · next s₁ hrow =>
          obtain ⟨s₂, hread₂, rfl⟩ := rowRead_readRow hrow
          obtain ⟨h₂, hrow₂⟩ := h.read (hA 0 t rfl) hread₂
          refine ih h₂.following (fun k t' hk => ?_) hread
          rw [hrow₂, Nat.add_assoc, Nat.add_comm 1]
          exact hA (k + 1) t' hk
      · next s₁ hrow =>
          obtain rfl := readRow_ended hrow
          exact h.span f l (Option.some.inj hread ▸ hmem) hlt
      · cases hread

/-- All lines of a text but the last are read with a line break behind them, and the last one as it is
when there is anything on it. -/
theorem rowsOf_eq (t : Text) : ∃ ending : List Text,
    rowsOf t = (Text.lines t).dropLast.map (· ++ ['\n']) ++ ending ∧ ending.length ≤ 1 ∧
      ∀ l ∈ ending, l ∈ Text.lines t := by
  rw [rowsOf]
  split
  · exact ⟨[], (List.append_nil _).symm, Nat.zero_le _, fun l h => by cases h⟩
  · exact ⟨[], (List.append_nil _).symm, Nat.zero_le _, fun l h => by cases h⟩
  · next l _ hlast =>
      exact ⟨[l], rfl, Nat.le_refl _, fun l' h =>
        List.mem_singleton.1 h ▸ List.mem_of_getLast? hlast⟩

/-- The lines that are read, with the last one apart. -/
theorem rowsOf_of_lines {t last : Text} {ls : List Text} (h : Text.lines t = ls ++ [last]) :
    rowsOf t = ls.map (· ++ ['\n']) ++ if last.isEmpty then [] else [last] := by
  rw [rowsOf, h, List.getLast?_concat, List.dropLast_concat]
  cases last with
  | nil => exact (List.append_nil _).symm
  | cons c r => rfl

/-- A line of a text that is not the last is read with its line break. -/
theorem getElem?_rowsOf {t l : Text} {k : Nat} (hk : k + 1 < (Text.lines t).length)
    (hl : (Text.lines t)[k]? = some l) : (rowsOf t)[k]? = some (l ++ ['\n']) := by
  obtain ⟨ending, heq, -, -⟩ := rowsOf_eq t
  have hdrop : ((Text.lines t).dropLast.map (· ++ ['\n']))[k]? = some (l ++ ['\n']) := by
    rw [List.getElem?_map, List.getElem?_dropLast, if_pos (by omega), hl]
    rfl
  rw [heq, List.getElem?_append_left (List.getElem?_eq_some_iff.1 hdrop).1]
  exact hdrop

/-- The characters of the lines that are read are characters of the text, or line breaks. -/
theorem mem_rowsOf {t row : Text} (h : row ∈ rowsOf t) {c : Char} (hc : c ∈ row) :
    c ∈ t ∨ c = '\n' := by
  obtain ⟨ending, heq, -, hmem⟩ := rowsOf_eq t
  rw [heq, List.mem_append] at h
  rcases h with h | h
  · obtain ⟨l, hl, rfl⟩ := List.mem_map.1 h
    rcases List.mem_append.1 hc with hc | hc
    · exact .inl (Text.mem_of_mem_lines ((List.dropLast_sublist _).subset hl) hc)
    · exact .inr (List.mem_singleton.1 hc)
  · exact .inl (Text.mem_of_mem_lines (hmem row h) hc)

/-- All lines but the last one end with a line break when they are read. -/
theorem break_mem_rowsOf {t row : Text} {k : Nat} (hk : k + 1 < (rowsOf t).length)
    (hrow : (rowsOf t)[k]? = some row) : '\n' ∈ row := by
  obtain ⟨ending, heq, hlen, -⟩ := rowsOf_eq t
  rw [heq] at hk hrow
  rw [List.length_append] at hk
  rw [List.getElem?_append_left (by omega)] at hrow
  obtain ⟨l, -, rfl⟩ := List.mem_map.1 (List.mem_of_getElem? hrow)
  exact List.mem_append_right _ List.mem_cons_self

/-- A continuation line stands behind the line on which its logical line starts, which does not pass,
and the lines in between continue it as well. -/
theorem exists_start_not_passes {code : Text} {i : Nat} (h : i ∈ continuationLines code)
    (hi : i < (Text.lines code).length) :
    ∃ k l, k < i ∧ (Text.lines code)[k]? = some l ∧ ¬ Passes (l ++ ['\n']) ∧
      ∀ j, k < j → j ≤ i → j ∈ continuationLines code := by
  rw [continuationLines] at h
  split at h
  · next s hread =>
      let A (f : Nat) : Prop := ∃ k t, f = k + 1 ∧ (rowsOf code)[k]? = some t ∧ ¬ Passes t
      have hstart : Rested A RowState.start := by
        refine ⟨⟨fun f l hmem => ?_, fun f hf => ?_, fun _ => Int.le_refl 0, fun hne => ?_⟩,
          fun f hf => ?_⟩
        · cases hmem
        · cases hf
        · exact absurd rfl hne
        · cases hf
      have hrows : ∀ k t, (rowsOf code)[k]? = some t → A (RowState.start.row + k) ∨ Passes t := by
        intro k t hk
        by_cases hpasses : Passes t
        · exact .inr hpasses
        · exact .inl ⟨k, t, Nat.add_comm 1 k, hk, hpasses⟩
      obtain ⟨⟨f, last⟩, hmem, hrange⟩ := List.mem_flatMap.1 h
      obtain ⟨hfi, hilast⟩ := List.mem_range'_1.1 hrange
      obtain ⟨k, row, rfl, hrow, hpasses⟩ : A f :=
        span_readRows hstart hrows hread (List.mem_reverse.1 hmem) (by omega)
      have hk : k < (Text.lines code).length := by omega
      obtain ⟨l, hl⟩ : ∃ l, (Text.lines code)[k]? = some l := ⟨_, List.getElem?_eq_getElem hk⟩
      rw [getElem?_rowsOf (by omega) hl, Option.some_inj] at hrow
      refine ⟨k, l, by omega, hl, hrow ▸ hpasses, fun j hkj hji => ?_⟩
      rw [continuationLines, hread]
      exact List.mem_flatMap.2 ⟨_, hmem, List.mem_range'_1.2 ⟨hkj, by omega⟩⟩
  · cases h

/-- A continuation line stands behind the line on which its logical line starts, which is not blank,
and the lines in between continue it as well. -/
theorem exists_start_of_mem_continuationLines {code : Text} {i : Nat}
    (h : i ∈ continuationLines code) (hi : i < (Text.lines code).length) :
    ∃ k l, k < i ∧ (Text.lines code)[k]? = some l ∧ ¬ l.all Text.isBlank ∧
      ∀ j, k < j → j ≤ i → j ∈ continuationLines code := by
  obtain ⟨k, l, hk, hl, hpasses, hbetween⟩ := exists_start_not_passes h hi
  refine ⟨k, l, hk, hl, fun hblank => hpasses (passes_of_isBlank ?_ (by simp)), hbetween⟩
  simp [hblank, show Text.isBlank '\n' from rfl]

/-! ## Texts without continuation lines -/

/-- Each logical line so far took up one line, and nothing continues the line that is read. -/
structure Single (s : RowState) : Prop where
  depth : s.depth = 0
  quote : s.open? = none
  fresh : s.continued = false
  span : ∀ f l, (f, l) ∈ s.spans → f = l
  start : ∀ f, s.start? = some f → f = s.row

namespace Single

variable {s : RowState}

/-- The line that is read can be marked. -/
theorem mark (h : Single s) : Single (s.mark s.row) := by
  rw [RowState.mark_eq]
  refine ⟨h.depth, h.quote, h.fresh, h.span, fun f hf => ?_⟩
  cases hstart : s.start? with
  | none => simpa [hstart, eq_comm] using hf
  | some g => exact h.start f (by simpa [hstart] using hf)

/-- The logical line can end. -/
theorem close (h : Single s) : Single (s.close s.row) := by
  refine ⟨h.depth, h.quote, h.fresh, fun f l hmem => ?_, fun f hf => by simp [RowState.close] at hf⟩
  rcases List.mem_cons.1 hmem with heq | hmem
  · obtain ⟨rfl, rfl⟩ := Prod.mk.inj heq
    cases hstart : s.start? with
    | none => rfl
    | some g => exact h.start g hstart
  · exact h.span f l hmem

/-- Reading a plain line. -/
theorem scanRow (h : Single s) {t : Text} (hplain : t.all isPlain) (fuel : Nat) :
    Single (scanRow fuel s t) := by
  induction fuel generalizing s t with
  | zero => exact h
  | succ fuel ih =>
      cases hdrop : t.dropWhile isRowGap with
      | nil =>
          rw [Script.scanRow, hdrop]
          exact h
      | cons c r =>
          have hr : ∀ d ∈ c :: r, isPlain d := fun d hd =>
            List.all_eq_true.1 hplain d ((List.dropWhile_suffix isRowGap).subset (hdrop ▸ hd))
          rw [scanRow_plain hdrop (hr c List.mem_cons_self)]
          split
          · rw [if_neg (by simp [h.depth])]
            exact h.close
          · exact ih h.mark (List.all_eq_true.2 fun d hd => hr d (List.mem_cons_of_mem _ hd))

/-- Going on to the next line when the logical line has ended. -/
theorem following (h : Single s) (hstart : s.start? = none) :
    Single { s with row := s.row + 1 } :=
  ⟨h.depth, h.quote, h.fresh, h.span, fun f hf => absurd hf (by simp [hstart])⟩

/-- Reading a plain line between logical lines. With a line break the logical line on it ends. -/
theorem read {s' : RowState} {t : Text} (h : Single s) (hstart : s.start? = none)
    (hplain : t.all isPlain) (hread : RowRead s t s') :
    Single s' ∧ ('\n' ∈ t → s'.start? = none) := by
  cases hread with
  | endString hopen => exact absurd h.quote (by simp [hopen])
  | dropString hopen => exact absurd h.quote (by simp [hopen])
  | inString => exact ⟨h, fun _ => hstart⟩
  | blank => exact ⟨h, fun _ => hstart⟩
  | fresh hopen indents =>
      have hindents : Single { s with indents } := ⟨h.depth, h.quote, h.fresh, h.span, h.start⟩
      have hsuffix : t.dropWhile isRowGap <:+ t := List.dropWhile_suffix isRowGap
      have hplain' : (t.dropWhile isRowGap).all isPlain := List.all_eq_true.2 fun c hc =>
        List.all_eq_true.1 hplain c (hsuffix.subset hc)
      exact ⟨hindents.scanRow hplain' _, fun hbreak => scanRow_start?_of_plain hplain'
        (break_mem_dropWhile hbreak) (Int.le_of_eq h.depth) (Nat.lt_succ_of_le hsuffix.length_le)⟩
  | continuing hopen hgoes => exact absurd (hgoes h.depth) (by simp [h.fresh])

/-- Reading plain lines, all of which but the last one end with a line break. -/
theorem readRows {s' : RowState} {last : Text} {rows : List Text} (h : Single s)
    (hstart : s.start? = none) (hplain : ∀ t ∈ rows, t.all isPlain)
    (hbreak : ∀ k t, k + 1 < rows.length → rows[k]? = some t → '\n' ∈ t)
    (hread : readRows s last rows = some s') {f l : Nat} (hmem : (f, l) ∈ s'.spans) : f = l := by
  induction rows generalizing s last with
  | nil =>
      rw [Script.readRows] at hread
      rcases endRows_eq_some hread with rfl | rfl
      · rcases List.mem_cons.1 hmem with heq | hmem
        · obtain ⟨rfl, rfl⟩ := Prod.mk.inj heq
          simp [hstart]
        · exact h.span f l hmem
      · exact h.span f l hmem
  | cons t rows ih =>
      rw [Script.readRows] at hread
      split at hread
      · next s₁ hrow =>
          obtain ⟨s₂, hread₂, rfl⟩ := rowRead_readRow hrow
          obtain ⟨h₂, hnone⟩ := h.read hstart (hplain t List.mem_cons_self) hread₂
          cases rows with
          | nil =>
              rw [Script.readRows] at hread
              rcases endRows_eq_some hread with rfl | rfl
              · exact h₂.close.span f l hmem
              · exact h₂.span f l hmem
          | cons t' rows =>
              have hnone := hnone (hbreak 0 t (by simp) rfl)
              exact ih (h₂.following hnone) hnone (fun t h => hplain t (List.mem_cons_of_mem _ h))
                (fun k t hk ht => hbreak (k + 1) t (by simpa using hk) ht) hread
      · next s₁ hrow =>
          obtain rfl := readRow_ended hrow
          exact h.span f l (Option.some.inj hread ▸ hmem)
      · cases hread

end Single

/-- A plain text has no continuation lines. -/
theorem continuationLines_of_plain {code : Text} (h : code.all isPlain) :
    continuationLines code = [] := by
  rw [continuationLines]
  split
  · next s hread =>
      have hstart : Single RowState.start :=
        ⟨rfl, rfl, rfl, fun f l hmem => (by cases hmem), fun f hf => (by cases hf)⟩
      have hplain : ∀ t ∈ rowsOf code, t.all isPlain := by
        intro t ht
        refine List.all_eq_true.2 fun c hc => ?_
        rcases mem_rowsOf ht hc with hc | rfl
        · exact List.all_eq_true.1 h c hc
        · rfl
      refine List.flatMap_eq_nil_iff.2 fun ⟨f, l⟩ hmem => ?_
      obtain rfl := hstart.readRows rfl hplain (fun k t => break_mem_rowsOf) hread
        (List.mem_reverse.1 hmem)
      simp
  · rfl

end Stencil.Script
