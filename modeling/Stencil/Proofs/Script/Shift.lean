import Stencil.Proofs.Script.Continuation

/-!
# Scripts behind an empty line

An empty line in front of a script moves each of its lines by one, and with them the lines that continue a
logical line (`continuationLines_cons_break`). All of them are lines of the script
(`lt_of_mem_continuationLines`).
-/

namespace Stencil.Script

/-- A string that is open, one line further down. -/
def OpenString.below (o : OpenString) : OpenString :=
  { o with row := o.row + 1 }

/-- What is known between two lines, one line further down. -/
def RowState.below (s : RowState) : RowState :=
  { s with
    row := s.row + 1
    open? := s.open?.map OpenString.below
    start? := s.start?.map (· + 1)
    spans := s.spans.map fun x => (x.1 + 1, x.2 + 1) }

/-- What comes after a line, one line further down. -/
def RowResult.below : RowResult → RowResult
  | next s => next s.below
  | ended s => ended s.below
  | fault => fault

namespace RowState

/-- Marking a line, one line further down. -/
theorem mark_below (s : RowState) (row : Nat) : s.below.mark (row + 1) = (s.mark row).below := by
  rw [mark_eq, mark_eq, below, below]
  cases s.start? <;> rfl

/-- Ending a logical line, one line further down. -/
theorem close_below (s : RowState) (row : Nat) : s.below.close (row + 1) = (s.close row).below := by
  rw [close, close, below, below]
  cases s.start? <;> rfl

end RowState

/-- Lines are read in the same way one line further down. -/
theorem scanRow_below (fuel : Nat) (s : RowState) (t : Text) :
    scanRow fuel s.below t = (scanRow fuel s t).below := by
  induction fuel generalizing s t with
  | zero => rfl
  | succ fuel ih =>
      have hrow : s.below.row = s.row + 1 := rfl
      have hdepth : s.below.depth = s.depth := rfl
      have hih {s s' : RowState} (h : s' = s.below) (t : Text) :
          scanRow fuel s' t = (scanRow fuel s t).below := h ▸ ih s t
      rw [scanRow, scanRow]
      split
      · rfl
      · rfl
      · rfl
      · rw [hrow, RowState.close_below]
        show (if 0 < s.depth then _ else _) = _
        split <;> rfl
      · rw [hrow, RowState.close_below]
        show (if 0 < s.depth then _ else _) = _
        split <;> rfl
      · exact ih s _
      · rw [hrow, hdepth, RowState.mark_below]
        dsimp only
        split
        · split
          · split
            · exact ih _ _
            · rfl
          · split
            · exact ih _ _
            · rfl
            · exact ih _ _
        · exact hih (by rfl) _

/-- A line is read in the same way one line further down. -/
theorem readRow_below (s : RowState) (t : Text) : readRow s.below t = (readRow s t).below := by
  have hnext {s s' : RowState} (h : s' = s.below) :
      RowResult.next { s' with row := s'.row + 1 } = (RowResult.next { s with row := s.row + 1 }).below :=
    h ▸ rfl
  have hscan {s s' : RowState} (h : s' = s.below) (t : Text) (fuel : Nat) :
      scanRow fuel s' t = (scanRow fuel s t).below := h ▸ scanRow_below fuel s t
  rw [readRow, readRow]
  cases hopen : s.open? with
  | some o =>
      have hopen' : s.below.open? = some o.below := by rw [RowState.below, hopen]; rfl
      have hmark : s.below.mark o.below.row = (s.mark o.row).below := s.mark_below o.row
      have hbackslash : s.below.needsBackslash = s.needsBackslash := rfl
      rw [hopen']
      dsimp only
      rw [hmark, hbackslash]
      cases hend : stringEnd? o.quote o.triple t with
      | none =>
          have hend' : stringEnd? o.below.quote o.below.triple t = none := hend
          rw [hend']
          dsimp only
          split
          · have hdrop : { (s.mark o.row).below with open? := none } =
                RowState.below { s.mark o.row with open? := none } := rfl
            exact hnext hdrop
          · exact hnext (by rfl)
      | some rest =>
          have hend' : stringEnd? o.below.quote o.below.triple t = some rest := hend
          rw [hend']
          exact hnext (hscan (by rfl) _ _)
  | none =>
      have hopen' : s.below.open? = none := by rw [RowState.below, hopen]; rfl
      have hdepth : s.below.depth = s.depth := rfl
      have hcontinued : s.below.continued = s.continued := rfl
      have hindents : s.below.indents = s.indents := rfl
      rw [hopen']
      dsimp only
      rw [hdepth, hcontinued, hindents]
      split
      · split
        · rfl
        · split
          · exact hnext (by rfl)
          · split
            · exact hnext (hscan (by rfl) _ _)
            · rfl
      · exact hnext (hscan (by rfl) _ _)

/-- A script ends in the same way one line further down. -/
theorem endRows_below {s : RowState} (hrow : 0 < s.row) (last : Text) :
    endRows s.below last = (endRows s last).map RowState.below := by
  have hsome : s.below.open?.isSome = s.open?.isSome := by
    rw [RowState.below, Option.isSome_map]
  have hclose : s.below.close (s.below.row - 1) = (s.close (s.row - 1)).below := by
    rw [← RowState.close_below, Nat.sub_add_cancel hrow]
    rfl
  rw [endRows, endRows, hsome, hclose]
  show (if s.open?.isSome || s.depth ≠ 0 || s.continued then _ else _) = _
  split
  · rfl
  · dsimp only
    split
    · split <;> rfl
    · split <;> rfl

/-- The number of a line grows from line to line. -/
theorem row_readRow {s s' : RowState} {t : Text} (h : readRow s t = .next s') : s'.row = s.row + 1 := by
  obtain ⟨s₁, hread, rfl⟩ := rowRead_readRow h
  refine congrArg (· + 1) ?_
  cases hread with
  | endString hopen =>
      refine (rowStep_scanRow _ _ _).row_eq.trans ?_
      rw [RowState.mark_eq]
  | dropString hopen => rw [RowState.mark_eq]
  | inString => rfl
  | blank => rfl
  | fresh => exact (rowStep_scanRow _ _ _).row_eq
  | continuing => exact (rowStep_scanRow _ _ _).row_eq

/-- Lines are read in the same way one line further down. -/
theorem readRows_below {s : RowState} (hrow : 0 < s.row) (last : Text) (rows : List Text) :
    readRows s.below last rows = (readRows s last rows).map RowState.below := by
  induction rows generalizing s last with
  | nil => exact endRows_below hrow last
  | cons t rows ih =>
      rw [readRows, readRows, readRow_below]
      cases hread : readRow s t with
      | next s' => exact ih (by rw [row_readRow hread]; exact Nat.succ_pos _) t
      | ended s' => rfl
      | fault => rfl

/-- Behind an empty line the lines that continue a logical line are one further down. -/
theorem continuationLines_cons_break (code : Text) :
    continuationLines ('\n' :: code) = (continuationLines code).map (· + 1) := by
  have hrows : rowsOf ('\n' :: code) = ['\n'] :: rowsOf code := by
    obtain ⟨ls, last, hlines⟩ : ∃ ls last, Text.lines code = ls ++ [last] :=
      ⟨_, _, (List.dropLast_append_getLast (Text.lines_ne_nil code)).symm⟩
    have hlines' : Text.lines ('\n' :: code) = ([] :: ls) ++ [last] := by
      rw [Text.lines_break, hlines]
      rfl
    rw [rowsOf_of_lines hlines, rowsOf_of_lines hlines']
    rfl
  have hfirst : readRow RowState.start ['\n'] = .next RowState.start.below := rfl
  have hread := readRows_below (s := RowState.start) Nat.one_pos ['\n'] (rowsOf code)
  have hlast : readRows RowState.start ['\n'] (rowsOf code) = readRows RowState.start [] (rowsOf code) := by
    cases rowsOf code with
    | nil => rfl
    | cons t rows => rfl
  rw [continuationLines, continuationLines, hrows, readRows, hfirst]
  dsimp only
  rw [hread, hlast]
  cases readRows RowState.start [] (rowsOf code) with
  | none => rfl
  | some s =>
      rw [Option.map_some]
      dsimp only [RowState.below]
      rw [← List.map_reverse, List.flatMap_map, List.map_flatMap]
      refine List.flatMap_congr fun x _ => ?_
      have hadd : (fun i : Nat => i + 1) = (1 + ·) := funext fun i => Nat.add_comm i 1
      rw [Nat.add_sub_add_right, hadd, List.map_add_range', Nat.add_comm]

/-- The logical lines so far end ahead of a line. -/
def RowState.EndsBefore (s : RowState) (n : Nat) : Prop :=
  ∀ f l, (f, l) ∈ s.spans → l < n

/-- Reading a line can end a logical line on it. -/
theorem endsBefore_of_rowStep {s s' : RowState} {n : Nat} (h : RowStep s s') (hs : s.EndsBefore n)
    (hrow : s.row < n) : s'.EndsBefore n := by
  induction h with
  | stop | continued | quote => exact hs
  | close hdepth =>
      intro f l hmem
      rcases List.mem_cons.1 hmem with heq | hmem
      · exact (Prod.mk.inj heq).2 ▸ hrow
      · exact hs f l hmem
  | mark _ ih => 
      refine ih ?_ ?_ <;> rw [RowState.mark_eq]
      · exact hs
      · exact hrow
  | depth _ _ _ ih => exact ih hs hrow

/-- Behind a line that is read the logical lines so far end ahead of the next one. -/
theorem endsBefore_readRow {s s' : RowState} {t : Text} (h : readRow s t = .next s')
    (hs : s.EndsBefore s.row) : s'.EndsBefore s'.row := by
  rw [row_readRow h]
  obtain ⟨s₁, hread, rfl⟩ := rowRead_readRow h
  have hmore : s.EndsBefore (s.row + 1) := fun f l hmem => Nat.lt_succ_of_lt (hs f l hmem)
  suffices hends : s₁.EndsBefore (s.row + 1) from hends
  cases hread with
  | endString hopen =>
      refine endsBefore_of_rowStep (rowStep_scanRow _ _ _) ?_ ?_ <;> rw [RowState.mark_eq]
      · exact hmore
      · exact Nat.lt_succ_self _
  | dropString hopen =>
      rw [RowState.mark_eq]
      exact hmore
  | inString => exact hmore
  | blank => exact hmore
  | fresh => exact endsBefore_of_rowStep (rowStep_scanRow _ _ _) hmore (Nat.lt_succ_self _)
  | continuing => exact endsBefore_of_rowStep (rowStep_scanRow _ _ _) hmore (Nat.lt_succ_self _)

/-- Logical lines end on lines that are read. -/
theorem endsBefore_readRows {s s' : RowState} {last : Text} {rows : List Text} (hrow : 0 < s.row)
    (hs : s.EndsBefore s.row) (h : readRows s last rows = some s') :
    s'.EndsBefore (s.row + rows.length) := by
  induction rows generalizing s last with
  | nil =>
      rcases endRows_eq_some h with rfl | rfl
      · intro f l hmem
        rcases List.mem_cons.1 hmem with heq | hmem
        · have hl : l = s.row - 1 := (Prod.mk.inj heq).2
          omega
        · exact hs f l hmem
      · exact hs
  | cons t rows ih =>
      rw [readRows] at h
      cases hread : readRow s t with
      | next s₁ =>
          rw [hread] at h
          have hnext := row_readRow hread
          have hrest := ih (by omega) (endsBefore_readRow hread hs) h
          rwa [hnext, Nat.add_assoc, Nat.add_comm 1] at hrest
      | ended s₁ =>
          rw [hread] at h
          obtain rfl := Option.some.inj h
          obtain rfl := readRow_ended hread
          exact fun f l hmem => Nat.lt_add_right _ (hs f l hmem)
      | fault =>
          rw [hread] at h
          cases h

/-- The lines that continue a logical line are lines of the text that are read. -/
theorem lt_of_mem_continuationLines {code : Text} {i : Nat} (h : i ∈ continuationLines code) :
    i < (rowsOf code).length := by
  rw [continuationLines] at h
  split at h
  · next s hread =>
      obtain ⟨⟨f, l⟩, hmem, hrange⟩ := List.mem_flatMap.1 h
      have hstart : RowState.start.EndsBefore RowState.start.row := fun f l hmem => by cases hmem
      have hends := endsBefore_readRows Nat.one_pos hstart hread f l (List.mem_reverse.1 hmem)
      have hrow : RowState.start.row = 1 := rfl
      obtain ⟨hfi, hi⟩ := List.mem_range'_1.1 hrange
      omega
  · cases h

end Stencil.Script
