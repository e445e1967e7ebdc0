import Stencil.Proofs.Script.Standing

/-!
# The lines inside of something

A script is read line by line, while `standings` goes through it character by character. Both agree on
which lines continue a logical line: those that start inside a bracket, inside a string or behind a
backslash at a line end, within a logical line that has begun before and that ends
(`mem_continuationLines_iff`). A logical line that goes on to the end of the script does not end when the
last line looks like a remark, also where it belongs to a string. A script can be read when it ends
outside of everything and the columns of its lines fit.
-/

namespace Stencil.Script

variable {closed : Bool} {t more : Text} {x : List Standing × Standing} {s s' s₁ : RowState}
  {u : Standing}

/-! ## Whole lines -/

/-- What is known in front of a line agrees with where its first character stands. A line that is not
inside of anything does not go on with a logical line. -/
structure AtLine (s : RowState) (u : Standing) : Prop extends Agrees s u where
  starts : u.StartsLine
  outside : u.inside = false → s.start? = none
  started : ∀ f, s.start? = some f → f ≤ s.row

/-- Going on to the next line. -/
def RowState.nextRow (s : RowState) : RowState := { s with row := s.row + 1 }

/-- The standing in front of a line of code, whatever is in front of the line. -/
theorem AtLine.inCode (h : AtLine s u) (hcode : u.region = .code) :
    InCode { s with continued := false } { u with joined := false } := by
  have hstring := h.string
  rw [hcode] at hstring
  refine ⟨⟨h.marks, h.depth, rfl, h.begun, ?_⟩, hcode, rfl⟩
  dsimp only
  rw [hcode]
  exact hstring

/-- Where no logical line has been started, none ends. -/
theorem Reads.of_close (hstart : s.start? = none) (h : Reads true more x s (s.close s.row)) :
    Reads true more x s s := by
  have hclose : s.close s.row = { s with spans := (s.row, s.row) :: s.spans } := by
    rw [RowState.close, hstart]
    rfl
  obtain ⟨u, hleads, hagrees, ⟨hclosed, -⟩ | ⟨-, hstarts, hend⟩⟩ := h
  · cases hclosed
  · rw [hclose] at hagrees hend
    refine ⟨u, hleads, ⟨hagrees.marks, hagrees.depth, hagrees.joined, hagrees.begun, hagrees.string⟩,
      .inr ⟨rfl, hstarts, hend.imp (fun h => ⟨h.1, Keeps.refl s⟩) fun h => ⟨h.1, rfl, hstart, fun i => ?_⟩⟩⟩
    simp [RowState.Pending, hstart]

/-- A blank line between logical lines changes nothing. -/
theorem reads_blank (h : InCode s u) (hdepth : s.depth = 0) (hstart : s.start? = none) {c : Char}
    {r : Text} (hline : LineRest closed (c :: r) more) (hc : c = '\n' ∨ c = '\r')
    (hx : standings u (c :: (r ++ more)) = some x) : Reads closed more x s s := by
  have hbreak {y : List Standing × Standing} (hy : standings u ('\n' :: more) = some y) :
      Reads true more y s s := by
    have := reads_break h hy
    rw [if_neg (by omega)] at this
    exact this.of_close hstart
  rcases hc with rfl | rfl
  · obtain ⟨rfl, rfl⟩ := hline.break_cons
    exact hbreak hx
  · by_cases hhead : (r ++ more).head? = some '\n'
    · have hrest := hline.tail (by decide)
      obtain ⟨r', rfl⟩ := List.head?_eq_some_iff.1 (hrest.head?_append.1 hhead)
      obtain ⟨rfl, rfl⟩ := hrest.break_cons
      exact hbreak ((standings_return h _).symm.trans hx)
    · have hnone : u.next '\r' (r ++ more) = none := by
        rw [Standing.next_code h.marks h.code h.fresh, Standing.nextCode, if_neg (by decide), if_pos rfl,
          if_neg hhead]
      rw [Standing.standings_none hnone] at hx
      cases hx

/-- A remark on a line of its own changes nothing. -/
theorem reads_remark (h : InCode s u) (hdepth : s.depth = 0) (hstart : s.start? = none) {r : Text}
    (hline : LineRest closed ('#' :: r) more) (hx : standings u ('#' :: (r ++ more)) = some x) :
    Reads closed more x s s := by
  obtain ⟨d, hdrop⟩ : ∃ d, r.dropWhile (fun c => c ≠ '\n' && c ≠ '\r') = d := ⟨_, rfl⟩
  obtain ⟨hrest, hx⟩ := standings_dropRemark h hline hdrop hx
  cases d with
  | nil =>
      obtain ⟨rfl, rfl⟩ := hrest.of_nil
      refine ⟨_, Standing.leads_nil hx, ?_, .inl ⟨rfl, Keeps.refl s⟩⟩
      exact ⟨h.marks, h.depth, h.joined, h.begun, h.open?⟩
  | cons c r' =>
      have hc : c = '\n' ∨ c = '\r' := by
        have hnot := List.head?_dropWhile_not (fun c => c ≠ '\n' && c ≠ '\r') r
        rw [hdrop] at hnot
        simpa [or_iff_not_imp_left] using hnot
      rw [List.cons_append, Standing.standings_remark_break h.marks h.code h.fresh hc] at hx
      exact reads_blank h hdepth hstart hrest hc hx

/-- What a line that is read does: what its characters do, unless it consists of gaps at the end of the
script, or its column does not fit. -/
inductive RowReads (closed : Bool) (more : Text) (x : List Standing × Standing) (s : RowState) :
    RowResult → Prop where
  | next {s₁ : RowState} (h : Reads closed more x s s₁) : RowReads closed more x s (.next s₁.nextRow)
  | ended {u : Standing} (hclosed : closed = false) (hx : x = ([], u)) (houtside : u.inside = false)
      (hstart : s.start? = none) : RowReads closed more x s (.ended s)
  | fault : RowReads closed more x s .fault

/-- A line that starts in a string goes on with it or ends it. -/
theorem AtLine.reads_string (h : AtLine s u) {q : Char} {triple : Bool}
    (hstring : u.region = .string q triple) (hline : LineRest closed t more)
    (hx : standings u (t ++ more) = some x) : RowReads closed more x s (readRow s t) := by
  have hagrees := h.string
  rw [hstring] at hagrees
  obtain ⟨hq, hfresh, hstart, row, hopen, hneeds⟩ := hagrees
  obtain ⟨f, hf⟩ := Option.ne_none_iff_exists'.1 hstart
  have hmark : s.mark row = s := by rw [RowState.mark, hf]
  have hu : { u with region := .string q triple } = u := by rw [← hstring]
  have hinside : u.inside = true := by simp [Standing.inside, hstring]
  have honward (hleads : Standing.Leads more x u closed) : RowReads closed more x s (.next s.nextRow) :=
    .next (.of_inside hleads h.toAgrees (fun _ => h.starts) (fun _ => hinside) (Keeps.refl s))
  rw [readRow, hopen]
  dsimp only
  rw [hmark]
  cases hend : stringEnd? q triple t with
  | some rest =>
      obtain ⟨hrest, hle, hcode⟩ := Standing.standings_stringEnd hq hend h.marks hline
      rw [hu] at hcode
      rw [hcode] at hx
      have hin : InCode { s with open? := none, needsBackslash := false }
          { u with region := .code, joined := false } :=
        ⟨⟨h.marks, h.depth, h.joined.trans hfresh, h.begun, rfl, rfl⟩, rfl, rfl⟩
      have hkeeps : Keeps s { s with open? := none, needsBackslash := false } := ⟨rfl, rfl, .inl rfl⟩
      exact .next (hkeeps.reads (reads_scanRow hin hrest (Nat.lt_succ_of_le hle) hx))
  | none =>
      rw [← hu] at hx
      cases triple with
      | true =>
          have hcond : (s.needsBackslash && !Text.endsWith t ['\\', '\n'] &&
              !Text.endsWith t ['\\', '\r', '\n']) = false := by rw [hneeds]; rfl
          rw [hcond]
          obtain ⟨u', hleads, rfl | ⟨rfl, rfl⟩⟩ := Standing.leads_string hq hend h.marks hfresh hline hx
          · rw [hu] at hleads
            exact honward hleads
          · refine .next ⟨_, hleads, ?_, .inl ⟨rfl, Keeps.refl s⟩⟩
            exact ⟨h.marks, h.depth, h.joined, h.begun, hq, hfresh, hstart, row, hopen, hneeds⟩
      | false =>
          obtain ⟨found, hfound⟩ : ∃ found, lineString q t = found := ⟨_, rfl⟩
          have hsingle := Standing.singleString_lineString hq h.marks hfresh hline
          rw [hfound] at hsingle
          cases hsingle with
          | ends hend' => exact absurd (hend.symm.trans hend') (by simp)
          | continues _ hending hleads =>
              have hcond : (s.needsBackslash && !Text.endsWith t ['\\', '\n'] &&
                  !Text.endsWith t ['\\', '\r', '\n']) = false := by
                rw [hneeds, Bool.not_false, Bool.true_and, ← Bool.not_or, hending, Bool.not_true]
              rw [hcond]
              exact honward (hu ▸ hleads x hx)
          | broken _ hstops =>
              rw [hstops] at hx
              cases hx

/-- A line that starts outside of everything is read from its first character behind the gaps. -/
theorem readRow_outside (hopen : s.open? = none) (hdepth : s.depth = 0) (hcontinued : s.continued = false)
    (t : Text) :
    readRow s t =
      match rowColumn 0 t with
      | (_, []) => .ended s
      | (column, c :: r) =>
        if c = '#' || c = '\r' || c = '\n' then .next s.nextRow
        else
          match enclosing? column s.indents with
          | some indents => .next (scanRow (t.length + 1) { s with indents } (c :: r)).nextRow
          | none => .fault := by
  have hcond : (decide (s.depth = 0) && !s.continued) = true := by
    rw [hcontinued, decide_eq_true hdepth]
    rfl
  rw [readRow]
  split
  · next hsome => exact absurd (hopen.symm.trans hsome) (by simp)
  · rw [if_pos hcond]
    obtain ⟨column, d, hcolumn⟩ : ∃ column d, rowColumn 0 t = (column, d) := ⟨_, _, rfl⟩
    rw [hcolumn]
    cases d <;> rfl

/-- A line that starts in code, outside of everything, starts or ends the script's next logical line. -/
theorem InCode.reads_fresh (h : InCode s u) (hdepth : s.depth = 0) (hstart : s.start? = none)
    (hline : LineRest closed t more) (hx : standings u (t ++ more) = some x) :
    RowReads closed more x s (readRow s t) := by
  obtain ⟨column, d, hcolumn⟩ : ∃ column d, rowColumn 0 t = (column, d) := ⟨_, _, rfl⟩
  have hdrop : t.dropWhile isRowGap = d := by rw [← rowColumn_rest 0 t, hcolumn]
  obtain ⟨hrest, hx, hle, -⟩ := h.dropGaps hline hx hdrop
  rw [readRow_outside h.open?.1 hdepth (h.joined.trans h.fresh), hcolumn]
  cases d with
  | nil =>
      obtain ⟨rfl, rfl⟩ := hrest.of_nil
      refine .ended rfl (Standing.standings_nil hx) ?_ hstart
      have hzero : u.depth = 0 := by
        have := h.depth
        omega
      simp [Standing.inside, h.code, hzero, h.fresh]
  | cons c r =>
      dsimp only
      split
      · next hc =>
        rw [Bool.or_eq_true, Bool.or_eq_true, decide_eq_true_eq, decide_eq_true_eq,
          decide_eq_true_eq] at hc
        rcases hc with (rfl | hc) | hc
        · exact .next (reads_remark h hdepth hstart hrest hx)
        · exact .next (reads_blank h hdepth hstart hrest (.inr hc) hx)
        · exact .next (reads_blank h hdepth hstart hrest (.inl hc) hx)
      · cases enclosing? column s.indents with
        | none => exact .fault
        | some indents =>
            have hin : InCode { s with indents } u :=
              ⟨⟨h.marks, h.depth, h.joined, h.begun, h.string⟩, h.code, h.fresh⟩
            have hkeeps : Keeps s { s with indents } := ⟨rfl, rfl, .inl rfl⟩
            exact .next (hkeeps.reads (reads_scanRow hin hrest (Nat.lt_succ_of_le hle) hx))

/-- Reading a line does what its characters do. -/
theorem AtLine.reads_readRow (h : AtLine s u) (ht : t ≠ []) (hline : LineRest closed t more)
    (hx : standings u (t ++ more) = some x) : RowReads closed more x s (readRow s t) := by
  obtain hcode | ⟨q, triple, hstring⟩ := h.starts
  · have hin := h.inCode hcode
    obtain ⟨hopen, -⟩ := hin.open?
    by_cases hfresh : s.depth = 0 ∧ s.continued = false
    · obtain ⟨hdepth, hcontinued⟩ := hfresh
      have hjoined : u.joined = false := h.joined.symm.trans hcontinued
      have hzero : u.depth = 0 := by
        have := h.depth
        omega
      have hstart := h.outside (by simp [Standing.inside, hcode, hzero, hjoined])
      exact InCode.reads_fresh ⟨h.toAgrees, hcode, hjoined⟩ hdepth hstart hline hx
    · have hcond : (decide (s.depth = 0) && !s.continued) = false := by
        rw [Bool.eq_false_iff]
        intro htrue
        rw [Bool.and_eq_true, decide_eq_true_eq, Bool.not_eq_true'] at htrue
        exact hfresh htrue
      obtain ⟨c, r, rfl⟩ := List.exists_cons_of_ne_nil ht
      rw [readRow]
      split
      · next hsome => exact absurd (hopen.symm.trans hsome) (by simp)
      rw [hcond]
      have hkeeps : Keeps s { s with continued := false } := ⟨rfl, rfl, .inl rfl⟩
      refine .next (hkeeps.reads (reads_scanRow hin hline (Nat.lt_succ_self _) ?_))
      rwa [List.cons_append, Standing.standings_unjoined]
  · exact h.reads_string hstring hline hx

/-! ## The end of a script -/

/-- The marks of the strings in a script are quotes. -/
def Standing.Quoted (u : Standing) : Prop :=
  ∀ q triple, u.region = .string q triple ∨ u.region = .escape q triple → isRowQuote q

/-- A string that starts in code starts with a quote. -/
theorem Standing.quoted_nextCode {u' : Standing} {c : Char} {rest : Text} (hcode : u.region = .code)
    (hnext : u.nextCode c rest = some u') : u'.Quoted := by
  intro q triple hregion
  by_cases hquote : isRowQuote c
  · rw [Standing.nextCode] at hnext
    grind [Standing.endLine]
  · rw [Standing.nextCode, if_neg hquote] at hnext
    repeat' split at hnext
    all_goals
      cases hnext
      try simp [Standing.endLine, hcode] at hregion

/-- Behind every character the mark of a string is a quote. -/
theorem Standing.Quoted.next {u' : Standing} {c : Char} {rest : Text} (h : u.Quoted)
    (hnext : u.next c rest = some u') : u'.Quoted := by
  rw [Standing.next] at hnext
  split at hnext
  · split at hnext
    · exact Option.some.inj hnext ▸ h
    · cases hnext
  · split at hnext
    · next hcode => exact Standing.quoted_nextCode hcode hnext
    all_goals
      intro q triple hregion
      have hq := h q triple
      grind [Standing.endLine]

/-- A carriage return at the end of a script stands inside of something. -/
theorem Standing.inside_of_next_return {u' : Standing} (hquoted : u.Quoted)
    (hnext : u.next '\r' [] = some u') : u'.inside = true := by
  have hnot : isRowQuote '\r' = false := by decide
  rw [Standing.next] at hnext
  split at hnext
  · rw [hnot] at hnext
    cases hnext
  · split at hnext
    · simp [Standing.nextCode] at hnext
    · simp at hnext
    · next hjoin =>
      obtain rfl := Option.some.inj hnext
      simp [Standing.inside, show u.region = .join from hjoin]
    · next mark triple hstring =>
      have hmark : '\r' ≠ mark := by
        rintro rfl
        exact absurd (hquoted _ triple (.inl hstring)) (by simp [hnot])
      obtain rfl := Option.some.inj (by simpa [hmark] using hnext)
      simp [Standing.inside, show u.region = .string mark triple from hstring]
    · obtain rfl := Option.some.inj (by simpa using hnext)
      simp [Standing.inside]

/-- A script that does not end inside of anything does not end with a carriage return. -/
theorem getLast?_ne_return (hquoted : u.Quoted) (ht : standings u t = some x)
    (houtside : x.2.inside = false) : t.getLast? ≠ some '\r' := by
  induction t generalizing u x with
  | nil => simp
  | cons c t ih =>
      rw [standings] at ht
      obtain ⟨u', hnext, ht⟩ := Option.bind_eq_some_iff.1 ht
      obtain ⟨y, hy, ht⟩ := Option.bind_eq_some_iff.1 ht
      obtain rfl := Option.some.inj ht
      cases t with
      | cons d t =>
          rw [List.getLast?_cons_cons]
          exact ih (hquoted.next hnext) hy houtside
      | nil =>
          intro hc
          obtain rfl := Option.some.inj hc
          have hinside := Standing.inside_of_next_return hquoted hnext
          rw [standings] at hy
          split at hy
          · obtain rfl := Option.some.inj hy
            exact Bool.noConfusion (hinside.symm.trans houtside)
          · cases hy

/-! ## Logical lines that end -/

/-- From a line on, the logical line ends: a further line starts outside of everything, or the last line
of the script does not look like a remark. -/
def LineEnds (last : Text) (starts : List Standing) : Prop :=
  (∃ u ∈ starts, u.inside = false) ∨ (Text.trim last).head? ≠ some '#'

/-- A further line starts inside of something, within a logical line that has begun before and that
ends. -/
def StartsInside (last : Text) (starts : List Standing) (k : Nat) : Prop :=
  ∃ u, starts[k]? = some u ∧ u.inside = true ∧ u.begun = true ∧ LineEnds last (starts.drop (k + 1))

/-- Where a line starts inside of something, a logical line ends behind it or not at all. -/
theorem lineEnds_cons_of_inside {last : Text} {starts : List Standing} (hinside : u.inside = true) :
    LineEnds last (u :: starts) ↔ LineEnds last starts := by
  simp [LineEnds, hinside]

/-- The first further line and those behind it. -/
theorem exists_startsInside_cons {last : Text} {starts : List Standing} (row i : Nat) :
    (∃ k, i = row + k ∧ StartsInside last (u :: starts) k) ↔
      (i = row ∧ u.inside = true ∧ u.begun = true ∧ LineEnds last starts) ∨
        ∃ k, i = row + 1 + k ∧ StartsInside last starts k := by
  constructor
  · rintro ⟨k, rfl, hk⟩
    cases k with
    | zero =>
        obtain ⟨u', hu', hinside, hbegun, hends⟩ := hk
        obtain rfl := Option.some.inj hu'
        exact .inl ⟨rfl, hinside, hbegun, hends⟩
    | succ k => exact .inr ⟨k, by omega, hk⟩
  · rintro (⟨rfl, hinside, hbegun, hends⟩ | ⟨k, rfl, hk⟩)
    · exact ⟨0, rfl, u, rfl, hinside, hbegun, hends⟩
    · exact ⟨k + 1, by omega, hk⟩

/-! ## What the lines come to -/

/-- What the logical lines of a script come to from a line on: nothing is left open, and besides those
found before, the one that has been started is found if it ends, and those whose lines start inside of
something. -/
structure Accounts (s : RowState) (last : Text) (x : List Standing × Standing) (r : RowState) : Prop where
  outside : x.2.inside = false
  continues : ∀ i, ContinuesOne r.spans i ↔ ContinuesOne s.spans i ∨ (LineEnds last x.1 ∧ s.Pending i) ∨
    ∃ k, i = s.row + k ∧ StartsInside last x.1 k

/-- Nothing follows a logical line that has not been started. -/
theorem accounts_nil {last : Text} (houtside : u.inside = false) (hstart : s.start? = none) :
    Accounts s last ([], u) s := by
  refine ⟨houtside, fun i => ?_⟩
  simp [RowState.Pending, hstart, StartsInside]

/-- What is open behind a line tells whether the next one starts inside of something. -/
theorem Agrees.inside_eq (h : Agrees s u) :
    (s.open?.isSome || s.depth ≠ 0 || s.continued) = u.inside := by
  have hdepth : decide (s.depth ≠ 0) = decide (0 < u.depth) := by
    rw [h.depth, decide_eq_decide]
    omega
  have hstring := h.string
  rw [Standing.inside, hdepth, h.joined]
  congr 2
  split at hstring
  · next hcode =>
    rw [hstring.1, hcode]
    rfl
  · next hremark =>
    rw [hstring.1, hremark]
    rfl
  · next hregion =>
    obtain ⟨-, -, -, row, hopen, -⟩ := hstring
    rw [hopen, hregion]
    rfl
  · next hregion =>
    obtain ⟨-, -, -, row, hopen, -⟩ := hstring
    rw [hopen, hregion]
    rfl
  · exact hstring.elim

/-- Inside of something no script ends. -/
theorem Agrees.endRows_inside (h : Agrees s u) (hinside : u.inside = true) (last : Text) :
    endRows s last = none := by
  rw [endRows, if_pos (h.inside_eq.trans hinside)]

/-- Behind a line break the script ends with what has been found. -/
theorem Agrees.endRows_break (h : Agrees s u) (houtside : u.inside = false) {last : Text}
    (hlast : ∀ c ∈ last.getLast?, c = '\n') : endRows s last = some s := by
  rw [endRows, if_neg (Bool.eq_false_iff.1 (h.inside_eq.trans houtside))]
  split
  · next c hc => simp [hlast c hc]
  · rfl

/-- A last line without a line break ends its logical line, unless it looks like a remark. -/
theorem Agrees.endRows_bare (h : Agrees s u) (houtside : u.inside = false) {last : Text}
    (hne : last ≠ []) (hbreak : '\n' ∉ last) (hreturn : last.getLast? ≠ some '\r') :
    endRows s last =
      some (if (Text.trim last).head? ≠ some '#' then s.close (s.row - 1) else s) := by
  obtain ⟨c, hc⟩ := Option.ne_none_iff_exists'.1 (mt List.getLast?_eq_none_iff.1 hne)
  have hcbreak : c ≠ '\n' := fun heq => hbreak (heq ▸ List.mem_of_getLast? hc)
  have hcreturn : c ≠ '\r' := fun heq => hreturn (heq ▸ hc)
  rw [endRows, if_neg (Bool.eq_false_iff.1 (h.inside_eq.trans houtside)), hc]
  simp only [hcbreak, hcreturn, ne_eq, not_false_eq_true, decide_true, Bool.true_and,
    decide_eq_true_eq]
  split <;> rfl

/-- What is known while lines are read includes that strings stand between quotes. -/
theorem Agrees.quoted (h : Agrees s u) : u.Quoted := by
  intro q triple hregion
  have hstring := h.string
  rcases hregion with hregion | hregion <;>
    · rw [hregion] at hstring
      exact hstring.1

/-- Going on with a logical line, or starting it, its first line is not behind the line that is read. -/
theorem Keeps.started (hkeeps : Keeps s s₁) (h : ∀ f, s.start? = some f → f ≤ s.row) :
    ∀ f, s₁.nextRow.start? = some f → f ≤ s₁.nextRow.row := by
  intro f hf
  have hrow : s₁.nextRow.row = s.row + 1 := congrArg (· + 1) hkeeps.row
  rw [hrow]
  rcases hkeeps.start with hsame | ⟨-, hsome⟩
  · exact (h f (hsame.symm.trans hf)).trans (Nat.le_succ _)
  · obtain rfl := Option.some.inj (hsome.symm.trans hf)
    exact Nat.le_succ _

/-- Behind a last line without a line break there is the end of the script. -/
theorem AtLine.last_line (h : AtLine s u) {last : Text} (hne : last ≠ []) (hbreak : '\n' ∉ last)
    (hx : standings u last = some x) :
    readRow s last = .fault ∨
      (readRow s last = .ended s ∧ s.start? = none ∧ ∃ u', x = ([], u') ∧ u'.inside = false) ∨
      ∃ s₁ u', readRow s last = .next s₁.nextRow ∧ x = ([], u') ∧ Agrees s₁.nextRow u' ∧ Keeps s s₁ := by
  have hreads := h.reads_readRow hne (LineRest.of_last hbreak) (by rwa [List.append_nil])
  generalize readRow s last = result at hreads ⊢
  cases hreads with
  | fault => exact .inl rfl
  | ended _ hx houtside hstart => exact .inr (.inl ⟨rfl, hstart, _, hx, houtside⟩)
  | @next s₁ hreads =>
      obtain ⟨u', hleads, hagrees, ⟨-, hkeeps⟩ | ⟨hfalse, -⟩⟩ := hreads
      · cases hleads with
        | ends hx =>
            have hend : Agrees s₁.nextRow u' :=
              ⟨hagrees.marks, hagrees.depth, hagrees.joined, hagrees.begun, hagrees.string⟩
            exact .inr (.inr ⟨s₁, u', rfl, hx, hend, hkeeps⟩)
      · cases hfalse

/-- A last line without a line break is read to the end of its logical line. -/
theorem AtLine.accounts_last (h : AtLine s u) {last before : Text} {r : RowState} (hne : last ≠ [])
    (hbreak : '\n' ∉ last) (hx : standings u last = some x) (hr : readRows s before [last] = some r) :
    Accounts s last x r := by
  rw [readRows] at hr
  obtain hread | ⟨hread, hstart, u', rfl, houtside⟩ | ⟨s₁, u', hread, rfl, hend, hkeeps⟩ :=
    h.last_line hne hbreak hx
  · rw [hread] at hr
    cases hr
  · rw [hread] at hr
    obtain rfl := Option.some.inj hr
    exact accounts_nil houtside hstart
  · rw [hread] at hr
    dsimp only at hr
    cases hinside : u'.inside with
    | true =>
        rw [readRows, hend.endRows_inside hinside] at hr
        cases hr
    | false =>
        have hreturn := getLast?_ne_return h.quoted hx hinside
        rw [readRows, hend.endRows_bare hinside hne hbreak hreturn] at hr
        obtain rfl := Option.some.inj hr
        refine ⟨hinside, fun i => ?_⟩
        have hclose := (hkeeps.closes (closes_close s₁)).spans i
        by_cases hremark : (Text.trim last).head? = some '#'
        · simp [LineEnds, StartsInside, hremark, RowState.nextRow, hkeeps.spans]
        · have hspans : (s₁.nextRow.close (s₁.nextRow.row - 1)).spans = (s₁.close s₁.row).spans := rfl
          rw [if_pos hremark, hspans, hclose]
          simp [LineEnds, StartsInside, hremark]

/-- The line that has been started, and the one that is read, are continued by what starts inside of
something behind the line. -/
theorem Accounts.of_keeps {last : Text} {y : List Standing × Standing} {r : RowState} {u' : Standing}
    (hrest : Accounts s₁.nextRow last y r) (h : AtLine s u) (hkeeps : Keeps s s₁)
    (hbegun : s₁.start?.isSome = u'.begun) (hinside : u'.inside = true) :
    Accounts s last (u' :: y.1, y.2) r := by
  refine ⟨hrest.outside, fun i => ?_⟩
  have hpending : s₁.nextRow.Pending i ↔ s.Pending i ∨ (i = s.row ∧ u'.begun = true) := by
    rw [← hbegun]
    simp only [RowState.Pending, RowState.nextRow, hkeeps.row]
    rcases hkeeps.start with hsame | ⟨hnone, hsome⟩
    · rw [hsame]
      cases hstart : s.start? with
      | none => simp
      | some f =>
          have hle := h.started f hstart
          simp only [Option.some.injEq, exists_eq_left', Option.isSome_some, and_true]
          omega
    · rw [hsome, hnone]
      simp only [Option.some.injEq, exists_eq_left', Option.isSome_some, and_true, reduceCtorEq,
        false_and, exists_false, false_or]
      omega
  rw [hrest.continues, lineEnds_cons_of_inside hinside, exists_startsInside_cons, hpending]
  simp only [RowState.nextRow, hkeeps.row, hkeeps.spans, hinside, true_and]
  tauto

/-- A logical line that ends is found, and what is behind it starts anew. -/
theorem Accounts.of_closes {last : Text} {y : List Standing × Standing} {r : RowState} {u' : Standing}
    (hrest : Accounts s₁.nextRow last y r) (hcloses : Closes s s₁) (houtside : u'.inside = false) :
    Accounts s last (u' :: y.1, y.2) r := by
  refine ⟨hrest.outside, fun i => ?_⟩
  have hpending : ¬ s₁.nextRow.Pending i := by
    rintro ⟨f, hf, -⟩
    exact absurd (hcloses.start.symm.trans hf) (by simp)
  have hends : LineEnds last (u' :: y.1) := .inl ⟨u', List.mem_cons_self, houtside⟩
  have hrow : s₁.nextRow.row = s.row + 1 := congrArg (· + 1) hcloses.row
  have hspans : ContinuesOne s₁.nextRow.spans i ↔ ContinuesOne s.spans i ∨ s.Pending i := hcloses.spans i
  rw [hrest.continues, exists_startsInside_cons, hrow, hspans]
  simp only [hpending, hends, houtside, Bool.false_eq_true, false_and, and_false, false_or, true_and,
    or_assoc]

/-- Behind a line with its line break the next one follows, unless the column did not fit. -/
theorem AtLine.next_line (h : AtLine s u) {l : Text} (hl : '\n' ∉ l)
    (hx : standings u (l ++ ['\n'] ++ more) = some x) :
    readRow s (l ++ ['\n']) = .fault ∨ ∃ s₁ u' y, readRow s (l ++ ['\n']) = .next s₁.nextRow ∧
      standings u' more = some y ∧ x = (u' :: y.1, y.2) ∧ AtLine s₁.nextRow u' ∧
        (u'.inside = true ∧ Keeps s s₁ ∨ u'.inside = false ∧ Closes s s₁) := by
  have hreads := h.reads_readRow (by simp) (LineRest.of_break hl more) hx
  generalize readRow s (l ++ ['\n']) = result at hreads ⊢
  cases hreads with
  | fault => exact .inl rfl
  | ended hfalse => cases hfalse
  | @next s₁ hreads =>
      obtain ⟨u', hleads, hagrees, ⟨hfalse, -⟩ | ⟨-, hstarts, hend⟩⟩ := hreads
      · cases hfalse
      · cases hleads with
        | onward y hmore hx =>
            have hnext : Agrees s₁.nextRow u' :=
              ⟨hagrees.marks, hagrees.depth, hagrees.joined, hagrees.begun, hagrees.string⟩
            refine .inr ⟨s₁, u', y, rfl, hmore, hx, ⟨hnext, hstarts, fun houtside => ?_, ?_⟩, hend⟩
            · rcases hend with ⟨hinside, -⟩ | ⟨-, hcloses⟩
              · exact Bool.noConfusion (houtside.symm.trans hinside)
              · exact hcloses.start
            · rcases hend with ⟨-, hkeeps⟩ | ⟨-, hcloses⟩
              · exact hkeeps.started h.started
              · intro f hf
                exact absurd (hcloses.start.symm.trans hf) (by simp)

/-- Reading the lines of a script finds the logical lines that its characters tell. -/
theorem AtLine.accounts_readRows (h : AtLine s u) {ls : List Text} {last before : Text} {r : RowState}
    (hls : ∀ l ∈ ls, '\n' ∉ l) (hlast : '\n' ∉ last) (hbefore : ∀ c ∈ before.getLast?, c = '\n')
    (hx : standings u (ls.flatMap (· ++ ['\n']) ++ last) = some x)
    (hr : readRows s before (ls.map (· ++ ['\n']) ++ if last.isEmpty then [] else [last]) = some r) :
    Accounts s last x r := by
  induction ls generalizing s u x before with
  | nil =>
      cases last with
      | cons c last => exact h.accounts_last (List.cons_ne_nil c last) hlast hx hr
      | nil =>
          obtain rfl := Standing.standings_nil hx
          change endRows s before = some r at hr
          cases hinside : u.inside with
          | true =>
              rw [h.endRows_inside hinside] at hr
              cases hr
          | false =>
              rw [h.endRows_break hinside hbefore] at hr
              obtain rfl := Option.some.inj hr
              exact accounts_nil hinside (h.outside hinside)
  | cons l ls ih =>
      have hls' (l : Text) (hl : l ∈ ls) : '\n' ∉ l := hls l (List.mem_cons_of_mem _ hl)
      have hbreak : ∀ c ∈ (l ++ ['\n']).getLast?, c = '\n' := by simp [eq_comm]
      rw [List.flatMap_cons, List.append_assoc] at hx
      rw [List.map_cons, List.cons_append, readRows] at hr
      obtain hread | ⟨s₁, u', y, hread, hmore, rfl, hline, hend⟩ := h.next_line (hls l List.mem_cons_self) hx
      · rw [hread] at hr
        cases hr
      · rw [hread] at hr
        have hrest := ih hline hls' hbreak hmore hr
        rcases hend with ⟨hinside, hkeeps⟩ | ⟨houtside, hcloses⟩
        · exact hrest.of_keeps h hkeeps hline.begun hinside
        · exact hrest.of_closes hcloses houtside

/-! ## Columns -/

/-- The enclosing indentations behind a line that starts outside of everything, if its column fits. A
blank line and a remark have no column of their own. -/
def indentsBehind (indents : List Nat) (t : Text) : Option (List Nat) :=
  match rowColumn 0 t with
  | (_, []) => some indents
  | (column, c :: _) =>
    if c = '#' || c = '\r' || c = '\n' then some indents else enclosing? column indents

/-- Whether the columns of the lines that start outside of everything fit. -/
def columnsFit (indents : List Nat) : List Standing → List Text → Bool
  | u :: us, t :: ts =>
    if u.inside then columnsFit indents us ts
    else
      match indentsBehind indents t with
      | some indents => columnsFit indents us ts
      | none => false
  | _, _ => true

/-- The columns of the lines before are known while a line is read. -/
theorem RowStep.indents_eq (h : RowStep s s') : s'.indents = s.indents := by
  induction h with
  | mark _ ih => rw [ih, RowState.mark_eq]
  | depth _ _ _ ih => exact ih
  | stop | continued | close | quote => rfl

/-- A line that starts inside of something has no column that must fit. -/
theorem AtLine.readRow_inside (h : AtLine s u) (hinside : u.inside = true) (t : Text) :
    ∃ s₁, readRow s t = .next s₁ ∧ s₁.indents = s.indents := by
  have hopen := h.inside_eq.trans hinside
  have hmark (row : Nat) : (s.mark row).indents = s.indents := by rw [RowState.mark_eq]
  rw [readRow]
  split
  · split
    · exact ⟨_, rfl, (rowStep_scanRow _ _ _).indents_eq.trans (hmark _)⟩
    · split
      · exact ⟨_, rfl, hmark _⟩
      · exact ⟨_, rfl, rfl⟩
  · next hnone =>
    have hcond : (decide (s.depth = 0) && !s.continued) = false := by
      rw [hnone] at hopen
      cases hcontinued : s.continued <;> simp_all
    rw [hcond]
    exact ⟨_, rfl, (rowStep_scanRow _ _ _).indents_eq⟩

/-- Where the column of a line fits, the next line is read among the columns behind it. -/
theorem AtLine.columnsFit_cons (h : AtLine s u) (t : Text) (us : List Standing) (ts : List Text) :
    columnsFit s.indents (u :: us) (t :: ts) =
      match readRow s t with
      | .fault => false
      | .ended s₁ | .next s₁ => columnsFit s₁.indents us ts := by
  rw [columnsFit]
  cases hinside : u.inside with
  | true =>
      obtain ⟨s₁, hread, hindents⟩ := h.readRow_inside hinside t
      rw [hread, if_pos rfl]
      dsimp only
      rw [hindents]
  | false =>
      have hopen := h.inside_eq.trans hinside
      rw [Bool.or_eq_false_iff, Bool.or_eq_false_iff, Option.isSome_eq_false_iff,
        Option.isNone_iff_eq_none, decide_eq_false_iff_not, ne_eq, not_not] at hopen
      obtain ⟨⟨hnone, hdepth⟩, hcontinued⟩ := hopen
      obtain ⟨column, d, hcolumn⟩ : ∃ column d, rowColumn 0 t = (column, d) := ⟨_, _, rfl⟩
      rw [readRow_outside hnone hdepth hcontinued, indentsBehind, hcolumn, if_neg Bool.false_ne_true]
      cases d with
      | nil => rfl
      | cons c r =>
          dsimp only
          by_cases hc : (c = '#' || c = '\r' || c = '\n') = true
          · rw [if_pos hc, if_pos hc]
            rfl
          · rw [if_neg hc, if_neg hc]
            cases enclosing? column s.indents with
            | none => rfl
            | some indents =>
                have hstep := rowStep_scanRow (t.length + 1) { s with indents } (c :: r)
                exact congrArg (columnsFit · us ts) hstep.indents_eq.symm

/-- A script can be read to its end if it ends outside of everything and its columns fit. -/
theorem AtLine.isSome_readRows (h : AtLine s u) {ls : List Text} {last before : Text}
    (hls : ∀ l ∈ ls, '\n' ∉ l) (hlast : '\n' ∉ last) (hbefore : ∀ c ∈ before.getLast?, c = '\n')
    (hx : standings u (ls.flatMap (· ++ ['\n']) ++ last) = some x) :
    (readRows s before (ls.map (· ++ ['\n']) ++ if last.isEmpty then [] else [last])).isSome ↔
      x.2.inside = false ∧ columnsFit s.indents (u :: x.1)
        (ls.map (· ++ ['\n']) ++ if last.isEmpty then [] else [last]) := by
  induction ls generalizing s u x before with
  | nil =>
      cases last with
      | nil =>
          obtain rfl := Standing.standings_nil hx
          change (endRows s before).isSome ↔ u.inside = false ∧ true = true
          cases hinside : u.inside with
          | true => simp [h.endRows_inside hinside]
          | false => simp [h.endRows_break hinside hbefore]
      | cons c last =>
          have hne := List.cons_ne_nil c last
          rw [List.map_nil, List.nil_append, List.isEmpty_cons, if_neg Bool.false_ne_true, readRows,
            h.columnsFit_cons]
          obtain hread | ⟨hread, -, u', rfl, houtside⟩ | ⟨s₁, u', hread, rfl, hend, -⟩ :=
            h.last_line hne hlast hx
          · simp [hread]
          · simp [hread, houtside, columnsFit]
          · rw [hread]
            dsimp only
            rw [readRows]
            cases hinside : u'.inside with
            | true => simp [hend.endRows_inside hinside]
            | false =>
                have hreturn := getLast?_ne_return h.quoted hx hinside
                simp [hend.endRows_bare hinside hne hlast hreturn, columnsFit]
  | cons l ls ih =>
      have hls' (l : Text) (hl : l ∈ ls) : '\n' ∉ l := hls l (List.mem_cons_of_mem _ hl)
      have hbreak : ∀ c ∈ (l ++ ['\n']).getLast?, c = '\n' := by simp [eq_comm]
      rw [List.flatMap_cons, List.append_assoc] at hx
      rw [List.map_cons, List.cons_append, readRows, h.columnsFit_cons]
      obtain hread | ⟨s₁, u', y, hread, hmore, rfl, hline, -⟩ := h.next_line (hls l List.mem_cons_self) hx
      · simp [hread]
      · rw [hread]
        exact ih hline hls' hbreak hmore

/-! ## Whole scripts -/

/-- In front of the first line nothing is open. -/
theorem atLine_start : AtLine RowState.start .start :=
  ⟨⟨rfl, rfl, rfl, rfl, rfl, rfl⟩, .inl rfl, fun _ => rfl, fun f hf => by cases hf⟩

/-- There is a standing for every further line. -/
theorem length_standings (hx : standings u t = some x) : x.1.length + 1 = (Text.lines t).length := by
  induction t generalizing u x with
  | nil =>
      rw [Standing.standings_nil hx]
      rfl
  | cons c t ih =>
      rw [standings] at hx
      obtain ⟨u', -, hx⟩ := Option.bind_eq_some_iff.1 hx
      obtain ⟨y, hy, hx⟩ := Option.bind_eq_some_iff.1 hx
      obtain rfl := Option.some.inj hx
      by_cases hc : c = '\n'
      · rw [if_pos hc, hc, Text.lines_break, List.length_cons, List.length_cons, ih hy]
      · obtain ⟨l, ls, hrest, hlines⟩ := Text.lines_cons hc t
        have hlength := ih hy
        rw [hrest] at hlength
        rwa [if_neg hc, hlines]

/-- Joined lines are all with their line breaks but the last. -/
theorem joinLines_concat (ls : List Text) (last : Text) :
    Text.joinLines (ls ++ [last]) = ls.flatMap (· ++ ['\n']) ++ last := by
  induction ls with
  | nil => rfl
  | cons l ls ih =>
      rw [List.cons_append, Text.joinLines, ih, List.flatMap_cons, List.append_assoc, List.append_assoc]
      · rfl
      · simp

/-- The last line of a script. -/
def finalLine (code : Text) : Text := (Text.lines code).getLast (Text.lines_ne_nil code)

/-- Which lines continue a logical line. A script whose characters belong together can be read when it
ends outside of everything and the columns of its lines fit; else it has no lines that continue a logical
line. Those of a script that can be read are the further lines that start inside of something, within a
logical line that has begun before and that ends. -/
theorem mem_continuationLines_iff (code : Text) :
    (¬ Readable code → continuationLines code = []) ∧
      ∀ starts final, standings .start code = some (starts, final) →
        starts.length + 1 = (Text.lines code).length ∧
          (Readable code ↔ final.inside = false ∧ columnsFit [0] (.start :: starts) (rowsOf code)) ∧
            (Readable code → ∀ i, i ∈ continuationLines code ↔
              ∃ k, i = k + 1 ∧ StartsInside (finalLine code) starts k) := by
  refine ⟨fun hnot => ?_, fun starts final hx => ⟨length_standings hx, ?_⟩⟩
  · rw [Readable, Option.not_isSome_iff_eq_none] at hnot
    rw [continuationLines, hnot]
  · obtain ⟨ls, last, hlines⟩ : ∃ ls last, Text.lines code = ls ++ [last] :=
      ⟨_, _, (List.dropLast_append_getLast (Text.lines_ne_nil code)).symm⟩
    have hls (l : Text) (hl : l ∈ ls) : '\n' ∉ l :=
      Text.break_not_mem_of_mem_lines (hlines ▸ List.mem_append_left _ hl)
    have hlast : '\n' ∉ last :=
      Text.break_not_mem_of_mem_lines (hlines ▸ List.mem_append_right _ (List.mem_singleton_self last))
    have hfinal : finalLine code = last := by simp [finalLine, hlines]
    rw [← Text.joinLines_lines code, hlines, joinLines_concat] at hx
    have hbefore : ∀ c ∈ ([] : Text).getLast?, c = '\n' := by simp
    rw [hfinal, Readable, rowsOf_of_lines hlines]
    refine ⟨atLine_start.isSome_readRows hls hlast hbefore hx, fun hreadable i => ?_⟩
    obtain ⟨r, hr⟩ := Option.isSome_iff_exists.1 hreadable
    have haccounts := atLine_start.accounts_readRows hls hlast hbefore hx hr
    rw [mem_continuationLines (by rwa [rowsOf_of_lines hlines]), haccounts.continues]
    simp [ContinuesOne, RowState.Pending, RowState.start, Nat.add_comm]

/-- The assignment of a string whose last line looks like a remark. -/
def remarkString : Text := "x = '''a\n# b'''".toList

/-- The second line stands inside the string, and does not continue the logical line. -/
theorem not_mem_continuationLines_remarkString :
    (∃ u final, standings .start remarkString = some ([u], final) ∧ u.inside = true ∧ u.begun = true) ∧
      Readable remarkString ∧ 1 ∉ continuationLines remarkString := by
  have hx : standings .start remarkString =
      some ([⟨.string (Char.ofNat 39) true, 0, 0, false, true⟩], ⟨.code, 0, 0, false, true⟩) := by
    decide +kernel
  obtain ⟨-, hreadable, hlines⟩ := (mem_continuationLines_iff remarkString).2 _ _ hx
  have hread : Readable remarkString := hreadable.2 ⟨rfl, by decide +kernel⟩
  refine ⟨⟨_, _, hx, rfl, rfl⟩, hread, fun hmem => ?_⟩
  obtain ⟨k, hk, u, -, -, -, hends⟩ := (hlines hread 1).1 hmem
  obtain rfl : k = 0 := by omega
  rcases hends with ⟨u, hu, -⟩ | hremark
  · simp at hu
  · exact hremark (by decide +kernel)

end Stencil.Script
