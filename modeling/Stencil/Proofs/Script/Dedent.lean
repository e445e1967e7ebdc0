import Mathlib.Data.List.Forall2
import Stencil.Proofs.Script.Continuation

/-!
# Continuation lines of a dedented text

Removing the common indentation of a text changes the columns in which lines start, and nothing else
that matters to where logical lines begin and end. So a text and the same text dedented have the same
continuation lines, when both can be read to their end (`continuationLines_dedent`). A mix of tabs and
spaces, or a backslash ahead of a last line of gaps, can make the dedented text one that cannot.
-/

namespace Stencil.Script

/-- A text whose lines can be read to their end: its brackets, strings and indentations fit. -/
def Readable (code : Text) : Prop := (readRows RowState.start [] (rowsOf code)).isSome

/-! ## Reading on with other columns -/

/-- Marking a line does not look at the indentations. -/
theorem mark_withIndents (s : RowState) (indents : List Nat) (row : Nat) :
    RowState.mark { s with indents } row = { s.mark row with indents } := by
  rw [RowState.mark_eq, RowState.mark_eq]

/-- Reading a line does not look at the indentations. -/
theorem scanRow_withIndents (fuel : Nat) (s : RowState) (indents : List Nat) (t : Text) :
    scanRow fuel { s with indents } t = { scanRow fuel s t with indents } := by
  induction fuel generalizing s t with
  | zero => rfl
  | succ fuel ih =>
      rw [scanRow, scanRow]
      split
      · rfl
      · rfl
      · rfl
      · dsimp only
        split <;> rfl
      · dsimp only
        split <;> rfl
      · exact ih s _
      · dsimp only
        split
        · split
          · split
            · rw [mark_withIndents, ih]
            · rw [mark_withIndents]
          · split
            · rw [mark_withIndents, ih]
            · rw [mark_withIndents]
            · rw [mark_withIndents, ih]
        · rw [mark_withIndents]
          exact ih { s.mark s.row with depth := _ } _

/-- The text behind a string is no longer than the one in which it is looked for. -/
theorem length_stringEnd? {q : Char} {triple : Bool} {t rest : Text}
    (h : stringEnd? q triple t = some rest) : rest.length ≤ t.length := by
  fun_induction stringEnd? q triple t with
  | case1 | case2 => cases h
  | case3 c r hc ih => exact Nat.le_trans (ih h) (Nat.le_add_right _ 2)
  | case4 r _ _ =>
      rw [← Option.some.inj h, List.length_drop, List.length_cons]
      omega
  | case5 r _ _ _ ih => exact Nat.le_trans (ih h) (Nat.le_add_right _ 1)
  | case6 r => exact Option.some.inj h ▸ Nat.le_add_right _ 1
  | case7 => cases h
  | case8 c r _ _ _ ih => exact Nat.le_trans (ih h) (Nat.le_add_right _ 1)

/-- The text behind a string on one line is no longer than the one in which it is looked for. -/
theorem length_lineString {q : Char} {t rest : Text} (h : lineString q t = .ends rest) :
    rest.length ≤ t.length := by
  fun_induction lineString q t with
  | case1 | case2 | case3 | case4 => cases h
  | case5 c r _ _ _ ih => exact Nat.le_trans (ih h) (Nat.le_add_right _ 2)
  | case6 r => exact LineString.ends.inj h ▸ Nat.le_add_right _ 1
  | case7 => cases h
  | case8 c r _ _ _ _ _ ih => exact Nat.le_trans (ih h) (Nat.le_add_right _ 1)

/-- With fuel for each character, more fuel makes no difference. -/
theorem scanRow_fuel {fuel fuel' : Nat} (s : RowState) {t : Text} (h : t.length < fuel)
    (h' : t.length < fuel') : scanRow fuel s t = scanRow fuel' s t := by
  induction fuel generalizing fuel' s t with
  | zero => exact absurd h (Nat.not_lt_zero _)
  | succ fuel ih =>
      cases fuel' with
      | zero => exact absurd h' (Nat.not_lt_zero _)
      | succ fuel' =>
          have hsuffix := (List.dropWhile_suffix (l := t) isRowGap).length_le
          have hih {s : RowState} {t' : Text} (ht : t'.length < t.length) :
              scanRow fuel s t' = scanRow fuel' s t' := ih s (by omega) (by omega)
          rw [scanRow, scanRow]
          split
          · rfl
          · rfl
          · rfl
          · rfl
          · rfl
          · next r hdrop =>
              rw [hdrop, List.length_cons] at hsuffix
              have hlen := (List.dropWhile_suffix (l := r) fun c => c ≠ '\n' && c ≠ '\r').length_le
              exact hih (by omega)
          · next c r _ _ _ _ _ hdrop =>
              rw [hdrop, List.length_cons] at hsuffix
              split
              · split
                · split
                  · next rest hend =>
                      have hlen := length_stringEnd? hend
                      rw [List.length_drop] at hlen
                      exact hih (by omega)
                  · rfl
                · split
                  · next rest hend =>
                      have hlen := length_lineString hend
                      exact hih (by omega)
                  · rfl
                  · exact hih (by omega)
              · exact hih (by omega)

/-! ## Lines without gaps at their start -/

/-- Gaps can stand between the parts of a line. -/
theorem isRowGap_of_isGap {c : Char} (h : Text.isGap c) : isRowGap c := by
  rw [isRowGap, Bool.or_eq_true]
  exact .inl h

/-- Without gaps in front a line goes on with the same. -/
theorem dropWhile_gaps {gaps : Text} (hgaps : gaps.all Text.isGap) (t : Text) :
    (gaps ++ t).dropWhile isRowGap = t.dropWhile isRowGap := by
  induction gaps with
  | nil => rfl
  | cons c gaps ih =>
      rw [List.all_cons, Bool.and_eq_true] at hgaps
      rw [List.cons_append, List.dropWhile_cons_of_pos (isRowGap_of_isGap hgaps.1), ih hgaps.2]

/-- Without gaps in front a line is read in the same way. -/
theorem scanRow_gaps {gaps : Text} (hgaps : gaps.all Text.isGap) {fuel fuel' : Nat} (s : RowState)
    {t : Text} (h : (gaps ++ t).length < fuel) (h' : t.length < fuel') :
    scanRow fuel s (gaps ++ t) = scanRow fuel' s t := by
  have hmore := scanRow_fuel s h (show (gaps ++ t).length < fuel + fuel' + 1 by omega)
  have hmore' := scanRow_fuel s h' (show t.length < fuel + fuel' + 1 by omega)
  rw [hmore, hmore', scanRow, scanRow, dropWhile_gaps hgaps]

/-- A string ends in the same place without gaps in front. -/
theorem stringEnd?_gaps {q : Char} (hq : isRowQuote q) (triple : Bool) {gaps : Text}
    (hgaps : gaps.all Text.isGap) (t : Text) :
    stringEnd? q triple (gaps ++ t) = stringEnd? q triple t := by
  induction gaps with
  | nil => rfl
  | cons c gaps ih =>
      rw [List.all_cons, Bool.and_eq_true] at hgaps
      have hquote : c ≠ q := by
        rintro rfl
        have hgap := hgaps.1
        simp only [Text.isGap, Bool.or_eq_true, beq_iff_eq] at hgap
        rcases hgap with rfl | rfl <;> exact absurd hq (by decide)
      have hslash : c ≠ '\\' := by
        rintro rfl
        exact absurd hgaps.1 (by decide)
      rw [List.cons_append, stringEnd?]
      · rw [if_neg hquote, if_neg hslash, ih hgaps.2]
      · exact fun _ _ h => absurd h hslash

/-- What holds no gaps stands at the end of a line when it does so without gaps in front. -/
theorem endsWith_gaps {ending gaps : Text} (hend : ending.any Text.isGap = false)
    (hgaps : gaps.all Text.isGap) (t : Text) :
    Text.endsWith (gaps ++ t) ending = Text.endsWith t ending := by
  rw [Text.endsWith, Text.endsWith, Bool.eq_iff_iff, List.isSuffixOf_iff_suffix,
    List.isSuffixOf_iff_suffix]
  refine ⟨fun ⟨before, h⟩ => ?_, fun h => h.trans (List.suffix_append _ _)⟩
  rcases List.append_eq_append_iff.1 h with ⟨u, rfl, rfl⟩ | ⟨u, rfl, rfl⟩
  · cases u with
    | nil => exact List.suffix_rfl
    | cons c u =>
        have hgap : Text.isGap c :=
          List.all_eq_true.1 hgaps c (List.mem_append_right _ List.mem_cons_self)
        rw [List.cons_append, List.any_cons, hgap] at hend
        cases hend
  · exact List.suffix_append _ _

/-- Two ways of reading a line that come out the same but for the indentations, unless one is at
fault. -/
inductive SameResult : RowResult → RowResult → Prop where
  | next (s : RowState) (indents : List Nat) : SameResult (.next s) (.next { s with indents })
  | ended (s : RowState) (indents : List Nat) : SameResult (.ended s) (.ended { s with indents })
  | faultLeft (r : RowResult) : SameResult .fault r
  | faultRight (r : RowResult) : SameResult r .fault

/-- Going on to the next line from states that differ in the indentations. -/
theorem SameResult.following {s s' : RowState} (indents : List Nat) (h : s' = { s with indents }) :
    SameResult (.next { s with row := s.row + 1 }) (.next { s' with row := s'.row + 1 }) := by
  subst h
  exact .next { s with row := s.row + 1 } indents

/-- A line without gaps in front is read in the same way, where the indentations fit. -/
theorem readRow_gaps {s : RowState} (indents : List Nat) {gaps : Text} (hgaps : gaps.all Text.isGap)
    (hquote : ∀ o, s.open? = some o → isRowQuote o.quote) (t : Text) :
    SameResult (readRow s (gaps ++ t)) (readRow { s with indents } t) := by
  have hfuel : (gaps ++ t).length < (gaps ++ t).length + 1 := Nat.lt_succ_self _
  have hfuel' : t.length < t.length + 1 := Nat.lt_succ_self _
  have hsuffix := (List.dropWhile_suffix (l := t) isRowGap).length_le
  -- the lines have different lengths, so they are read with different fuel (`scanRow_fuel`), and they
  -- start in different columns, so the indentations that are kept may differ as well
  obtain ⟨row, depth, continued, open?, needsBackslash, indents₀, start?, spans⟩ := s
  rw [readRow, readRow]
  dsimp only
  cases open? with
  | some o =>
      dsimp only
      rw [stringEnd?_gaps (hquote o rfl) o.triple hgaps]
      split
      · next rest hend =>
          have hlen := length_stringEnd? hend
          refine .following indents ?_
          rw [RowState.mark_eq, RowState.mark_eq, ← scanRow_withIndents]
          exact scanRow_fuel _ (by omega) (by rw [List.length_append]; omega)
      · rw [endsWith_gaps rfl hgaps, endsWith_gaps rfl hgaps,
          RowState.mark_eq, RowState.mark_eq]
        split
        · exact .next _ indents
        · exact .next _ indents
  | none =>
      dsimp only
      split
      · have hrest : (rowColumn 0 (gaps ++ t)).2 = (rowColumn 0 t).2 := by
          rw [rowColumn_rest, rowColumn_rest, dropWhile_gaps hgaps]
        have hlen : (rowColumn 0 t).2.length ≤ t.length := rowColumn_rest 0 t ▸ hsuffix
        generalize rowColumn 0 (gaps ++ t) = found at hrest
        generalize rowColumn 0 t = found' at hrest hlen
        obtain ⟨column, rest⟩ := found
        obtain ⟨column', rest'⟩ := found'
        obtain rfl : rest = rest' := hrest
        dsimp only at hlen ⊢
        split
        · exact .ended _ indents
        · split
          · exact .next _ indents
          · cases enclosing? column indents₀ with
            | none => exact .faultLeft _
            | some indents₁ =>
                cases enclosing? column' indents with
                | none => exact .faultRight _
                | some indents₂ =>
                    refine .following indents₂ ?_
                    rw [← scanRow_withIndents]
                    exact scanRow_fuel _ (by omega) (by rw [List.length_append]; omega)
      · refine .following indents ?_
        rw [scanRow_gaps hgaps _ hfuel hfuel', ← scanRow_withIndents]

/-- After a line that is read a string that is open starts with a quote. -/
theorem isRowQuote_readRow {s s' : RowState} {t : Text} (h : readRow s t = .next s')
    (hs : ∀ o, s.open? = some o → isRowQuote o.quote) :
    ∀ o, s'.open? = some o → isRowQuote o.quote := by
  obtain ⟨s₁, hread, rfl⟩ := rowRead_readRow h
  cases hread with
  | endString =>
      refine (rowStep_scanRow _ _ _).isRowQuote fun o h => ?_
      cases h
  | dropString => exact fun o h => by cases h
  | inString => exact hs
  | blank => exact hs
  | fresh => exact (rowStep_scanRow _ _ _).isRowQuote hs
  | continuing => exact (rowStep_scanRow _ _ _).isRowQuote hs

/-! ## Reading all lines -/

/-- A line and what is left of it without gaps in front, which is not nothing. -/
def Undented (t t' : Text) : Prop :=
  t' ≠ [] ∧ ∃ gaps : Text, gaps.all Text.isGap ∧ t = gaps ++ t'

/-- The end of a text is the same whether or not its last line has gaps in front. -/
theorem endRows_gaps {s r r' : RowState} {indents : List Nat} {last last' : Text}
    (h : last' = last ∨ Undented last last') (hr : endRows s last = some r)
    (hr' : endRows { s with indents } last' = some r') : r'.spans = r.spans := by
  have hends : last.getLast? = last'.getLast? ∧ Text.trim last = Text.trim last' := by
    rcases h with rfl | ⟨hne, gaps, hgaps, rfl⟩
    · exact ⟨rfl, rfl⟩
    · refine ⟨List.getLast?_append_of_ne_nil _ hne, ?_⟩
      have htake : gaps.length ≤ ((gaps ++ last').takeWhile Text.isGap).length := by
        rw [List.takeWhile_append_of_pos (List.all_eq_true.1 hgaps), List.length_append]
        exact Nat.le_add_right _ _
      have htrim := Text.trimStart_drop_gaps htake
      rw [List.drop_left] at htrim
      rw [Text.trim, Text.trim, htrim]
  rw [endRows] at hr hr'
  dsimp only at hr'
  rw [← hends.1, ← hends.2] at hr'
  split at hr
  · cases hr
  · next hopen =>
      rw [if_neg hopen] at hr'
      cases hlast : last.getLast? with
      | none =>
          simp only [hlast] at hr hr'
          obtain rfl := Option.some.inj hr
          obtain rfl := Option.some.inj hr'
          rfl
      | some c =>
          simp only [hlast] at hr hr'
          split at hr
          · next hbare =>
              rw [if_pos hbare] at hr'
              obtain rfl := Option.some.inj hr
              obtain rfl := Option.some.inj hr'
              rfl
          · next hbare =>
              rw [if_neg hbare] at hr'
              obtain rfl := Option.some.inj hr
              obtain rfl := Option.some.inj hr'
              rfl

/-- A line of gaps behind the end of a text changes nothing. -/
theorem readRows_gaps_end {s r r' : RowState} {indents : List Nat} {last last' gaps : Text}
    (hgaps : gaps.all Text.isGap) (hlast : last'.getLast? = none ∨ last'.getLast? = some '\n')
    (hr : readRows s last [gaps] = some r) (hr' : endRows { s with indents } last' = some r') :
    r'.spans = r.spans := by
  rw [endRows] at hr'
  split at hr'
  · cases hr'
  · next hopen =>
      simp only [Bool.or_eq_true, decide_eq_true_eq, not_or, ne_eq, Classical.not_not,
        Option.isSome_iff_ne_none, Bool.not_eq_true] at hopen
      obtain ⟨⟨hopen, hdepth⟩, hcontinued⟩ := hopen
      have hr' : r' = { s with indents } := by
        rcases hlast with hlast | hlast
        · simp only [hlast] at hr'
          exact (Option.some.inj hr').symm
        · simp only [hlast] at hr'
          exact (Option.some.inj hr').symm
      have hrest : (rowColumn 0 gaps).2 = [] := by
        rw [rowColumn_rest, List.dropWhile_eq_nil_iff]
        exact fun c hc => isRowGap_of_isGap (List.all_eq_true.1 hgaps c hc)
      rw [readRows, readRow, hopen] at hr
      dsimp only at hr
      rw [if_pos (by simp [hdepth, hcontinued])] at hr
      generalize rowColumn 0 gaps = found at hrest hr
      obtain ⟨column, rest⟩ := found
      obtain rfl : rest = [] := hrest
      rw [hr', ← Option.some.inj hr]

/-- Lines with and without gaps in front make up the same logical lines, if they can be read to the end
both ways. Without gaps a last line of nothing else is missing. -/
theorem spans_readRows_gaps {rows rows' extra : List Text} (h : List.Forall₂ Undented rows rows')
    (hextra : extra = [] ∨ ∃ gaps : Text, extra = [gaps] ∧ gaps.all Text.isGap ∧
      ∀ t ∈ rows', t.getLast? = some '\n')
    {s r r' : RowState} {indents : List Nat} {last last' : Text}
    (hlast : last' = last ∨ Undented last last')
    (hend : last'.getLast? = none ∨ last'.getLast? = some '\n' ∨ extra = [])
    (hquote : ∀ o, s.open? = some o → isRowQuote o.quote)
    (hr : readRows s last (rows ++ extra) = some r)
    (hr' : readRows { s with indents } last' rows' = some r') : r'.spans = r.spans := by
  -- The induction is on the lines. The indentations are generalized, since each line may change them, and
  -- so are the last lines read, which decide how the text ends.
  induction h generalizing s indents last last' with
  | nil =>
      rcases hextra with rfl | ⟨gaps, rfl, hgaps, -⟩
      · exact endRows_gaps hlast hr hr'
      · exact readRows_gaps_end hgaps (by simpa using hend) hr hr'
  | @cons t t' rows rows' ht _ ih =>
      obtain ⟨hne, gaps, hgaps, rfl⟩ := ht
      have hresult := readRow_gaps indents hgaps hquote t'
      rw [List.cons_append, readRows] at hr
      rw [readRows] at hr'
      cases hread : readRow s (gaps ++ t') with
      | fault => simp [hread] at hr
      | ended s₁ =>
          rw [hread] at hresult hr
          generalize readRow { s with indents } t' = result at hresult hr'
          cases hresult with
          | ended =>
              obtain rfl := Option.some.inj hr
              obtain rfl := Option.some.inj hr'
              rfl
          | faultRight => cases hr'
      | next s₁ =>
          have hquote₁ := isRowQuote_readRow hread hquote
          rw [hread] at hresult hr
          generalize readRow { s with indents } t' = result at hresult hr'
          cases hresult with
          | next =>
              refine ih ?_ (.inr ⟨hne, gaps, hgaps, rfl⟩) ?_ hquote₁ hr hr'
              · rcases hextra with hnone | ⟨gaps, heq, hgaps, hbreak⟩
                · exact .inl hnone
                · exact .inr ⟨gaps, heq, hgaps, fun t ht => hbreak t (List.mem_cons_of_mem _ ht)⟩
              · rcases hextra with rfl | ⟨-, -, -, hbreak⟩
                · exact .inr (.inr rfl)
                · exact .inr (.inl (hbreak t' List.mem_cons_self))
          | faultRight => cases hr'

/-- The lines of a dedented text are those of the text without gaps in front, with the line breaks that
they are read with. -/
theorem rowsOf_dedent (code : Text) : ∃ rows extra,
    rowsOf code = rows ++ extra ∧ List.Forall₂ Undented rows (rowsOf (Text.dedent code)) ∧
      (extra = [] ∨ ∃ gaps : Text, extra = [gaps] ∧ gaps.all Text.isGap ∧
        ∀ t ∈ rowsOf (Text.dedent code), t.getLast? = some '\n') := by
  obtain ⟨ls, last, hlines⟩ : ∃ ls last, Text.lines code = ls ++ [last] :=
    ⟨_, _, (List.dropLast_append_getLast (Text.lines_ne_nil code)).symm⟩
  let undent := Text.dedentLine (Text.margin (Text.lines code)).length
  have hdedent : Text.lines (Text.dedent code) = ls.map undent ++ [undent last] := by
    have hmap : Text.lines (Text.dedent code) = (Text.lines code).map undent := Text.lines_dedent code
    rw [hmap, hlines, List.map_append]
    rfl
  have hbreaks : List.Forall₂ Undented (ls.map (· ++ ['\n'])) ((ls.map undent).map (· ++ ['\n'])) := by
    rw [List.map_map, List.forall₂_map_left_iff, List.forall₂_map_right_iff, List.forall₂_same]
    intro l hl
    obtain ⟨gaps, hgaps, heq⟩ := Text.exists_gaps_dedentLine
      (show l ∈ Text.lines code from hlines ▸ List.mem_append_left _ hl)
    refine ⟨List.concat_ne_nil _ _, gaps, hgaps, ?_⟩
    rw [Function.comp_apply, ← List.append_assoc]
    exact congrArg (· ++ ['\n']) heq
  obtain ⟨gaps, hgaps, hlast⟩ := Text.exists_gaps_dedentLine
    (show last ∈ Text.lines code from hlines ▸ List.mem_append_right _ List.mem_cons_self)
  rw [rowsOf_of_lines hlines, rowsOf_of_lines hdedent]
  -- a last line of nothing but gaps becomes empty, and then it is no line that is read
  by_cases hne : undent last = []
  · rw [hne, List.isEmpty_nil, if_pos rfl, List.append_nil]
    refine ⟨ls.map (· ++ ['\n']), _, rfl, hbreaks, ?_⟩
    split
    · exact .inl rfl
    · refine .inr ⟨last, rfl, ?_, fun t ht => ?_⟩
      · have hlast : last = gaps ++ undent last := hlast
        rw [hlast, hne, List.append_nil]
        exact hgaps
      · obtain ⟨l, -, rfl⟩ := List.mem_map.1 ht
        exact List.getLast?_concat
  · have hlast' : last ≠ [] := by
      rintro rfl
      exact hne rfl
    rw [if_neg (mt List.isEmpty_iff.1 hlast'), if_neg (mt List.isEmpty_iff.1 hne)]
    exact ⟨_, [], (List.append_nil _).symm,
      List.rel_append hbreaks (.cons ⟨hne, gaps, hgaps, hlast⟩ .nil), .inl rfl⟩

/-- A text and the same text dedented have the same continuation lines, if both can be read. -/
theorem continuationLines_dedent {code : Text} (h : Readable code)
    (hdedent : Readable (Text.dedent code)) :
    continuationLines (Text.dedent code) = continuationLines code := by
  obtain ⟨rows, extra, hrows, hundented, hextra⟩ := rowsOf_dedent code
  obtain ⟨r, hr⟩ := Option.isSome_iff_exists.1 h
  obtain ⟨r', hr'⟩ := Option.isSome_iff_exists.1 hdedent
  have hfresh : readRows { RowState.start with indents := [0] } [] (rowsOf (Text.dedent code)) =
      some r' := hr'
  have hspans : r'.spans = r.spans := spans_readRows_gaps hundented hextra (.inl rfl) (.inl rfl)
    (fun o ho => by cases ho) (hrows ▸ hr) hfresh
  rw [continuationLines, continuationLines, hr, hr']
  dsimp only
  rw [hspans]

end Stencil.Script
