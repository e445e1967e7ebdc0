import Stencil.Proofs.Script.Dedent

/-!
# A colon behind a script

A colon at the end of a last line that is not blank opens and closes nothing. So it makes no difference
to where logical lines begin and end (`continuationLines_colon`), also where it stands in a remark or
behind a quote that is never closed.
-/

namespace Stencil.Script

/-- A quote is neither a colon nor a backslash. -/
theorem ne_of_isRowQuote {q : Char} (hq : isRowQuote q) : q ≠ ':' ∧ q ≠ '\\' := by
  constructor <;> rintro rfl <;> exact absurd hq (by decide)

/-- Two quotes stand at the start of a text whether or not a colon follows. -/
theorem isPrefixOf_colon {q : Char} (hq : isRowQuote q) (r : Text) :
    [q, q].isPrefixOf (r ++ [':']) = [q, q].isPrefixOf r := by
  have hcolon := (ne_of_isRowQuote hq).1
  match r with
  | [] => simp [List.isPrefixOf]
  | [c] => simp [List.isPrefixOf, hcolon]
  | c :: d :: r => simp [List.isPrefixOf]

/-- What two quotes leave of a text is followed by the colon. -/
theorem drop_colon {q : Char} {r : Text} (h : [q, q].isPrefixOf r) :
    (r ++ [':']).drop 2 = r.drop 2 ++ [':'] :=
  List.drop_append_of_le_length (List.isPrefixOf_iff_prefix.1 h).length_le

/-- A string ends in the same place when a colon follows. -/
theorem stringEnd?_colon {q : Char} (hq : isRowQuote q) (triple : Bool) (t : Text) :
    stringEnd? q triple (t ++ [':']) = (stringEnd? q triple t).map (· ++ [':']) := by
  obtain ⟨hcolon, hslash⟩ := ne_of_isRowQuote hq
  have hquote (r : Text) : stringEnd? q triple (q :: r ++ [':']) =
      if triple then
        if [q, q].isPrefixOf r then some ((r ++ [':']).drop 2) else stringEnd? q triple (r ++ [':'])
      else some (r ++ [':']) := by
    rw [List.cons_append, stringEnd?]
    · rw [if_pos rfl, isPrefixOf_colon hq]
    · exact fun _ _ h => absurd h hslash
  fun_induction stringEnd? q triple t with
  | case1 => simp [stringEnd?, hcolon.symm]
  | case2 r => simp [stringEnd?]
  | case3 c r hc ih => simpa [stringEnd?, hc] using ih
  | case4 r htriple hstart => rw [hquote, if_pos htriple, if_pos hstart, drop_colon hstart]; rfl
  | case5 r htriple hstart _ ih => rw [hquote, if_pos htriple, if_neg hstart, ih]
  | case6 r htriple => rw [hquote, if_neg htriple]; rfl
  | case7 r hend =>
      cases r with
      | nil => simp [stringEnd?]
      | cons c r => exact absurd rfl (hend c r rfl)
  | case8 c r _ hc hne ih =>
      rw [List.cons_append, stringEnd?]
      · rw [if_neg hc, if_neg hne, ih]
      · exact fun _ _ h => absurd h hne

/-- What becomes of a string on one line when a colon follows. -/
def LineString.addColon : LineString → LineString
  | ends rest => ends (rest ++ [':'])
  | continues => continues
  | broken => broken

/-- A string on a line without a line break ends in the same place, or is broken as well, when a colon
follows. -/
theorem lineString_colon {q : Char} (hq : isRowQuote q) {t : Text} (ht : '\n' ∉ t) :
    lineString q (t ++ [':']) = (lineString q t).addColon := by
  obtain ⟨hcolon, hslash⟩ := ne_of_isRowQuote hq
  have hother {c : Char} (r : Text) (hc : c ≠ '\\') : lineString q (c :: r) =
      if c = q then .ends r else if c = '\n' then .broken else lineString q r := by
    rw [lineString]
    · simp [hc]
    · exact fun h => absurd h hc
    · exact fun h => absurd h hc
    · exact fun _ _ h => absurd h hc
  fun_induction lineString q t with
  | case1 => simp [lineString, hcolon.symm, LineString.addColon]
  | case2 => simp at ht
  | case3 => simp at ht
  | case4 r => simp at ht
  | case5 c r _ _ hc ih =>
      have hr : '\n' ∉ r := fun h => ht (List.mem_cons_of_mem _ (List.mem_cons_of_mem _ h))
      rw [List.cons_append, List.cons_append, lineString]
      · rw [if_neg hc, ih hr]
      · exact fun h => absurd h hc
      · intro _ hend
        have hlast := congrArg List.getLast? hend
        simp at hlast
  | case6 r =>
      rw [List.cons_append, hother _ hslash, if_pos rfl]
      rfl
  | case7 c r _ _ hend hc hbroken =>
      -- without a line break the string is broken by a backslash behind which nothing stands
      obtain rfl : c = '\\' := by
        rw [Bool.or_eq_true, decide_eq_true_eq, decide_eq_true_eq] at hbroken
        exact hbroken.resolve_left fun h => ht (h ▸ List.mem_cons_self)
      cases r with
      | nil => simp [lineString, LineString.addColon]
      | cons c r => exact absurd rfl (hend c r rfl)
  | case8 c r _ _ _ hc hgoes ih =>
      rw [Bool.or_eq_true, decide_eq_true_eq, decide_eq_true_eq, not_or] at hgoes
      rw [List.cons_append, hother _ hgoes.2, if_neg hc, if_neg hgoes.1,
        ih fun h => ht (List.mem_cons_of_mem _ h)]

/-! ## Reading lines with a colon behind them -/

/-- The number of open brackets behind a character. -/
def bracketDepth (depth : Int) (c : Char) : Int :=
  if c = '(' || c = '[' || c = '{' then depth + 1
  else if c = ')' || c = ']' || c = '}' then depth - 1
  else depth

/-- Without a line break a character that starts no remark is a quote, or is passed over. -/
theorem scanRow_char {fuel : Nat} {s : RowState} {t r : Text} {c : Char}
    (hdrop : t.dropWhile isRowGap = c :: r) (hbreak : '\n' ∉ c :: r) (hc : c ≠ '#') :
    scanRow (fuel + 1) s t =
      if isRowQuote c then
        if [c, c].isPrefixOf r then
          match stringEnd? c true (r.drop 2) with
          | some rest => scanRow fuel (s.mark s.row) rest
          | none => { s.mark s.row with open? := some ⟨c, true, s.row⟩ }
        else
          match lineString c r with
          | .ends rest => scanRow fuel (s.mark s.row) rest
          | .continues =>
            { s.mark s.row with open? := some ⟨c, false, s.row⟩, needsBackslash := true }
          | .broken => scanRow fuel (s.mark s.row) r
      else scanRow fuel { s.mark s.row with depth := bracketDepth s.depth c } r := by
  rw [scanRow, hdrop]
  split
  · next h => cases h
  · next h =>
      obtain ⟨rfl, rfl⟩ := List.cons.inj h
      exact absurd (by simp) hbreak
  · next h =>
      obtain ⟨rfl, rfl⟩ := List.cons.inj h
      exact absurd (by simp) hbreak
  · next h =>
      obtain ⟨rfl, rfl⟩ := List.cons.inj h
      exact absurd (by simp) hbreak
  · next h =>
      obtain ⟨rfl, rfl⟩ := List.cons.inj h
      exact absurd (by simp) hbreak
  · next h => exact absurd (List.cons.inj h).1 hc
  · next h =>
      obtain ⟨rfl, rfl⟩ := List.cons.inj h
      rfl

/-- A remark is passed over. -/
theorem scanRow_remark {fuel : Nat} {s : RowState} {t r : Text} (hdrop : t.dropWhile isRowGap = '#' :: r) :
    scanRow (fuel + 1) s t = scanRow fuel s (r.dropWhile fun c => c ≠ '\n' && c ≠ '\r') := by
  rw [scanRow, hdrop]
  rfl

/-- Nothing is read of an empty line. -/
theorem scanRow_nil (fuel : Nat) (s : RowState) : scanRow fuel s [] = s := by
  cases fuel <;> rfl

/-- The text behind a string ends the one in which it is looked for. -/
theorem suffix_of_stringEnd? {q : Char} {triple : Bool} {t rest : Text}
    (h : stringEnd? q triple t = some rest) : rest <:+ t := by
  fun_induction stringEnd? q triple t with
  | case1 | case2 => cases h
  | case3 c r hc ih => exact (ih h).trans ((List.suffix_cons c r).trans (List.suffix_cons _ _))
  | case4 r _ _ => exact Option.some.inj h ▸ (List.drop_suffix 2 r).trans (List.suffix_cons _ _)
  | case5 r _ _ _ ih => exact (ih h).trans (List.suffix_cons _ _)
  | case6 r => exact Option.some.inj h ▸ List.suffix_cons _ _
  | case7 => cases h
  | case8 c r _ _ _ ih => exact (ih h).trans (List.suffix_cons _ _)

/-- The text behind a string on one line ends the one in which it is looked for. -/
theorem suffix_of_lineString {q : Char} {t rest : Text} (h : lineString q t = .ends rest) :
    rest <:+ t := by
  fun_induction lineString q t with
  | case1 | case2 | case3 | case4 => cases h
  | case5 c r _ _ _ ih => exact (ih h).trans ((List.suffix_cons c r).trans (List.suffix_cons _ _))
  | case6 r => exact LineString.ends.inj h ▸ List.suffix_cons _ _
  | case7 => cases h
  | case8 c r _ _ _ _ _ ih => exact (ih h).trans (List.suffix_cons _ _)

/-- A string that a backslash continues on the next line has a line break behind it. -/
theorem lineString_ne_continues {q : Char} {t : Text} (h : '\n' ∉ t) : lineString q t ≠ .continues := by
  fun_induction lineString q t with
  | case2 => simp at h
  | case3 => simp at h
  | case5 c r _ _ _ ih => exact ih fun hr => h (List.mem_cons_of_mem _ (List.mem_cons_of_mem _ hr))
  | case8 c r _ _ _ _ _ ih => exact ih fun hr => h (List.mem_cons_of_mem _ hr)
  | case1 | case4 | case6 | case7 => exact fun h => by cases h

/-- Within a logical line, or behind what starts one, a colon at the end of a line changes nothing. -/
theorem scanRow_colon {fuel fuel' : Nat} {s : RowState} {t : Text} (hbreak : '\n' ∉ t)
    (hstart : s.start? ≠ none ∨ t.dropWhile isRowGap ≠ []) (hfuel : t.length < fuel)
    (hfuel' : t.length + 1 < fuel') : scanRow fuel' s (t ++ [':']) = scanRow fuel s t := by
  induction fuel generalizing fuel' s t with
  | zero => exact absurd hfuel (Nat.not_lt_zero _)
  | succ fuel ih =>
      cases fuel' with
      | zero => exact absurd hfuel' (Nat.not_lt_zero _)
      | succ fuel' =>
          have hsuffix : t.dropWhile isRowGap <:+ t := List.dropWhile_suffix isRowGap
          have hlen := hsuffix.length_le
          cases hdrop : t.dropWhile isRowGap with
          | nil =>
              have hdrop' : (t ++ [':']).dropWhile isRowGap = [':'] := by
                rw [List.dropWhile_append, hdrop]
                rfl
              obtain ⟨row, hrow⟩ := Option.ne_none_iff_exists'.1
                (hstart.resolve_right fun h => h hdrop)
              have hmark : s.mark s.row = s := by rw [RowState.mark, hrow]
              rw [scanRow_plain hdrop' (by decide), if_neg (by decide), hmark, scanRow_nil, scanRow, hdrop]
          | cons c r =>
              have hdrop' : (t ++ [':']).dropWhile isRowGap = c :: (r ++ [':']) := by
                rw [List.dropWhile_append, hdrop]
                rfl
              rw [hdrop, List.length_cons] at hlen
              have hbreak' : '\n' ∉ c :: r := fun h => hbreak (hsuffix.subset (hdrop ▸ h))
              have hr : '\n' ∉ r := fun h => hbreak' (List.mem_cons_of_mem _ h)
              by_cases hc : c = '#'
              · subst hc
                rw [scanRow_remark hdrop, scanRow_remark hdrop', List.dropWhile_append]
                have hends : r.dropWhile (fun c => c ≠ '\n' && c ≠ '\r') <:+ r := List.dropWhile_suffix _
                have hlen' := hends.length_le
                split
                · next hnil =>
                    rw [List.isEmpty_iff.1 hnil]
                    exact (scanRow_nil _ s).trans (scanRow_nil _ s).symm
                · next hrest =>
                    -- a remark that ends on its line ends at a carriage return, which is no gap
                    refine ih (fun h => hr (hends.subset h)) (.inr fun hgaps => ?_) (by omega) (by omega)
                    have hne : r.dropWhile (fun c => c ≠ '\n' && c ≠ '\r') ≠ [] := mt List.isEmpty_iff.2 hrest
                    have hstop := List.head_dropWhile_not (fun c => c ≠ '\n' && c ≠ '\r') hne
                    have hgap := List.dropWhile_eq_nil_iff.1 hgaps _ (List.head_mem hne)
                    generalize (r.dropWhile fun c => c ≠ '\n' && c ≠ '\r').head hne = c at hstop hgap
                    have hcr : c = '\n' ∨ c = '\r' := by
                      simpa [Classical.or_iff_not_imp_left] using hstop
                    rcases hcr with rfl | rfl <;> cases hgap
              · rw [scanRow_char hdrop hbreak' hc, scanRow_char hdrop' (by simpa using hbreak') hc]
                -- what stands behind a quote or another character is within the logical line
                have hrest (s' : RowState) (hs' : s'.start? ≠ none) {rest : Text} (hsuffix : rest <:+ r) :
                    scanRow fuel' s' (rest ++ [':']) = scanRow fuel s' rest := by
                  have hlen' := hsuffix.length_le
                  exact ih (fun h => hr (hsuffix.subset h)) (.inl hs') (by omega) (by omega)
                have hmark := RowState.mark_start? s s.row
                by_cases hq : isRowQuote c
                · rw [if_pos hq, if_pos hq, isPrefixOf_colon hq]
                  by_cases hstart : [c, c].isPrefixOf r
                  · rw [if_pos hstart, if_pos hstart, drop_colon hstart, stringEnd?_colon hq]
                    cases hend : stringEnd? c true (r.drop 2) with
                    | none => rfl
                    | some rest => exact hrest _ hmark ((suffix_of_stringEnd? hend).trans (List.drop_suffix 2 r))
                  · rw [if_neg hstart, if_neg hstart, lineString_colon hq hr]
                    cases hend : lineString c r with
                    | ends rest => exact hrest _ hmark (suffix_of_lineString hend)
                    | continues => exact absurd hend (lineString_ne_continues hr)
                    | broken => exact hrest _ hmark (List.suffix_refl r)
                · rw [if_neg hq, if_neg hq]
                  exact hrest { s.mark s.row with depth := bracketDepth s.depth c } hmark
                    (List.suffix_refl r)

/-- Gaps between the parts of a line are blank. -/
theorem isBlank_of_isRowGap {c : Char} (h : isRowGap c) : Text.isBlank c := by
  rw [isRowGap, Bool.or_eq_true, Bool.or_eq_true, beq_iff_eq, beq_iff_eq, beq_iff_eq] at h
  rcases h with (rfl | rfl) | rfl <;> decide

/-- The column behind the gaps at the start of a line does not depend on how the line goes on. -/
theorem rowColumn_append {column : Nat} {t : Text} (h : t.dropWhile isRowGap ≠ []) (u : Text) :
    rowColumn column (t ++ u) = ((rowColumn column t).1, t.dropWhile isRowGap ++ u) := by
  fun_induction rowColumn column t with
  | case1 column r ih => exact ih h
  | case2 column r ih => exact ih h
  | case3 column r ih => exact ih h
  | case4 column t hspace htab hfeed =>
      cases t with
      | nil => exact absurd rfl h
      | cons c r =>
          have hgap : ¬ isRowGap c := by
            rw [isRowGap, Bool.or_eq_true, Bool.or_eq_true, beq_iff_eq, beq_iff_eq, beq_iff_eq]
            rintro ((rfl | rfl) | rfl)
            · exact hspace r rfl
            · exact htab r rfl
            · exact hfeed r rfl
          rw [List.dropWhile_cons_of_neg hgap, List.cons_append, rowColumn]
          all_goals
            rintro _ ⟨⟩
            exact hgap rfl

section

variable {t : Text}

/-- A text that does not end with a blank holds more than gaps. -/
theorem dropWhile_ne_nil (hlast : ∃ c ∈ t.getLast?, ¬ Text.isBlank c) : t.dropWhile isRowGap ≠ [] := by
  obtain ⟨c, hc, hblank⟩ := hlast
  intro hgaps
  exact hblank (isBlank_of_isRowGap (List.dropWhile_eq_nil_iff.1 hgaps c (List.mem_of_getLast? hc)))

/-- A line that does not end with a blank is read in the same way when a colon follows. -/
theorem readRow_colon {s : RowState} (hbreak : '\n' ∉ t) (hlast : ∃ c ∈ t.getLast?, ¬ Text.isBlank c)
    (hquote : ∀ o, s.open? = some o → isRowQuote o.quote) :
    readRow s (t ++ [':']) = readRow s t := by
  have hne := dropWhile_ne_nil hlast
  have hlen : (t ++ [':']).length = t.length + 1 := List.length_append
  rw [readRow, readRow]
  dsimp only
  split
  · next o hopen =>
      rw [stringEnd?_colon (hquote o hopen)]
      cases hend : stringEnd? o.quote o.triple t with
      | none =>
          have hends {u ending : Text} (hu : '\n' ∉ u) (hending : '\n' ∈ ending) :
              Text.endsWith u ending = false := by
            rw [Text.endsWith, Bool.eq_false_iff]
            exact fun h => hu ((List.isSuffixOf_iff_suffix.1 h).subset hending)
          have hbreak' : '\n' ∉ t ++ [':'] := by simpa using hbreak
          dsimp only [Option.map_none]
          rw [hends hbreak (by decide), hends hbreak (by decide), hends hbreak' (by decide),
            hends hbreak' (by decide)]
      | some rest => 
          have hlen' := length_stringEnd? hend
          dsimp only [Option.map_some]
          rw [scanRow_colon (fun h => hbreak ((suffix_of_stringEnd? hend).subset h)) (.inl ?_)
            (show rest.length < t.length + 1 by omega) (by omega)]
          exact RowState.mark_start? s o.row
  · split
    · have hrest := rowColumn_rest 0 t
      rw [rowColumn_append hne]
      generalize rowColumn 0 t = found at hrest
      obtain ⟨column, rest⟩ := found
      obtain rfl : rest = t.dropWhile isRowGap := hrest
      cases hdrop : t.dropWhile isRowGap with
      | nil => exact absurd hdrop hne
      | cons c r =>
          dsimp only [List.cons_append]
          split
          · rfl
          · cases enclosing? column s.indents with
            | none => rfl
            | some indents =>
                have hsuffix : c :: r <:+ t := hdrop ▸ List.dropWhile_suffix isRowGap
                have hne' : (c :: r).dropWhile isRowGap ≠ [] := by
                  rw [← hdrop, List.dropWhile_idempotent]
                  exact hne
                have hlen' := hsuffix.length_le
                dsimp only
                rw [← List.cons_append, scanRow_colon (fun h => hbreak (hsuffix.subset h)) (.inr hne')
                  (show (c :: r).length < t.length + 1 by omega) (by omega)]
    · rw [scanRow_colon hbreak (.inr hne) (Nat.lt_succ_self _) (by omega)]

/-- A script ends in the same way when a colon stands behind its last line. -/
theorem endRows_colon {s : RowState} (hlast : ∃ c ∈ t.getLast?, ¬ Text.isBlank c) :
    endRows s (t ++ [':']) = endRows s t := by
  obtain ⟨c, hc, hblank⟩ := hlast
  have hbare : c ≠ '\n' && c ≠ '\r' := by
    rw [Bool.and_eq_true, decide_eq_true_eq, decide_eq_true_eq]
    constructor <;> rintro rfl <;> exact hblank (by decide)
  -- the first character that is not blank is the same
  have htrim : ¬ t.all Text.isBlank := fun h =>
    hblank (List.all_eq_true.1 h c (List.mem_of_getLast? hc))
  have hhead (u : Text) : (Text.trim (t ++ u)).head? = (Text.trimStart t).head? := by
    have hne : Text.trimStart t ≠ [] := mt Text.trimStart_eq_nil.1 htrim
    obtain ⟨d, r, hd⟩ := List.exists_cons_of_ne_nil hne
    have hink : ¬ Text.isBlank d := by
      have hstop := List.head?_dropWhile_not Text.isBlank t
      rw [show t.dropWhile Text.isBlank = d :: r from hd] at hstop
      simpa using hstop
    have hstart : Text.trimStart (t ++ u) = d :: (r ++ u) := by
      rw [Text.trimStart, List.dropWhile_append, show t.dropWhile Text.isBlank = d :: r from hd]
      rfl
    rw [Text.trim, hstart, hd, Text.trimEnd_cons, if_neg (by simp [hink])]
    rfl
  have hhead' := hhead []
  rw [List.append_nil] at hhead'
  have hbare' : (decide (':' ≠ '\n') && decide (':' ≠ '\r')) = true := by decide
  rw [endRows, endRows, hhead, hhead', List.getLast?_concat, Option.mem_def.1 hc]
  dsimp only
  rw [hbare, hbare']

/-- Lines are read in the same way when a colon stands behind the last one. -/
theorem readRows_colon {s : RowState} {before : Text} {rows : List Text} (hbreak : '\n' ∉ t)
    (hlast : ∃ c ∈ t.getLast?, ¬ Text.isBlank c)
    (hquote : ∀ o, s.open? = some o → isRowQuote o.quote) :
    readRows s before (rows ++ [t ++ [':']]) = readRows s before (rows ++ [t]) := by
  induction rows generalizing s before with
  | nil =>
      rw [List.nil_append, List.nil_append, readRows, readRows, readRow_colon hbreak hlast hquote]
      cases readRow s t with
      | next s' => exact endRows_colon hlast
      | ended s' => rfl
      | fault => rfl
  | cons row rows ih =>
      rw [List.cons_append, List.cons_append, readRows, readRows]
      cases hrow : readRow s row with
      | next s' => exact ih (isRowQuote_readRow hrow hquote)
      | ended s' => rfl
      | fault => rfl

/-- Joined lines end with the last line, behind a line break if there are others. -/
theorem exists_joinLines_concat (ls : List Text) : ∃ before : Text,
    (∀ c ∈ before.getLast?, c = '\n') ∧ ∀ l, Text.joinLines (ls ++ [l]) = before ++ l := by
  induction ls with
  | nil => exact ⟨[], by simp, fun l => rfl⟩
  | cons l ls ih =>
      obtain ⟨before, hbreak, hjoin⟩ := ih
      refine ⟨l ++ '\n' :: before, fun c hc => ?_, fun l' => ?_⟩
      · rw [List.getLast?_append_of_ne_nil _ (List.cons_ne_nil _ _)] at hc
        cases before with
        | nil => simpa [eq_comm] using hc
        | cons d before => exact hbreak c (by simpa using hc)
      · rw [List.cons_append, Text.joinLines, hjoin, List.append_assoc, List.cons_append]
        exact fun h => by simp at h

/-- The last line of a text that does not end with a blank. It is longer by a colon when one follows. -/
theorem exists_lines_colon {code : Text} (hlast : ∃ c ∈ code.getLast?, ¬ Text.isBlank c) :
    ∃ ls last, Text.lines code = ls ++ [last] ∧ Text.lines (code ++ [':']) = ls ++ [last ++ [':']] ∧
      ∃ c ∈ last.getLast?, ¬ Text.isBlank c := by
  obtain ⟨ls, last, hlines⟩ : ∃ ls last, Text.lines code = ls ++ [last] :=
    ⟨_, _, (List.dropLast_append_getLast (Text.lines_ne_nil code)).symm⟩
  obtain ⟨before, hbreak, hjoin⟩ := exists_joinLines_concat ls
  have hcode : code = before ++ last := by rw [← hjoin, ← hlines, Text.joinLines_lines]
  have hmem {l : Text} (hl : l ∈ ls ++ [last]) : '\n' ∉ l := Text.break_not_mem_of_mem_lines (hlines ▸ hl)
  refine ⟨ls, last, hlines, ?_, ?_⟩
  · rw [hcode, List.append_assoc, ← hjoin, Text.lines_joinLines (by simp)]
    intro l hl
    rcases List.mem_append.1 hl with hl | hl
    · exact hmem (List.mem_append_left _ hl)
    · rw [List.mem_singleton.1 hl]
      have hlast' := hmem (List.mem_append_right ls List.mem_cons_self)
      simpa using hlast'
  · obtain ⟨c, hc, hblank⟩ := hlast
    refine ⟨c, ?_, hblank⟩
    rw [hcode] at hc
    cases last with
    | nil =>
        rw [List.append_nil] at hc
        rw [hbreak c hc] at hblank
        exact absurd (by decide) hblank
    | cons d last => rwa [List.getLast?_append_of_ne_nil _ (List.cons_ne_nil d last)] at hc

/-- A text that does not end with a blank has the same continuation lines when a colon follows. -/
theorem continuationLines_colon {code : Text} (hlast : ∃ c ∈ code.getLast?, ¬ Text.isBlank c) :
    continuationLines (code ++ [':']) = continuationLines code := by
  obtain ⟨ls, last, hlines, hlines', hlast'⟩ := exists_lines_colon hlast
  have hbreak : '\n' ∉ last :=
    Text.break_not_mem_of_mem_lines (hlines ▸ List.mem_append_right _ List.mem_cons_self)
  have hne : last ≠ [] := by
    rintro rfl
    obtain ⟨c, hc, -⟩ := hlast'
    cases hc
  rw [continuationLines, continuationLines, rowsOf_of_lines hlines, rowsOf_of_lines hlines',
    if_neg (by simp), if_neg (mt List.isEmpty_iff.1 hne),
    readRows_colon hbreak hlast' fun o ho => by cases ho]

end

end Stencil.Script
