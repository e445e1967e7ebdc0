import Stencil.Proofs.Program.Colon
import Stencil.Proofs.Program.Indentation
import Stencil.Proofs.Script.Shift

/-!
# Statements indented under their marker

The common indentation of a statement is that of all its lines. So a statement whose first lines of logical
lines are moved to the right is the same statement, unless a line that goes on with a logical line, and is
not moved, holds anything (`codeLines_indented_iff`).
-/

namespace Stencil

/-! ## Common indentation -/

namespace Text

/-- What two texts start with in common is at the start of both. -/
theorem commonStart_isPrefix_both (a b : Text) : commonStart a b <+: a ∧ commonStart a b <+: b := by
  fun_induction commonStart a b with
  | case1 r c s ih => exact ⟨List.cons_prefix_cons.2 ⟨rfl, ih.1⟩, List.cons_prefix_cons.2 ⟨rfl, ih.2⟩⟩
  | case2 => exact ⟨List.nil_prefix, List.nil_prefix⟩
  | case3 => exact ⟨List.nil_prefix, List.nil_prefix⟩

/-- What is at the start of two texts is at the start of what they have in common. -/
theorem prefix_commonStart {p a b : Text} (ha : p <+: a) (hb : p <+: b) : p <+: commonStart a b := by
  induction p generalizing a b with
  | nil => exact List.nil_prefix
  | cons c p ih =>
      obtain ⟨a', rfl⟩ := ha
      obtain ⟨b', rfl⟩ := hb
      rw [List.cons_append, List.cons_append, commonStart, if_pos rfl]
      exact List.cons_prefix_cons.2 ⟨rfl, ih (List.prefix_append _ _) (List.prefix_append _ _)⟩

/-- What several texts start with in common is at the start of each, and all of what is. -/
theorem prefix_foldl_commonStart {p first : Text} {ls : List Text} :
    p <+: ls.foldl commonStart first ↔ p <+: first ∧ ∀ l ∈ ls, p <+: l := by
  induction ls generalizing first with
  | nil => simp
  | cons l ls ih =>
      rw [List.foldl_cons, ih, List.forall_mem_cons, ← and_assoc]
      refine and_congr_left fun _ => ⟨fun h => ?_, fun h => prefix_commonStart h.1 h.2⟩
      exact ⟨h.trans (commonStart_isPrefix_both first l).1, h.trans (commonStart_isPrefix_both first l).2⟩

/-- What is at the start of the margin is what all lines start with that hold more than gaps. -/
theorem prefix_margin {p : Text} {ls : List Text} (h : ∃ l ∈ ls, ¬ l.all isGap) :
    p <+: margin ls ↔ ∀ l ∈ ls, ¬ l.all isGap → p <+: l.takeWhile isGap := by
  have hmem : ∀ g, g ∈ (ls.filter fun l => !l.all isGap).map (·.takeWhile isGap) ↔
      ∃ l ∈ ls, ¬ l.all isGap ∧ l.takeWhile isGap = g := by
    intro g
    simp [and_assoc]
  have hiff : p <+: margin ls ↔
      ∀ g ∈ (ls.filter fun l => !l.all isGap).map (·.takeWhile isGap), p <+: g := by
    rw [margin]
    split
    · next hnil =>
        obtain ⟨l, hl, hgaps⟩ := h
        have hnone := (hmem (l.takeWhile isGap)).2 ⟨l, hl, hgaps, rfl⟩
        rw [hnil] at hnone
        cases hnone
    · next first rest hcons => rw [hcons, prefix_foldl_commonStart, List.forall_mem_cons]
  rw [hiff]
  constructor
  · exact fun hall l hl hgaps => hall _ ((hmem _).2 ⟨l, hl, hgaps, rfl⟩)
  · intro hall g hg
    obtain ⟨l, hl, hgaps, rfl⟩ := (hmem g).1 hg
    exact hall l hl hgaps

/-- Lines of gaps have no margin. -/
theorem margin_of_gaps {ls : List Text} (h : ∀ l ∈ ls, l.all isGap) : margin ls = [] := by
  have hnil : ls.filter (fun l => !l.all isGap) = [] :=
    List.filter_eq_nil_iff.2 fun l hl => by simp [h l hl]
  rw [margin, hnil]
  rfl

/-- A line with further gaps in front, unless it holds only gaps. -/
def indentLine (w l : Text) : Text :=
  if l.all isGap then l else w ++ l

/-- A line holds only gaps with further gaps in front exactly when it does without. -/
theorem all_indentLine {w l : Text} : (indentLine w l).all isGap = l.all isGap := by
  rw [indentLine]
  split
  · rfl
  · next h => simp [h]

/-- The margin of indented lines is that of the lines with the further gaps in front. -/
theorem margin_indent {w : Text} (hw : w.all isGap) {ls : List Text} (h : ∃ l ∈ ls, ¬ l.all isGap) :
    margin (ls.map (indentLine w)) = w ++ margin ls := by
  have hmore : ∃ l ∈ ls.map (indentLine w), ¬ l.all isGap := by
    obtain ⟨l, hl, hgaps⟩ := h
    exact ⟨_, List.mem_map_of_mem hl, by rwa [all_indentLine]⟩
  have hgaps {l : Text} (hl : ¬ l.all isGap) : (indentLine w l).takeWhile isGap = w ++ l.takeWhile isGap := by
    rw [indentLine, if_neg hl, List.takeWhile_append_of_pos (List.all_eq_true.1 hw)]
  have hstart {p : Text} : p <+: margin (ls.map (indentLine w)) ↔
      ∀ l ∈ ls, ¬ l.all isGap → p <+: w ++ l.takeWhile isGap := by
    rw [prefix_margin hmore, List.forall_mem_map]
    refine forall₂_congr fun l _ => ?_
    rw [all_indentLine]
    exact forall_congr' fun hl => by rw [hgaps hl]
  -- the margin starts with the gaps in front, and what follows them is shared by the lines
  obtain ⟨q, hq⟩ : w <+: margin (ls.map (indentLine w)) := hstart.2 fun l _ _ => List.prefix_append _ _
  have hfirst : q <+: margin ls := (prefix_margin h).2 fun l hl hgaps =>
    (List.prefix_append_right_inj w).1 (hstart.1 (hq ▸ List.prefix_refl _) l hl hgaps)
  have hsecond : w ++ margin ls <+: margin (ls.map (indentLine w)) := hstart.2 fun l hl hgaps =>
    (List.prefix_append_right_inj w).2 ((prefix_margin h).1 (List.prefix_refl _) l hl hgaps)
  rw [← hq] at hsecond ⊢
  have hlen := hsecond.length_le
  have hlen' := hfirst.length_le
  rw [List.length_append, List.length_append] at hlen
  rw [hfirst.eq_of_length (by omega)]

/-- An indented line without the margin is the line without the margin. -/
theorem dedentLine_indentLine {w : Text} (width : Nat) (l : Text) :
    dedentLine (w.length + width) (indentLine w l) = dedentLine width l := by
  rw [dedentLine, dedentLine, all_indentLine]
  split
  · rfl
  · next h => rw [indentLine, if_neg h, List.drop_append, List.drop_eq_nil_of_le (Nat.le_add_right _ _),
      Nat.add_sub_cancel_left, List.nil_append]

/-- Empty lines around lines leave their margin. -/
theorem margin_between (ls : List Text) : margin ([] :: ls ++ [[]]) = margin ls := by
  rw [margin, margin]
  simp

/-- A line break behind a text ends its last line. -/
theorem lines_concat_break (t : Text) : lines (t ++ ['\n']) = lines t ++ [[]] := by
  induction t with
  | nil => rfl
  | cons c r ih =>
      by_cases hc : c = '\n'
      · subst hc
        rw [List.cons_append, lines_break, lines_break, ih]
        rfl
      · obtain ⟨l, ls, hr, hcons⟩ := lines_cons hc r
        obtain ⟨l', ls', hr', hcons'⟩ := lines_cons hc (r ++ ['\n'])
        rw [hr', hr, List.cons_append] at ih
        obtain ⟨rfl, rfl⟩ := List.cons.inj ih
        rw [List.cons_append, hcons', hcons]
        rfl

end Text

/-! ## Statements under their marker -/

/-- A statement whose lines are moved to the right under its marker, which stands on a line of its own. The
lines that go on with a logical line stay as they are, and so do lines of gaps. -/
def indentedUnderMarker (w code : Text) : Text :=
  '\n' :: (Text.joinLines ((Text.lines code).zipIdx.map fun x =>
    if x.2 ∈ Script.continuationLines code then x.1 else Text.indentLine w x.1) ++ ['\n'])

/-- A line on which a logical line of a script starts. -/
def Script.StartsLogical (code : Text) (i : Nat) (l : Text) : Prop :=
  (Text.lines code)[i]? = some l ∧ i ∉ continuationLines code ∧ ¬ Codeless l

/-- Whether the logical lines of a script share no indentation: where one starts with a gap, another one
starts with something else. -/
def Script.SharesNoIndentation (code : Text) : Prop :=
  ∀ i l, StartsLogical code i l → ∀ c, l.head? = some c → Text.isGap c →
    ∃ j l', StartsLogical code j l' ∧ l'.head? ≠ some c

/-- Whether the logical lines of a script end where they do when a line break follows. A remark or a line
of gaps behind a backslash would end the last one only then. -/
def Script.EndsItself (code : Text) : Prop :=
  continuationLines (code ++ ['\n']) = continuationLines code

section

variable {w code : Text}

/-- The lines of a statement that is moved to the right. -/
theorem lines_indentedUnderMarker (hw : w.all Text.isGap) :
    Text.lines (indentedUnderMarker w code) = [] :: ((Text.lines code).zipIdx.map fun x =>
      if x.2 ∈ Script.continuationLines code then x.1 else Text.indentLine w x.1) ++ [[]] := by
  rw [indentedUnderMarker, Text.lines_break, Text.lines_concat_break, Text.lines_joinLines]
  · rfl
  · simpa using Text.lines_ne_nil code
  · intro l hl hbreak
    obtain ⟨x, hx, rfl⟩ := List.mem_map.1 hl
    have hx : '\n' ∉ x.1 := Text.break_not_mem_of_mem_lines (List.fst_mem_of_mem_zipIdx hx)
    have hw' : '\n' ∉ w := fun h => absurd (List.all_eq_true.1 hw _ h) (by decide)
    rw [Text.indentLine] at hbreak
    split at hbreak
    · exact hx hbreak
    · split at hbreak
      · exact hx hbreak
      · exact (List.mem_append.1 hbreak).elim hw' hx

/-- A statement in which nothing but gaps goes on with a logical line has the same lines, one line further
down, when it is moved to the right. -/
theorem codeLines_indented (hw : w.all Text.isGap)
    (hgaps : ∀ i l, (Text.lines code)[i]? = some l → i ∈ Script.continuationLines code → l.all Text.isGap)
    (hends : Script.EndsItself (Text.dedent code)) (line : Int) :
    codeLines (indentedUnderMarker w code) line = codeLines code (line + 1) := by
  have hlines : Text.lines (indentedUnderMarker w code) =
      [] :: (Text.lines code).map (Text.indentLine w) ++ [[]] := by
    rw [lines_indentedUnderMarker hw]
    refine congrArg (fun ls : List Text => [] :: ls ++ [[]]) ?_
    conv => rhs; rw [← List.zipIdx_map_fst 0 (Text.lines code), List.map_map]
    refine List.map_congr_left fun x hx => ?_
    split
    · next hx' =>
        have hall := hgaps x.2 x.1 (List.mk_mem_zipIdx_iff_getElem?.1 hx) hx'
        exact (if_pos hall).symm
    · rfl
  -- without its margin a line is what it was
  have hundent : ∀ l ∈ Text.lines code,
      Text.dedentLine (Text.margin (Text.lines (indentedUnderMarker w code))).length (Text.indentLine w l) =
        Text.dedentLine (Text.margin (Text.lines code)).length l := by
    intro l hl
    rw [hlines, Text.margin_between]
    by_cases hink : ∃ l ∈ Text.lines code, ¬ l.all Text.isGap
    · rw [Text.margin_indent hw hink, List.length_append]
      exact Text.dedentLine_indentLine _ l
    · have hall : l.all Text.isGap := Classical.not_not.1 fun h => hink ⟨l, hl, h⟩
      have hall' : (Text.indentLine w l).all Text.isGap := by rwa [Text.all_indentLine]
      rw [Text.dedentLine, Text.dedentLine, if_pos hall, if_pos hall']
  have hdedent : Text.dedent (indentedUnderMarker w code) = '\n' :: (Text.dedent code ++ ['\n']) := by
    rw [← Text.joinLines_lines (Text.dedent (indentedUnderMarker w code)),
      ← Text.joinLines_lines ('\n' :: (Text.dedent code ++ ['\n'])), Text.lines_dedent, hlines, Text.lines_break,
      Text.lines_concat_break, Text.lines_dedent]
    refine congrArg Text.joinLines ?_
    have hnil (n : Nat) : Text.dedentLine n [] = [] := rfl
    rw [List.map_append, List.map_cons, List.map_singleton, hnil, List.map_map]
    rw [← hlines]
    exact congrArg (fun ls : List Text => [] :: ls ++ [[]]) (List.map_congr_left hundent)
  have hcontinued : Script.continuationLines (Text.dedent (indentedUnderMarker w code)) =
      (Script.continuationLines (Text.dedent code)).map (· + 1) := by
    rw [hdedent, Script.continuationLines_cons_break, hends]
  have hmoved (i : Nat) : (Script.continuationLines (Text.dedent (indentedUnderMarker w code))).contains (i + 1) =
      (Script.continuationLines (Text.dedent code)).contains i := by
    rw [hcontinued, Bool.eq_iff_iff]
    simp
  have hline {x : Text × Nat} (hx : x ∈ (Text.lines code).zipIdx) :
      codeLine? (indentedUnderMarker w code) line (Text.indentLine w x.1, x.2 + 1) =
        codeLine? code (line + 1) x := by
    have hnumber : line + ((x.2 + 1 : Nat) : Int) = line + 1 + x.2 := by omega
    rw [codeLine?, codeLine?]
    dsimp only
    rw [hmoved, hmoved, hundent _ (List.fst_mem_of_mem_zipIdx hx), hnumber]
  -- the empty lines around the others are dropped
  have hfirst : codeLine? (indentedUnderMarker w code) line ([], 0) = none := by
    refine codeLine?_eq_none (hlines ▸ List.mem_cons_self) rfl ?_
    rw [hcontinued]
    simp
  have hlast : codeLine? (indentedUnderMarker w code) line ([], (Text.lines code).length + 1) = none := by
    refine codeLine?_eq_none (hlines ▸ List.mem_cons_self) rfl ?_
    rw [hcontinued, List.mem_map]
    rintro ⟨i, hi, heq⟩
    obtain ⟨ending, hrows, hlen, -⟩ := Script.rowsOf_eq (Text.dedent code)
    have hlt := Script.lt_of_mem_continuationLines hi
    have hpos := List.length_pos_iff.2 (Text.lines_ne_nil (Text.dedent code))
    rw [hrows, List.length_append, List.length_map, List.length_dropLast] at hlt
    rw [Text.lines_dedent, List.length_map] at hlt hpos
    omega
  have hmiddle : (((Text.lines code).map (Text.indentLine w)).zipIdx 1).filterMap
      (codeLine? (indentedUnderMarker w code) line) =
        (Text.lines code).zipIdx.filterMap (codeLine? code (line + 1)) := by
    rw [List.zipIdx_map, List.zipIdx_eq_map_add, List.map_map, List.filterMap_map]
    refine List.filterMap_congr fun x hx => ?_
    rw [← hline hx, Nat.add_comm x.2 1]
    rfl
  rw [codeLines_eq, codeLines_eq, hlines, List.cons_append, List.zipIdx_cons, List.filterMap_cons_none hfirst,
    List.zipIdx_append, List.filterMap_append, Nat.zero_add, hmiddle, List.length_map, List.zipIdx_singleton,
    Nat.add_comm 1, List.filterMap_cons_none hlast, List.filterMap_nil, List.append_nil]

/-- A line of gaps holds no code. -/
theorem Script.codeless_of_gaps {l : Text} (h : l.all Text.isGap) : Codeless l := by
  induction l with
  | nil => exact .nil
  | cons c r ih =>
      rw [List.all_cons, Bool.and_eq_true] at h
      exact .gap (.inl (isRowGap_of_isGap h.1)) (ih h.2)

/-- A script whose logical lines share no indentation has no margin. -/
theorem margin_eq_nil (hshare : Script.SharesNoIndentation code)
    (h : ∃ i l, Script.StartsLogical code i l) : Text.margin (Text.lines code) = [] := by
  obtain ⟨i, l, hl⟩ := h
  have hink {j : Nat} {l : Text} (hl : Script.StartsLogical code j l) :
      l ∈ Text.lines code ∧ ¬ l.all Text.isGap :=
    ⟨List.mem_of_getElem? hl.1, fun hgaps => hl.2.2 (Script.codeless_of_gaps hgaps)⟩
  cases hmargin : Text.margin (Text.lines code) with
  | nil => rfl
  | cons c m =>
      -- every logical line starts with the first gap of the margin
      have hhead {j : Nat} {l : Text} (hl : Script.StartsLogical code j l) :
          l.head? = some c ∧ Text.isGap c := by
        have hstart := (Text.prefix_margin ⟨l, hink hl⟩).1 (List.prefix_refl _) l (hink hl).1 (hink hl).2
        rw [hmargin] at hstart
        obtain ⟨r, hr⟩ := hstart.trans (List.takeWhile_prefix _)
        exact ⟨hr ▸ rfl, List.mem_takeWhile_imp (hstart.subset List.mem_cons_self)⟩
      obtain ⟨j, l', hl', hne⟩ := hshare i l hl c (hhead hl).1 (hhead hl).2
      exact absurd (hhead hl').1 hne

/-- How a line of a statement that goes into the program is found in it. -/
theorem codeLine?_of_mem {line : Int} {e : CodeLine} (he : e ∈ codeLines code line) {k : Nat}
    (hline : e.line = line + k) {raw : Text} (hraw : (Text.lines code)[k]? = some raw) :
    codeLine? code line (raw, k) = some e := by
  rw [codeLines_eq] at he
  obtain ⟨⟨raw', k'⟩, hx, hcode⟩ := List.mem_filterMap.1 he
  have hnumber : e.line = line + k' := by
    rw [codeLine?] at hcode
    split at hcode
    · exact Option.some.inj hcode ▸ rfl
    · split at hcode
      · cases hcode
      · exact Option.some.inj hcode ▸ rfl
  obtain rfl : k' = k := by omega
  obtain rfl := Option.some.inj ((List.mk_mem_zipIdx_iff_getElem?.1 hx).symm.trans hraw)
  exact hcode

/-- A line of a statement on which a logical line starts keeps the gaps in front that are not common to all
lines. -/
theorem takeWhile_of_codeLine? {line : Int} {x : Text × Nat} {e : CodeLine}
    (h : codeLine? code line x = some e) (hstarts : e.starts) : e.text.takeWhile Text.isGap =
      (Text.dedentLine (Text.margin (Text.lines code)).length x.1).takeWhile Text.isGap := by
  rw [codeLine?] at h
  split at h
  · obtain rfl := Option.some.inj h
    cases hstarts
  split at h
  · cases h
  · next htrim =>
      obtain rfl := Option.some.inj h
      dsimp only
      split
      · rfl
      · rw [← Text.trim_trimEnd] at htrim
        obtain ⟨ending, heq, -⟩ :=
          Text.exists_blank_ending (Text.dedentLine (Text.margin (Text.lines code)).length x.1)
        conv => rhs; rw [heq]
        exact (Text.takeWhile_append (Text.not_all_gaps htrim) ending).symm

/-- A statement that has the same lines when it is moved to the right has nothing but gaps on lines that go
on with a logical line. -/
theorem gaps_of_codeLines_indented (hw : w.all Text.isGap) (hne : w ≠ []) (hread : Script.Readable code)
    (hdedent : Script.Readable (Text.dedent code)) (hshare : Script.SharesNoIndentation code) {line : Int}
    (h : codeLines (indentedUnderMarker w code) line = codeLines code (line + 1)) {i : Nat} {l : Text}
    (hl : (Text.lines code)[i]? = some l) (hi : i ∈ Script.continuationLines code) : l.all Text.isGap := by
  refine Classical.byContradiction fun hink => ?_
  have hcontinued := Script.continuationLines_dedent hread hdedent
  obtain ⟨k, first, hk, hstart, hnext, hpasses⟩ := exists_start_of_continued hi (List.getElem?_eq_some_iff.1 hl).1
  have hbreak : '\n' ∉ first := Text.break_not_mem_of_mem_lines (List.mem_of_getElem? hk)
  have hlogical : Script.StartsLogical code k first := ⟨hk, hstart, fun hcodeless => hpasses (hcodeless.passes hbreak)⟩
  have hmargin := margin_eq_nil hshare ⟨k, first, hlogical⟩
  have hfirst : ¬ first.all Text.isGap := fun hgaps => hlogical.2.2 (Script.codeless_of_gaps hgaps)
  -- the lines of the statement that is moved
  have hmoved {j : Nat} {raw : Text} (hraw : (Text.lines code)[j]? = some raw) :
      (Text.lines (indentedUnderMarker w code))[j + 1]? =
        some (if j ∈ Script.continuationLines code then raw else Text.indentLine w raw) := by
    have hlt := (List.getElem?_eq_some_iff.1 hraw).1
    rw [lines_indentedUnderMarker hw, List.cons_append, List.getElem?_cons_succ,
      List.getElem?_append_left (by simpa using hlt), List.getElem?_map, List.getElem?_zipIdx, hraw, Nat.zero_add]
    rfl
  have hfound {j : Nat} {raw : Text} {e : CodeLine} (hraw : (Text.lines code)[j]? = some raw)
      (hcode : codeLine? code (line + 1) (raw, j) = some e) (hline : e.line = line + 1 + j) :
      codeLine? (indentedUnderMarker w code) line
        (if j ∈ Script.continuationLines code then raw else Text.indentLine w raw, j + 1) = some e := by
    refine codeLine?_of_mem ?_ (hline.trans (by omega)) (hmoved hraw)
    rw [h, codeLines_eq]
    exact List.mem_filterMap.2 ⟨(raw, j), List.mk_mem_zipIdx_iff_getElem?.2 hraw, hcode⟩
  have hstays {raw : Text} (hraw : ¬ raw.all Text.isGap) :
      Text.dedentLine (Text.margin (Text.lines code)).length raw = raw := by
    rw [hmargin, Text.dedentLine, if_neg hraw]
    rfl
  by_cases hwidth : w.length ≤ (Text.margin (Text.lines (indentedUnderMarker w code))).length
  · -- what is removed of the first lines is removed of the others too
    have hcode : codeLine? code (line + 1) (l, i) = some ⟨line + 1 + i, l, false⟩ := by
      rw [codeLine?_continued (hcontinued ▸ hi), hstays hink]
    have hmore := hfound hl hcode rfl
    rw [if_pos hi, codeLine?] at hmore
    have htext : Text.dedentLine (Text.margin (Text.lines (indentedUnderMarker w code))).length l = l := by
      split at hmore
      · exact congrArg CodeLine.text (Option.some.inj hmore)
      · split at hmore
        · cases hmore
        · cases congrArg CodeLine.starts (Option.some.inj hmore)
    have hlen := congrArg List.length htext
    have hpos := List.length_pos_iff.2 hne
    have hpos' : 0 < l.length := List.length_pos_iff.2 fun hnil => hink (hnil ▸ rfl)
    rw [Text.dedentLine, if_neg hink, List.length_drop] at hlen
    omega
  · -- gaps are left in front of the first lines
    obtain ⟨e, hcode, hline, hstarts⟩ : ∃ e, codeLine? code (line + 1) (first, k) = some e ∧
        e.line = line + 1 + k ∧ e.starts := by
      have htrim : ¬ (Text.trim first).isEmpty := by
        rw [List.isEmpty_iff, Text.trim_eq_nil]
        refine fun hblank => hpasses (Script.passes_of_isBlank ?_ (by simp))
        rw [List.all_append, hblank]
        rfl
      rw [codeLine?, hstays hfirst, hcontinued, if_neg (by simpa using hstart), if_neg htrim]
      exact ⟨_, rfl, rfl, rfl⟩
    have hgaps := takeWhile_of_codeLine? hcode hstarts
    have hmore := takeWhile_of_codeLine? (hfound hk hcode hline) hstarts
    rw [if_neg hstart] at hmore
    have hnot : ¬ (Text.indentLine w first).all Text.isGap := by rwa [Text.all_indentLine]
    rw [hgaps, hstays hfirst, Text.dedentLine, if_neg hnot, Text.indentLine, if_neg hfirst,
      List.drop_append_of_le_length (by omega), List.takeWhile_append_of_pos] at hmore
    · have hlen := congrArg List.length hmore
      rw [List.length_append, List.length_drop] at hlen
      omega
    · exact fun c hc => List.all_eq_true.1 hw c (List.mem_of_mem_drop hc)

/-- Moving a statement to the right under its marker, with the lines on which its logical lines start,
leaves its lines, one line further down, exactly when nothing but gaps stands on the lines that go on with a
logical line. Then all programs with the statement are the same. -/
theorem codeLines_indented_iff (hw : ∀ c ∈ w, c = ' ') (hne : w ≠ []) (hread : Script.Readable code)
    (hdedent : Script.Readable (Text.dedent code)) (hshare : Script.SharesNoIndentation code)
    (hends : Script.EndsItself (Text.dedent code)) (line : Int) :
    (codeLines (indentedUnderMarker w code) line = codeLines code (line + 1) ↔
      ∀ i l, (Text.lines code)[i]? = some l → i ∈ Script.continuationLines code → l.all Text.isGap) ∧
    (codeLines (indentedUnderMarker w code) line = codeLines code (line + 1) →
      ∀ (template : String) (strict : Bool) (before after : List Instruction),
        generate template strict (before ++ .runStatement (indentedUnderMarker w code) line :: after) =
          generate template strict (before ++ .runStatement code (line + 1) :: after)) := by
  have hgaps : w.all Text.isGap := List.all_eq_true.2 fun c hc => hw c hc ▸ rfl
  refine ⟨⟨fun h i l => gaps_of_codeLines_indented hgaps hne hread hdedent hshare h,
    fun h => codeLines_indented hgaps h hends line⟩, fun h template strict before after => ?_⟩
  -- a statement is added by its lines alone
  have hadd (b : Builder) : b.add template (.runStatement (indentedUnderMarker w code) line) =
      b.add template (.runStatement code (line + 1)) := by
    rw [Builder.add, Builder.add, Builder.addStatement, Builder.addStatement, h]
  rw [generate, generate, List.foldlM_append, List.foldlM_append]
  simp only [List.foldlM_cons, hadd]

end

/-- An assignment of a string whose second line stands at the start of the line. -/
def longString : Text := "x = '''\nabc'''".toList

/-- Moved to the right under its marker the assignment keeps its indentation, as the second line of the
string has none. -/
theorem not_codeLines_indented_longString :
    codeLines (indentedUnderMarker [' ', ' '] longString) 1 ≠ codeLines longString 2 ∧
    (codeLines (indentedUnderMarker [' ', ' '] longString) 1).map (·.text) =
      ["  x = '''".toList, "abc'''".toList] ∧
    (codeLines longString 2).map (·.text) = ["x = '''".toList, "abc'''".toList] := by
  have hlines : Text.lines longString = ["x = '''".toList, "abc'''".toList] := by decide +kernel
  have hcontinued : Script.continuationLines longString = [1] := by decide +kernel
  have hread : Script.Readable longString := by
    unfold Script.Readable
    decide +kernel
  have hdedent : Script.Readable (Text.dedent longString) := by
    unfold Script.Readable
    decide +kernel
  have hshare : Script.SharesNoIndentation longString := by
    rintro i l ⟨hl, hi, -⟩ c hc hgap
    rw [hlines] at hl
    rw [hcontinued] at hi
    match i, hl, hi with
    | 0, hl, _ =>
        obtain rfl := Option.some.inj hl
        obtain rfl := Option.some.inj hc
        cases hgap
    | 1, _, hi => exact absurd List.mem_cons_self hi
    | i + 2, hl, _ => cases hl
  have hends : Script.EndsItself (Text.dedent longString) := by
    unfold Script.EndsItself
    decide +kernel
  refine ⟨fun h => ?_, by decide +kernel, by decide +kernel⟩
  have hgaps := (codeLines_indented_iff (by simp) (by simp) hread hdedent hshare hends 1).1.1 h 1
    "abc'''".toList (by rw [hlines]; rfl) (hcontinued ▸ List.mem_singleton_self 1)
  exact absurd hgaps (by decide +kernel)

end Stencil
