import Mathlib.Data.List.DropRight
import Stencil.Text.Basic
import Stencil.Text.Letter

/-!
# Lines, blanks and margins

Splitting undoes joining (`lines_joinLines`), so removing the common indentation of a text works line
by line (`lines_dedent`). It takes nothing from a line but gaps at its start, and so leaves what the
line is without its blanks (`trim_dedentLine`).

A text gets a carriage return in front of each line break. Where the text itself holds none, its lines
are the same but for a carriage return at their ends (`lines_withReturns`), and trimmed they are the same
(`trim_returns`). A line of gaps is no longer one when a carriage return follows them.
-/

namespace Stencil.Text

/-! ## Blanks -/

/-- Gaps are blank. -/
theorem isBlank_of_isGap {c : Char} (h : isGap c) : isBlank c := by
  have hc : c = ' ' ∨ c = '\t' := by simpa [isGap] using h
  rcases hc with rfl | rfl <;> rfl

/-- The code points of the blanks. -/
def blankCodes : List Nat :=
  List.range' 9 5 ++ List.range' 28 5 ++ [0x85, 0xa0, 0x1680] ++ List.range' 0x2000 11 ++
    [0x2028, 0x2029, 0x202f, 0x205f, 0x3000]

/-- What holds of the characters with these code points holds of all blanks. -/
theorem forall_blank {P : Char → Prop} (h : ∀ n ∈ blankCodes, P (Char.ofNat n)) {c : Char}
    (hc : isBlank c) : P c := by
  have hmem : c.toNat ∈ blankCodes := by
    simp only [isBlank, Bool.or_eq_true, Bool.and_eq_true, decide_eq_true_eq, beq_iff_eq] at hc
    simp only [blankCodes, List.mem_append, List.mem_range'_1, List.mem_cons, List.not_mem_nil,
      or_false]
    omega
  rw [← Char.ofNat_toNat c]
  exact h _ hmem

/-- Blanks are no word characters, start no name and go on none. -/
theorem nameless_of_isBlank {c : Char} (h : isBlank c) :
    ¬ isWord c ∧ isNameStart c = false ∧ isNameRest c = false := by
  refine forall_blank (P := fun c => ¬ isWord c ∧ isNameStart c = false ∧ isNameRest c = false) ?_ h
  decide +kernel

/-- Blanks in front are removed. -/
theorem trimStart_cons_blank {c : Char} (h : isBlank c) (r : Text) :
    trimStart (c :: r) = trimStart r :=
  List.dropWhile_cons_of_pos h

/-- Nothing is removed in front of a character that is not blank. -/
theorem trimStart_cons {c : Char} (h : ¬ isBlank c) (r : Text) : trimStart (c :: r) = c :: r :=
  List.dropWhile_cons_of_neg h

/-- A text of blanks is removed at its start. -/
theorem trimStart_eq_nil {t : Text} : trimStart t = [] ↔ t.all isBlank := by
  rw [trimStart, List.dropWhile_eq_nil_iff, List.all_eq_true]

/-- Blanks at the end are removed behind the first character as behind the others, unless the whole
text is blank. -/
theorem trimEnd_cons (c : Char) (r : Text) :
    trimEnd (c :: r) = if (c :: r).all isBlank then [] else c :: trimEnd r := by
  rw [trimEnd, List.reverse_cons, List.dropWhile_append]
  by_cases hr : r.all isBlank
  · have hdrop : r.reverse.dropWhile isBlank = [] := by
      simpa [List.dropWhile_eq_nil_iff] using hr
    by_cases hc : isBlank c <;> simp_all [trimEnd]
  · have hdrop : r.reverse.dropWhile isBlank ≠ [] := by
      simpa [List.dropWhile_eq_nil_iff] using hr
    simp [hr, hdrop, trimEnd]

/-- A text of blanks is removed at its end. -/
theorem trimEnd_eq_nil {t : Text} : trimEnd t = [] ↔ t.all isBlank := by
  simp [trimEnd, List.dropWhile_eq_nil_iff]

/-- Both ends can be trimmed in either order. -/
theorem trimStart_trimEnd (t : Text) : trimStart (trimEnd t) = trimEnd (trimStart t) := by
  induction t with
  | nil => rfl
  | cons c r ih =>
      rw [trimEnd_cons]
      by_cases hc : isBlank c
      · by_cases hr : r.all isBlank
        · rw [trimStart_cons_blank hc, trimStart_eq_nil.2 hr]
          simp [hc, hr, trimStart, trimEnd]
        · rw [if_neg (by simp [hc, hr]), trimStart_cons_blank hc, trimStart_cons_blank hc, ih]
      · rw [if_neg (by simp [hc]), trimStart_cons hc, trimStart_cons hc, trimEnd_cons,
          if_neg (by simp [hc])]

/-- Blanks at the end are removed once. -/
theorem trimEnd_trimEnd (t : Text) : trimEnd (trimEnd t) = trimEnd t := by
  rw [trimEnd, trimEnd, List.reverse_reverse, List.dropWhile_idempotent]

/-- A text is trimmed as it is without the blanks at its end. -/
theorem trim_trimEnd (t : Text) : trim (trimEnd t) = trim t := by
  rw [trim, trim, trimStart_trimEnd, trimEnd_trimEnd]

/-- Trimming twice is trimming. -/
theorem trim_trim (t : Text) : trim (trim t) = trim t := by
  conv => lhs; rw [trim, trim, trimStart_trimEnd, trimEnd_trimEnd]
  rw [trimStart, trimStart, List.dropWhile_idempotent]
  rfl

/-- A text is what is left without the blanks at its end, and these blanks. -/
theorem exists_blank_ending (t : Text) :
    ∃ ending, t = trimEnd t ++ ending ∧ ending.all isBlank := by
  refine ⟨(t.reverse.takeWhile isBlank).reverse, ?_, ?_⟩
  · rw [trimEnd, ← List.reverse_append, List.takeWhile_append_dropWhile, List.reverse_reverse]
  · rw [List.all_reverse, List.all_eq_true]
    exact fun c hc => List.mem_takeWhile_imp hc

/-- What is left without the blanks at the end is part of a text. -/
theorem mem_of_mem_trimEnd {t : Text} {c : Char} (h : c ∈ trimEnd t) : c ∈ t := by
  obtain ⟨ending, heq, -⟩ := exists_blank_ending t
  rw [heq]
  exact List.mem_append_left _ h

/-- What is left of a trimmed text is part of it. -/
theorem mem_of_mem_trim {t : Text} {c : Char} (h : c ∈ trim t) : c ∈ t :=
  (List.dropWhile_suffix isBlank).subset (mem_of_mem_trimEnd h)

/-- What is not left of a trimmed text is blank. -/
theorem isBlank_or_mem_trim {t : Text} {c : Char} (h : c ∈ t) : isBlank c ∨ c ∈ trim t := by
  rw [← List.takeWhile_append_dropWhile (p := isBlank) (l := t), List.mem_append] at h
  rcases h with h | h
  · exact .inl (List.mem_takeWhile_imp h)
  · obtain ⟨ending, heq, hblank⟩ := exists_blank_ending (trimStart t)
    rw [← trimStart, heq, List.mem_append] at h
    exact h.symm.imp_left (List.all_eq_true.1 hblank c)

/-- Nothing is left of a trimmed text when it is blank. -/
theorem trim_eq_nil {t : Text} : trim t = [] ↔ t.all isBlank := by
  rw [trim, ← trimStart_trimEnd, trimStart_eq_nil]
  induction t with
  | nil => rfl
  | cons c r ih =>
      rw [trimEnd_cons]
      by_cases h : (c :: r).all isBlank
      · simp [h]
      · rw [if_neg h]
        by_cases hc : isBlank c
        · simpa [hc] using ih
        · simp [hc]

/-- Gaps in front of a text do not matter once blanks are removed there. -/
theorem trimStart_drop_gaps {t : Text} {n : Nat} (h : n ≤ (t.takeWhile isGap).length) :
    trimStart (t.drop n) = trimStart t := by
  induction t generalizing n with
  | nil => simp
  | cons c r ih =>
      cases n with
      | zero => rfl
      | succ n =>
          by_cases hc : isGap c
          · rw [List.takeWhile_cons_of_pos hc, List.length_cons] at h
            rw [List.drop_succ_cons, trimStart_cons_blank (isBlank_of_isGap hc)]
            exact ih (by omega)
          · rw [List.takeWhile_cons_of_neg hc] at h
            exact absurd h (Nat.not_succ_le_zero n)

/-! ## Lines -/

/-- A line break starts a new line. -/
theorem lines_break (r : Text) : lines ('\n' :: r) = [] :: lines r := rfl

/-- Another character belongs to the first line. -/
theorem lines_cons {c : Char} (hc : c ≠ '\n') (r : Text) :
    ∃ l ls, lines r = l :: ls ∧ lines (c :: r) = (c :: l) :: ls := by
  cases hr : lines r with
  | nil => exact absurd hr (lines_ne_nil r)
  | cons l ls => exact ⟨l, ls, rfl, by simp [lines, hc, hr]⟩

/-- Lines hold no line breaks. -/
theorem break_not_mem_of_mem_lines {t l : Text} (h : l ∈ lines t) : '\n' ∉ l := by
  induction t generalizing l with
  | nil =>
      rw [List.mem_singleton.1 h]
      exact List.not_mem_nil
  | cons c r ih =>
      by_cases hc : c = '\n'
      · subst hc
        rw [lines_break, List.mem_cons] at h
        rcases h with rfl | h
        · exact List.not_mem_nil
        · exact ih h
      · obtain ⟨l', ls, hr, hlines⟩ := lines_cons hc r
        rw [hlines, List.mem_cons] at h
        rcases h with rfl | h
        · have hl' := ih (hr ▸ List.mem_cons_self)
          simpa [Ne.symm hc] using hl'
        · exact ih (hr ▸ List.mem_cons_of_mem _ h)

/-- The characters of a line are characters of the text. -/
theorem mem_of_mem_lines {t l : Text} (h : l ∈ lines t) {c : Char} (hc : c ∈ l) : c ∈ t := by
  induction t generalizing l with
  | nil =>
      rw [List.mem_singleton.1 h] at hc
      exact hc
  | cons d r ih =>
      by_cases hd : d = '\n'
      · subst hd
        rw [lines_break, List.mem_cons] at h
        rcases h with rfl | h
        · exact absurd hc List.not_mem_nil
        · exact List.mem_cons_of_mem _ (ih h hc)
      · obtain ⟨l', ls, hr, hlines⟩ := lines_cons hd r
        rw [hlines, List.mem_cons] at h
        rcases h with rfl | h
        · rcases List.mem_cons.1 hc with rfl | hc
          · exact List.mem_cons_self
          · exact List.mem_cons_of_mem _ (ih (hr ▸ List.mem_cons_self) hc)
        · exact List.mem_cons_of_mem _ (ih (hr ▸ List.mem_cons_of_mem _ h) hc)

/-- The lines of two texts with a line break between them. -/
theorem lines_append_cons_break (t u : Text) : lines (t ++ '\n' :: u) = lines t ++ lines u := by
  induction t with
  | nil => rfl
  | cons c r ih =>
      by_cases hc : c = '\n'
      · subst hc
        exact congrArg ([] :: ·) ih
      · obtain ⟨l, ls, hr, hlines⟩ := lines_cons hc r
        obtain ⟨l', ls', hr', hlines'⟩ := lines_cons hc (r ++ '\n' :: u)
        rw [ih, hr, List.cons_append] at hr'
        obtain ⟨rfl, rfl⟩ := List.cons.inj hr'
        rw [List.cons_append, hlines', hlines, List.cons_append]

/-- A text without line breaks is one line. -/
theorem lines_of_not_mem {l : Text} (hl : '\n' ∉ l) : lines l = [l] := by
  induction l with
  | nil => rfl
  | cons c l ih =>
      have hc : c ≠ '\n' := fun h => hl (h ▸ List.mem_cons_self)
      have ih := ih fun h => hl (List.mem_cons_of_mem _ h)
      simp [lines, hc, ih]

/-- The lines of a line followed by a line break and more. -/
theorem lines_append_break {l : Text} (hl : '\n' ∉ l) (r : Text) :
    lines (l ++ '\n' :: r) = l :: lines r := by
  rw [lines_append_cons_break, lines_of_not_mem hl, List.singleton_append]

/-- Splitting undoes joining. -/
theorem lines_joinLines {ls : List Text} (hne : ls ≠ []) (hls : ∀ l ∈ ls, '\n' ∉ l) :
    lines (joinLines ls) = ls := by
  induction ls with
  | nil => exact absurd rfl hne
  | cons l ls ih =>
      have hl := hls l List.mem_cons_self
      cases ls with
      | nil => exact lines_of_not_mem hl
      | cons l' ls =>
          rw [joinLines, lines_append_break hl,
            ih (List.cons_ne_nil _ _) fun l h => hls l (List.mem_cons_of_mem _ h)]
          exact List.cons_ne_nil _ _

/-- The line breaks of two texts in a row. -/
theorem breaks_append (t u : Text) : breaks (t ++ u) = breaks t + breaks u :=
  List.count_append

/-- A text without line breaks. -/
theorem breaks_eq_zero {t : Text} (h : '\n' ∉ t) : breaks t = 0 := List.count_eq_zero_of_not_mem h

/-- The lines of a text are one more than its line breaks. -/
theorem length_lines (t : Text) : (lines t).length = breaks t + 1 := by
  induction t with
  | nil => rfl
  | cons c r ih =>
      by_cases hc : c = '\n'
      · subst hc
        rw [lines_break, List.length_cons, ih, breaks, breaks, List.count_cons_self]
      · obtain ⟨l, ls, hr, hlines⟩ := lines_cons hc r
        rw [hr] at ih
        rw [hlines, breaks, List.count_cons_of_ne hc]
        exact ih

/-- A character stands on the line behind the line breaks in front of it. -/
theorem exists_line_of_append {c : Char} (hc : c ≠ '\n') (x y : Text) :
    ∃ l, (lines (x ++ c :: y))[breaks x]? = some l ∧ c ∈ l := by
  induction x with
  | nil =>
      obtain ⟨l, ls, -, hlines⟩ := lines_cons hc y
      exact ⟨_, congrArg (·[0]?) hlines, List.mem_cons_self⟩
  | cons d x ih =>
      obtain ⟨l, hl, hmem⟩ := ih
      by_cases hd : d = '\n'
      · subst hd
        refine ⟨l, ?_, hmem⟩
        rw [List.cons_append, lines_break, breaks, List.count_cons_self, List.getElem?_cons_succ]
        exact hl
      · obtain ⟨l', ls, hr, hlines⟩ := lines_cons hd (x ++ c :: y)
        rw [List.cons_append, hlines, breaks, List.count_cons_of_ne hd, ← breaks]
        rw [hr] at hl
        cases hn : breaks x with
        | zero =>
            rw [hn] at hl
            obtain rfl := Option.some.inj hl
            exact ⟨_, rfl, List.mem_cons_of_mem _ hmem⟩
        | succ n =>
            rw [hn] at hl
            exact ⟨l, hl, hmem⟩

/-! ## Common indentation -/

/-- A line without the first columns, or nothing when it holds only gaps. -/
def dedentLine (width : Nat) (l : Text) : Text :=
  if l.all isGap then [] else l.drop width

/-- The characters of a line without its first columns are characters of the line. -/
theorem mem_of_mem_dedentLine {width : Nat} {l : Text} {c : Char} (h : c ∈ dedentLine width l) :
    c ∈ l := by
  rw [dedentLine] at h
  split at h
  · exact absurd h List.not_mem_nil
  · exact List.mem_of_mem_drop h

/-- The common indentation is removed line by line. -/
theorem lines_dedent (t : Text) :
    lines (dedent t) = (lines t).map (dedentLine (margin (lines t)).length) := by
  refine lines_joinLines (by simpa using lines_ne_nil t) fun l h => ?_
  obtain ⟨l', hl', rfl⟩ := List.mem_map.1 h
  exact fun hmem => break_not_mem_of_mem_lines hl' (mem_of_mem_dedentLine hmem)

/-- What two texts start with in common is no longer than either. -/
theorem commonStart_length (a b : Text) :
    (commonStart a b).length ≤ a.length ∧ (commonStart a b).length ≤ b.length := by
  fun_induction commonStart a b with
  | case1 r c s ih => exact ⟨Nat.succ_le_succ ih.1, Nat.succ_le_succ ih.2⟩
  | case2 => exact ⟨Nat.zero_le _, Nat.zero_le _⟩
  | case3 => exact ⟨Nat.zero_le _, Nat.zero_le _⟩

/-- What several texts start with in common is no longer than any of them. -/
theorem foldl_commonStart_length (ls : List Text) (first : Text) :
    (ls.foldl commonStart first).length ≤ first.length ∧
      ∀ l ∈ ls, (ls.foldl commonStart first).length ≤ l.length := by
  induction ls generalizing first with
  | nil => simp
  | cons l ls ih =>
      obtain ⟨hfirst, hrest⟩ := ih (commonStart first l)
      obtain ⟨hl, hl'⟩ := commonStart_length first l
      refine ⟨Nat.le_trans hfirst hl, fun l' h => ?_⟩
      rcases List.mem_cons.1 h with rfl | h
      · exact Nat.le_trans hfirst hl'
      · exact hrest l' h

/-- The common indentation is no longer than the gaps at the start of a line that holds more than
gaps. -/
theorem margin_length_le {ls : List Text} {l : Text} (h : l ∈ ls) (hl : ¬ l.all isGap) :
    (margin ls).length ≤ (l.takeWhile isGap).length := by
  have hmem : l.takeWhile isGap ∈ (ls.filter fun l => !l.all isGap).map (·.takeWhile isGap) :=
    List.mem_map.2 ⟨l, List.mem_filter.2 ⟨h, by simpa using hl⟩, rfl⟩
  rw [margin]
  split
  · next hnil =>
      rw [hnil] at hmem
      exact absurd hmem List.not_mem_nil
  · next first rest hcons =>
      rw [hcons] at hmem
      obtain ⟨hfirst, hrest⟩ := foldl_commonStart_length rest first
      rcases List.mem_cons.1 hmem with heq | hmem
      · exact heq ▸ hfirst
      · exact hrest _ hmem

/-- The characters of joined lines are those of the lines, and line breaks. -/
theorem mem_joinLines {ls : List Text} {c : Char} (h : c ∈ joinLines ls) :
    c = '\n' ∨ ∃ l ∈ ls, c ∈ l := by
  induction ls with
  | nil => exact absurd h List.not_mem_nil
  | cons l ls ih =>
      cases ls with
      | nil => exact .inr ⟨l, List.mem_cons_self, h⟩
      | cons l' ls =>
          rw [joinLines, List.mem_append, List.mem_cons] at h
          · rcases h with h | rfl | h
            · exact .inr ⟨l, List.mem_cons_self, h⟩
            · exact .inl rfl
            · rcases ih h with rfl | ⟨l'', hl, hc⟩
              · exact .inl rfl
              · exact .inr ⟨l'', List.mem_cons_of_mem _ hl, hc⟩
          · exact List.cons_ne_nil _ _

/-- The characters of a text are those of its lines, and line breaks. -/
theorem mem_lines {t : Text} {c : Char} (h : c ∈ t) : c = '\n' ∨ ∃ l ∈ lines t, c ∈ l := by
  rw [← joinLines_lines t] at h
  exact mem_joinLines h

/-- The characters of a dedented text are those of the text, and line breaks. -/
theorem mem_of_mem_dedent {t : Text} {c : Char} (h : c ∈ dedent t) : c = '\n' ∨ c ∈ t := by
  rcases mem_joinLines h with rfl | ⟨l, hl, hc⟩
  · exact .inl rfl
  · obtain ⟨raw, hraw, rfl⟩ := List.mem_map.1 hl
    exact .inr (mem_of_mem_lines hraw (mem_of_mem_dedentLine hc))

/-- What is removed from a line with the common indentation are gaps. -/
theorem exists_gaps_dedentLine {ls : List Text} {l : Text} (h : l ∈ ls) :
    ∃ gaps : Text, gaps.all isGap ∧ l = gaps ++ dedentLine (margin ls).length l := by
  rw [dedentLine]
  split
  · next hgaps => exact ⟨l, hgaps, (List.append_nil l).symm⟩
  · next hgaps =>
      refine ⟨l.take (margin ls).length, List.all_eq_true.2 fun c hc => ?_,
        (List.take_append_drop _ _).symm⟩
      have hle := margin_length_le h hgaps
      rw [← List.takeWhile_append_dropWhile (p := isGap) (l := l),
        List.take_append_of_le_length hle] at hc
      exact List.mem_takeWhile_imp (List.mem_of_mem_take hc)

/-- Without its blanks a line is the same when the common indentation is removed. -/
theorem trim_dedentLine {ls : List Text} {l : Text} (h : l ∈ ls) :
    trim (dedentLine (margin ls).length l) = trim l := by
  rw [dedentLine]
  split
  · next hgaps =>
      have hblank : l.all isBlank := List.all_eq_true.2 fun c hc =>
        isBlank_of_isGap (List.all_eq_true.1 hgaps c hc)
      rw [trim_eq_nil.2 hblank]
      rfl
  · next hgaps => rw [trim, trim, trimStart_drop_gaps (margin_length_le h hgaps)]

/-- A line is blank when it is blank without the common indentation. -/
theorem blank_dedentLine {ls : List Text} {l : Text} (h : l ∈ ls) :
    (dedentLine (margin ls).length l).all isBlank = l.all isBlank := by
  rw [Bool.eq_iff_iff, ← trim_eq_nil, ← trim_eq_nil, trim_dedentLine h]

/-- The lines that dedenting leaves alone: an empty one, and without common indentation one that holds
more than gaps. -/
theorem dedentLine_eq_self {ls : List Text} {l : Text} (h : l ∈ ls) :
    dedentLine (margin ls).length l = l ↔ l = [] ∨ ¬ l.all isGap ∧ margin ls = [] := by
  rw [dedentLine]
  split
  · next hgaps =>
      exact ⟨fun h => .inl h.symm, fun h => (h.resolve_right fun h => h.1 hgaps).symm⟩
  · next hgaps =>
      have hle := Nat.le_trans (margin_length_le h hgaps) (List.takeWhile_prefix isGap).length_le
      have hne : l ≠ [] := by
        rintro rfl
        exact hgaps rfl
      have hpos := List.length_pos_iff.2 hne
      constructor
      · intro heq
        have hlen := congrArg List.length heq
        rw [List.length_drop] at hlen
        exact .inr ⟨hgaps, List.length_eq_zero_iff.1 (by omega)⟩
      · rintro (hnil | ⟨-, hmargin⟩)
        · exact absurd hnil hne
        · rw [hmargin]
          rfl

/-! ## Texts with carriage returns -/

/-- A text with a carriage return in front of each line break. -/
def withReturns : Text → Text
  | [] => []
  | c :: r => if c = '\n' then '\r' :: '\n' :: withReturns r else c :: withReturns r

/-- Line breaks get a carriage return. -/
@[simp] theorem withReturns_break (r : Text) : withReturns ('\n' :: r) = '\r' :: '\n' :: withReturns r :=
  if_pos rfl

/-- Other characters stay as they are. -/
theorem withReturns_cons {c : Char} (hc : c ≠ '\n') (r : Text) :
    withReturns (c :: r) = c :: withReturns r :=
  if_neg hc

/-- Two texts in a row. -/
theorem withReturns_append (t u : Text) : withReturns (t ++ u) = withReturns t ++ withReturns u := by
  induction t with
  | nil => rfl
  | cons c t ih =>
      by_cases hc : c = '\n'
      · subst hc
        rw [List.cons_append, withReturns_break, withReturns_break, ih]
        rfl
      · rw [List.cons_append, withReturns_cons hc, withReturns_cons hc, ih]
        rfl

/-- A text without line breaks stays as it is. -/
theorem withReturns_eq_self {t : Text} (h : '\n' ∉ t) : withReturns t = t := by
  induction t with
  | nil => rfl
  | cons c t ih =>
      rw [withReturns_cons fun hc => h (hc ▸ List.mem_cons_self),
        ih fun ht => h (List.mem_cons_of_mem c ht)]

/-- Only an empty text becomes empty. -/
theorem withReturns_eq_nil {t : Text} : withReturns t = [] ↔ t = [] := by
  cases t with
  | nil => exact Iff.rfl
  | cons c t =>
      by_cases hc : c = '\n'
      · simp [hc]
      · simp [withReturns_cons hc]

/-- No line breaks come or go. -/
@[simp] theorem breaks_withReturns (t : Text) : breaks (withReturns t) = breaks t := by
  induction t with
  | nil => rfl
  | cons c t ih =>
      rw [breaks, breaks] at *
      by_cases hc : c = '\n'
      · simp [hc, ih]
      · rw [withReturns_cons hc, List.count_cons, List.count_cons, ih]

/-- The characters are those of the text, and carriage returns. -/
theorem mem_of_mem_withReturns {t : Text} {c : Char} (h : c ∈ withReturns t) : c = '\r' ∨ c ∈ t := by
  induction t with
  | nil => exact .inr h
  | cons d t ih =>
      by_cases hd : d = '\n'
      · rw [hd, withReturns_break] at h
        rcases List.mem_cons.1 h with rfl | h
        · exact .inl rfl
        rcases List.mem_cons.1 h with rfl | h
        · exact .inr (hd ▸ List.mem_cons_self)
        · exact (ih h).imp_right (List.mem_cons_of_mem d)
      · rw [withReturns_cons hd] at h
        rcases List.mem_cons.1 h with rfl | h
        · exact .inr List.mem_cons_self
        · exact (ih h).imp_right (List.mem_cons_of_mem d)

/-! ## Lines -/

/-- A line with or without a carriage return at its end. -/
def Returns (l l' : Text) : Prop :=
  l' = l ∨ l' = l ++ ['\r']

/-- The lines are the same but for carriage returns at their ends. -/
theorem lines_withReturns (t : Text) : List.Forall₂ Returns (lines t) (lines (withReturns t)) := by
  induction t with
  | nil => exact .cons (.inl rfl) .nil
  | cons c t ih =>
      by_cases hc : c = '\n'
      · obtain ⟨l, ls, hlines, hcons⟩ := lines_cons (c := '\r') (by decide)
          ('\n' :: withReturns t)
        rw [lines_break] at hlines
        obtain ⟨rfl, rfl⟩ := List.cons.inj hlines
        rw [hc, withReturns_break, lines_break, hcons]
        exact .cons (.inr rfl) ih
      · obtain ⟨l, ls, hlines, hcons⟩ := lines_cons hc t
        obtain ⟨l', ls', hlines', hcons'⟩ := lines_cons hc (withReturns t)
        rw [hlines, hlines'] at ih
        rw [withReturns_cons hc, hcons, hcons']
        cases ih with
        | cons hl hls => exact .cons (hl.imp (congrArg _) (congrArg _)) hls

/-- A carriage return at the end of a line is trimmed off. -/
theorem trimEnd_returns {l l' : Text} (h : Returns l l') : trimEnd l' = trimEnd l := by
  rcases h with rfl | rfl
  · rfl
  · rw [trimEnd, trimEnd, List.reverse_append]
    rfl

/-- Trimmed the lines are the same. -/
theorem trim_returns {l l' : Text} (h : Returns l l') : trim l' = trim l := by
  rw [trim, trim, ← trimStart_trimEnd, ← trimStart_trimEnd, trimEnd_returns h]

end Stencil.Text
