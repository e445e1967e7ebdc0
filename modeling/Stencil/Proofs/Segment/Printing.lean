import Stencil.Proofs.Segment.Positions

/-!
# Printing segments

A segment is printed as its text, a directive with one space at each end of its code. Which lists of
segments the scan gives is said by conditions on what is printed around each segment (`WellFormed`):
scanning what was printed gives a list back exactly when it meets them, and every list that the scan
gives meets them (`scan_printAll_iff_wellFormed`).
-/

namespace Stencil

open Segment (openMark closeMark)

/-- The text of a directive, with a space between its code and each bracket. -/
def Directive.print (d : Directive) : Text :=
  d.lspace.getD [] ++ (openMark ++ (d.kind.mark ++ ((' ' :: (d.code ++ [' '])) ++
    (closeMark ++ d.rspace.getD []))))

namespace Segment

/-- The text of a segment. -/
def print : Segment → Text
  | literal t _ => t
  | directive d => d.print

/-- The text of segments in a row. -/
def printAll (segments : List Segment) : Text :=
  segments.flatMap print

/-- The line of a segment. -/
def line : Segment → Int
  | literal _ l => l
  | directive d => d.line

/-- A segment on another line. -/
def onLine (l : Int) : Segment → Segment
  | literal t _ => literal t l
  | directive d => directive { d with line := l }

/-- Segments behind a printed text with the lines that they are printed on. -/
def renumberFrom (line : Int) (before : Text) : List Segment → List Segment
  | [] => []
  | s :: rest =>
    s.onLine (line + Text.breaks before) :: renumberFrom line (before ++ s.print) rest

/-- Segments with the lines that they are printed on. -/
def renumber (line : Int) (segments : List Segment) : List Segment :=
  renumberFrom line [] segments

/-! ## Well-formed lists -/

/-- Gaps and a line break, which a carriage return may precede. -/
def IsLineEnd (t : Text) : Prop :=
  ∃ gaps : Text, gaps.all Text.isGap ∧ (t = gaps ++ ['\n'] ∨ t = gaps ++ ['\r', '\n'])

/-- A text that can be the literal in front of the given segments: it is not empty, no other literal
follows, and `<%` stands in it only when it is the last segment and no directive can be opened in it. -/
structure LiteralFits (t : Text) (after : List Segment) : Prop where
  ne_nil : t ≠ []
  apart : ∀ other l rest, after ≠ literal other l :: rest
  opens : openMark <:+: t → after = [] ∧ ∀ i, ¬ OpensAt t i

/-- A directive that can stand between two printed texts: its code does not close it, and the white
space that belongs to its line is its own. -/
structure DirectiveFits (before : Text) (d : Directive) (after : Text) : Prop where
  code : ¬ closeMark <:+: d.code
  gaps : ∀ g, d.lspace = some g → g.all Text.isGap
  starts : d.lspace ≠ none ↔ before = [] ∨ ['\n'] <:+ before
  inLine : d.lspace = none → ∃ c ∈ lastLine before, ¬ Text.isGap c
  lineEnd : ∀ e, d.rspace = some e → IsLineEnd e
  goesOn : d.rspace = none → ∀ e, IsLineEnd e → ¬ e <+: after

/-- A segment that can stand between a printed text and the given segments. -/
def Fits (before : Text) (after : List Segment) : Segment → Prop
  | literal t _ => LiteralFits t after
  | directive d => DirectiveFits before d (printAll after)

/-- Segments behind a printed text that fit where they are, on the lines that they are printed on. -/
def WellFormedFrom (line : Int) (before : Text) : List Segment → Prop
  | [] => True
  | s :: rest =>
    s.Fits before rest ∧ s.line = line + Text.breaks before ∧
      WellFormedFrom line (before ++ s.print) rest

/-- Lists of segments that fit together. -/
def WellFormed (line : Int) (segments : List Segment) : Prop :=
  WellFormedFrom line [] segments

variable {source before t u : Text} {line : Int} {segments : List Segment}

@[simp] theorem printAll_nil : printAll [] = [] := rfl

@[simp] theorem printAll_cons (s : Segment) (rest : List Segment) :
    printAll (s :: rest) = s.print ++ printAll rest := List.flatMap_cons

@[simp] theorem print_literal (t : Text) (l : Int) : (literal t l).print = t := rfl

@[simp] theorem print_directive (d : Directive) : (directive d).print = d.print := rfl

/-! ## Ends of lines -/

/-- The scan reads off the end of a line where gaps and a line break stand. -/
theorem lineEnd?_append {e : Text} (he : IsLineEnd e) (r : Text) : lineEnd? (e ++ r) = some e := by
  obtain ⟨gaps, hgaps, he⟩ := he
  have hall : ∀ c ∈ gaps, Text.isGap c = true := List.all_eq_true.1 hgaps
  rcases he with rfl | rfl
  · have htake : (gaps ++ '\n' :: r).takeWhile Text.isGap = gaps := by
      rw [List.takeWhile_append_of_pos hall]
      simp [Text.isGap]
    simp [lineEnd?, htake]
  · have htake : (gaps ++ '\r' :: '\n' :: r).takeWhile Text.isGap = gaps := by
      rw [List.takeWhile_append_of_pos hall]
      simp [Text.isGap]
    simp [lineEnd?, htake]

/-- What the scan takes for the end of a line is one, and the text starts with it. -/
theorem isLineEnd_of_lineEnd? {e : Text} (h : lineEnd? t = some e) : IsLineEnd e ∧ e <+: t := by
  refine ⟨?_, ?_⟩
  · rw [lineEnd?] at h
    split at h
    · exact ⟨_, List.all_takeWhile, .inl (Option.some.inj h).symm⟩
    · exact ⟨_, List.all_takeWhile, .inr (Option.some.inj h).symm⟩
    · cases h
  · have happend := lineEnd?_append_drop t
    rw [h, Option.getD_some] at happend
    exact ⟨_, happend.symm⟩

/-- The scan finds no end of a line exactly when the text starts with none. -/
theorem lineEnd?_eq_none_iff : lineEnd? t = none ↔ ∀ e, IsLineEnd e → ¬ e <+: t := by
  constructor
  · rintro hnone e he ⟨r, rfl⟩
    rw [lineEnd?_append he] at hnone
    cases hnone
  · intro h
    cases hend : lineEnd? t with
    | none => rfl
    | some e => exact absurd (isLineEnd_of_lineEnd? hend).2 (h e (isLineEnd_of_lineEnd? hend).1)

/-- No bracket stands in the end of a line. -/
theorem IsLineEnd.bracket_not_mem {e : Text} (he : IsLineEnd e) : '<' ∉ e := by
  obtain ⟨gaps, hgaps, he⟩ := he
  have hgap : '<' ∉ gaps := fun hmem => absurd (List.all_eq_true.1 hgaps _ hmem) (by decide)
  rcases he with rfl | rfl <;> simp [hgap]

/-- Whether a text starts with the end of a line is decided in front of the first bracket. -/
theorem lineEnd?_append_bracket (t r r' : Text) :
    lineEnd? (t ++ '<' :: r) = none ↔ lineEnd? (t ++ '<' :: r') = none := by
  have himp (r r' : Text) (h : lineEnd? (t ++ '<' :: r) = none) : lineEnd? (t ++ '<' :: r') = none := by
    rw [lineEnd?_eq_none_iff] at h ⊢
    rintro e he hprefix
    refine h e he ?_
    have hno : '<' ∉ e := he.bracket_not_mem
    -- the end of the line is in front of the bracket
    have hle : e.length ≤ t.length := by
      refine Nat.le_of_not_lt fun hlt => hno ?_
      have hget : (t ++ '<' :: r')[t.length]? = e[t.length]? := by
        obtain ⟨rest, hrest⟩ := hprefix
        rw [← hrest, List.getElem?_append_left hlt]
      rw [List.getElem?_append_right (Nat.le_refl _), Nat.sub_self] at hget
      exact List.mem_of_getElem? hget.symm
    exact (List.prefix_of_prefix_length_le hprefix (List.prefix_append t _) hle).trans
      (List.prefix_append t _)
  exact ⟨himp r r', himp r' r⟩

/-! ## Starts of lines -/

/-- The last line is empty at the start of a text and behind a line break. -/
theorem lastLine_eq_nil_iff : lastLine before = [] ↔ before = [] ∨ ['\n'] <:+ before := by
  constructor
  · intro h
    rcases List.eq_nil_or_concat before with rfl | ⟨init, c, rfl⟩
    · exact .inl rfl
    · rw [List.concat_eq_append] at h ⊢
      by_cases hc : c = '\n'
      · exact .inr (hc ▸ List.suffix_append _ _)
      · rw [lastLine_append_of_not_mem (by simpa using Ne.symm hc)] at h
        exact absurd (List.append_eq_nil_iff.1 h).2 (List.cons_ne_nil _ _)
  · rintro (rfl | ⟨init, rfl⟩)
    · rfl
    · exact lastLine_append_break init

/-- What the scan knows of the text behind it: a line starts there, or something else than a gap stands
on its last line. -/
def Follows (fresh : Bool) (before : Text) : Prop :=
  if fresh then lastLine before = [] else ∃ c ∈ lastLine before, ¬ Text.isGap c

/-- A line starts behind a text exactly when its last line is empty. -/
theorem Follows.fresh_iff {fresh : Bool} (h : Follows fresh before) :
    fresh = true ↔ lastLine before = [] := by
  cases fresh with
  | true => simpa [Follows] using h
  | false =>
      obtain ⟨c, hc, -⟩ : ∃ c ∈ lastLine before, ¬ Text.isGap c := by simpa [Follows] using h
      simpa using List.ne_nil_of_mem hc

/-- Behind a directive the scan knows whether the end of the line belongs to it. -/
theorem follows_closeMark (before : Text) {rspace : Option Text}
    (h : ∀ e, rspace = some e → IsLineEnd e) :
    Follows rspace.isSome (before ++ (closeMark ++ rspace.getD [])) := by
  cases rspace with
  | none =>
      have hline : lastLine (before ++ closeMark) = lastLine before ++ closeMark :=
        lastLine_append_of_not_mem (by decide) before
      refine ⟨'>', ?_, by decide⟩
      rw [Option.getD_none, List.append_nil, hline]
      simp [closeMark]
  | some e =>
      obtain ⟨gaps, -, he⟩ := h e rfl
      have hline : ['\n'] <:+ before ++ (closeMark ++ e) := by
        rcases he with rfl | rfl
        · exact ⟨before ++ (closeMark ++ gaps), by simp⟩
        · exact ⟨before ++ (closeMark ++ (gaps ++ ['\r'])), by simp⟩
      simpa [Follows] using lastLine_eq_nil_iff.2 (.inr hline)

/-- The indentation in front of a directive is the last line of all that stands before it, when that
holds only gaps. -/
theorem indentation?_eq {fresh : Bool} (h : Follows fresh before) (b : Text) :
    indentation? fresh b =
      if (lastLine (before ++ b)).all Text.isGap then some (lastLine (before ++ b)) else none := by
  by_cases hbreak : '\n' ∈ b
  · simp [indentation?, hbreak, lastLine_append_of_mem hbreak]
  · have hline : lastLine b = b := lastLine_append_of_not_mem hbreak []
    rw [lastLine_append_of_not_mem hbreak, indentation?, hline]
    cases fresh with
    | true =>
        have hstart : lastLine before = [] := h.fresh_iff.1 rfl
        simp [hstart]
    | false =>
        obtain ⟨c, hc, hgap⟩ : ∃ c ∈ lastLine before, ¬ Text.isGap c := by simpa [Follows] using h
        have hgaps : ¬ (lastLine before).all Text.isGap := fun hall =>
          hgap (List.all_eq_true.1 hall c hc)
        simp [hbreak, hgaps]

/-- The indentation that the scan reads between a text behind it and a directive is the one that fits
there. -/
theorem indentation?_eq_iff {fresh : Bool} (h : Follows fresh before) {lspace : Option Text} :
    indentation? fresh (t ++ lspace.getD []) = lspace ↔
      (∀ g, lspace = some g → g.all Text.isGap) ∧
      (lspace ≠ none ↔ before ++ t = [] ∨ ['\n'] <:+ before ++ t) ∧
      (lspace = none → ∃ c ∈ lastLine (before ++ t), ¬ Text.isGap c) := by
  rw [← lastLine_eq_nil_iff, indentation?_eq h, ← List.append_assoc]
  cases lspace with
  | none =>
      rw [Option.getD_none, List.append_nil]
      constructor
      · intro hnone
        have hgaps : ¬ (lastLine (before ++ t)).all Text.isGap := by
          intro hall
          simp [hall] at hnone
        obtain ⟨c, hc, hgap⟩ : ∃ c ∈ lastLine (before ++ t), ¬ Text.isGap c := by
          simpa using hgaps
        exact ⟨by simp, by simpa using List.ne_nil_of_mem hc, fun _ => ⟨c, hc, hgap⟩⟩
      · rintro ⟨-, -, hline⟩
        obtain ⟨c, hc, hgap⟩ := hline rfl
        exact if_neg fun hall => hgap (List.all_eq_true.1 hall c hc)
  | some g =>
      have hline (hgaps : g.all Text.isGap) : lastLine (before ++ t ++ g) = lastLine (before ++ t) ++ g :=
        lastLine_append_of_not_mem (break_not_mem_gaps hgaps) _
      rw [Option.getD_some]
      constructor
      · intro hsome
        split at hsome
        · next hall =>
            have hg := Option.some.inj hsome
            have hgaps : g.all Text.isGap := hg ▸ hall
            rw [hline hgaps, List.append_left_eq_self] at hg
            exact ⟨fun g' h' => Option.some.inj h' ▸ hgaps, by simp [hg], by simp⟩
        · cases hsome
      · rintro ⟨hgaps, hstart, -⟩
        have hgaps := hgaps g rfl
        have hstart : lastLine (before ++ t) = [] := hstart.1 (Option.some_ne_none g)
        rw [hline hgaps, hstart, List.nil_append, if_pos hgaps]

/-! ## Scanning what was printed -/

/-- A directive can be opened nowhere in a literal behind which nothing comes. -/
theorem LiteralFits.not_opensAt (h : LiteralFits t []) (i : Nat) : ¬ OpensAt t i := by
  intro hopens
  have hinfix : openMark <:+: t := hopens.1.isInfix.trans (List.drop_suffix i t).isInfix
  exact (h.opens hinfix).2 i hopens

/-- Nothing is found where no directive can be opened. -/
theorem find?_eq_none (h : ∀ i, ¬ OpensAt t i) (fresh : Bool) : find? fresh t = none := by
  rw [find?_eq]
  cases hcut : Text.cutAt? openMark t with
  | none => rfl
  | some x =>
      obtain ⟨b, opened⟩ := x
      obtain ⟨hsplit, hfirst⟩ := Text.cutAt?_eq_some hcut
      cases hb : bracketAt? (openMark ++ opened) with
      | none => simp [hb]
      | some y =>
          obtain ⟨kind, body, after⟩ := y
          rw [bracketAt?_eq_some hb] at hsplit
          exact absurd (firstFrom_open (p := 0) hsplit hfirst).2.1 (h _)

/-- The kind is read off its mark when a space follows. -/
theorem takeKind_mark (kind : DirectiveKind) (r : Text) :
    takeKind (kind.mark ++ ' ' :: r) = (kind, ' ' :: r) := by
  cases kind <;> rfl

/-- The spaces that a directive is printed with are no part of its code. -/
theorem codeOf_spaces (code : Text) : codeOf (' ' :: (code ++ [' '])) = code := by
  simp [codeOf, dropSpace, dropEndSpace]

/-- The spaces around a code that does not close its directive do not let it close. -/
theorem not_closeMark_spaces {code : Text} (h : ¬ closeMark <:+: code) :
    ¬ closeMark <:+: ' ' :: (code ++ [' ']) := by
  rw [List.infix_cons_iff, List.infix_concat_iff]
  rintro (hstarts | hsuffix | hinfix)
  · exact absurd (List.cons_prefix_cons.1 hstarts).1 (by decide)
  · obtain ⟨init, hinit⟩ := hsuffix
    have hlast := congrArg List.getLast? hinit
    simp [closeMark] at hlast
  · exact h hinfix

/-- The scan finds a directive that fits where it was printed. -/
theorem find?_print {fresh : Bool} {d : Directive} {after : Text} (hbefore : Follows fresh before)
    (hopen : ¬ openMark <:+: t) (hd : DirectiveFits (before ++ t) d after) :
    find? fresh (t ++ (d.print ++ after)) =
      some ⟨t, d.kind, ' ' :: (d.code ++ [' ']), d.lspace, d.rspace, after⟩ := by
  have hgaps : (d.lspace.getD []).all Text.isGap := by
    cases hl : d.lspace with
    | none => rfl
    | some g => exact hd.gaps g hl
  have hindent : indentation? fresh (t ++ d.lspace.getD []) = d.lspace :=
    (indentation?_eq_iff hbefore).2 ⟨hd.gaps, hd.starts, hd.inLine⟩
  have hend : lineEnd? (d.rspace.getD [] ++ after) = d.rspace := by
    cases hr : d.rspace with
    | none => exact lineEnd?_eq_none_iff.2 (hd.goesOn hr)
    | some e => exact lineEnd?_append (hd.lineEnd e hr) after
  -- the bracket that opens the directive is the first one
  have hfirst (r : Text) : ∀ k < (t ++ d.lspace.getD []).length,
      ¬ openMark <+: (t ++ d.lspace.getD [] ++ (openMark ++ r)).drop k := by
    intro k hk hprefix
    rw [List.append_assoc] at hprefix
    rcases Nat.lt_or_ge k t.length with hlt | hge
    · refine hopen (Text.infix_of_prefix_drop hlt ?_ hprefix)
      cases hl : d.lspace.getD [] with
      | nil => simp [openMark]
      | cons c g =>
          have hc : Text.isGap c := by
            rw [hl] at hgaps
            exact (Bool.and_eq_true_iff.1 hgaps).1
          rintro hpercent
          obtain rfl : c = '%' := by simpa using hpercent
          simp [Text.isGap] at hc
    · obtain ⟨n, rfl⟩ := Nat.exists_eq_add_of_le hge
      rw [← List.drop_drop, List.drop_left] at hprefix
      rw [List.length_append] at hk
      exact not_openMark_gaps hgaps _ (by omega) hprefix
  -- and the one that closes it is the first one behind the code
  have hclose (r : Text) : Text.cutAt? closeMark (' ' :: (d.code ++ [' ']) ++ (closeMark ++ r)) =
      some (' ' :: (d.code ++ [' ']), r) := by
    refine Text.cutAt?_append r fun k hk hprefix => not_closeMark_spaces hd.code ?_
    exact Text.infix_of_prefix_drop hk (by simp [closeMark]) hprefix
  have hbracket : bracketAt? (openMark ++ (d.kind.mark ++ (' ' :: (d.code ++ [' ']) ++
      (closeMark ++ (d.rspace.getD [] ++ after))))) =
      some (d.kind, ' ' :: (d.code ++ [' ']), d.rspace.getD [] ++ after) := by
    rw [bracketAt?, if_pos (List.prefix_append _ _), List.drop_left]
    simp only [List.cons_append, takeKind_mark]
    have hclose := hclose (d.rspace.getD [] ++ after)
    rw [List.cons_append] at hclose
    rw [hclose]
    rfl
  have hsplit : t ++ (d.print ++ after) = t ++ d.lspace.getD [] ++ (openMark ++ (d.kind.mark ++
      (' ' :: (d.code ++ [' ']) ++ (closeMark ++ (d.rspace.getD [] ++ after))))) := by
    simp [Directive.print]
  rw [hsplit, find?_eq, Text.cutAt?_append _ (hfirst _), Option.bind_some, hbracket, Option.map_some]
  simp [foundAt, hindent, hend]

/-- A step of the scan: the literal in front of the directive that is found, the directive, and the
segments of what is behind it. -/
theorem scanFrom_of_find? {fresh : Bool} {f : Found} (h : find? fresh t = some f) (fuel : Nat)
    (line : Int) :
    scanFrom (fuel + 1) fresh line t =
      literalOf f.before line ++
        .directive ⟨f.kind, codeOf f.body, f.lspace, f.rspace, line + Text.breaks f.before⟩ ::
          scanFrom fuel f.rspace.isSome (line + Text.breaks f.before + f.breaks) f.rest := by
  rw [scanFrom, h, literalOf]
  dsimp only
  split <;> rfl

/-- Without a directive the text is literal. -/
theorem scanFrom_of_none {fresh : Bool} (h : find? fresh t = none) (fuel : Nat) (line : Int) :
    scanFrom (fuel + 1) fresh line t = literalOf t line := by
  rw [scanFrom, h, literalOf]

/-- The line breaks of a printed directive are those of its code and of the end of its line. -/
theorem breaks_print {d : Directive} (h : ∀ g, d.lspace = some g → g.all Text.isGap) :
    Text.breaks d.print = Text.breaks d.code + Text.breaks (d.rspace.getD []) := by
  have hlspace : (d.lspace.getD []).count '\n' = 0 := by
    cases hl : d.lspace with
    | none => rfl
    | some g => exact List.count_eq_zero.2 (break_not_mem_gaps (h g hl))
  have hmark : d.kind.mark.count '\n' = 0 := by cases d.kind <;> rfl
  simp [Directive.print, Text.breaks, hlspace, hmark, openMark, closeMark]

/-- Behind a printed directive the scan knows whether the end of the line belongs to it. -/
theorem follows_print (before : Text) {d : Directive} (h : ∀ e, d.rspace = some e → IsLineEnd e) :
    Follows d.rspace.isSome (before ++ d.print) := by
  have hsplit : before ++ d.print = (before ++ (d.lspace.getD [] ++ (openMark ++ (d.kind.mark ++
      (' ' :: (d.code ++ [' '])))))) ++ (closeMark ++ d.rspace.getD []) := by
    simp [Directive.print]
  rw [hsplit]
  exact follows_closeMark _ h

/-- A literal, which may be empty, and a directive are scanned as they were printed. -/
theorem scanFrom_print {fresh : Bool} {d : Directive} {after : Text} (hbefore : Follows fresh before)
    (hopen : ¬ openMark <:+: t) (hd : DirectiveFits (before ++ t) d after)
    (hline : d.line = line + Text.breaks (before ++ t)) (fuel : Nat) :
    scanFrom (fuel + 1) fresh (line + Text.breaks before) (t ++ (d.print ++ after)) =
      literalOf t (line + Text.breaks before) ++ .directive d ::
        scanFrom fuel d.rspace.isSome (line + Text.breaks (before ++ t ++ d.print)) after := by
  have hbreaks := breaks_print hd.gaps
  have hspaces : Text.breaks (' ' :: (d.code ++ [' '])) = Text.breaks d.code := by simp [Text.breaks]
  have hstart : line + Text.breaks before + Text.breaks t = d.line := by
    rw [hline, Text.breaks, Text.breaks, Text.breaks, List.count_append]
    omega
  have hnext : d.line + ((Text.breaks d.code + Text.breaks (d.rspace.getD []) : Nat) : Int) =
      line + Text.breaks (before ++ t ++ d.print) := by
    have happend : Text.breaks (before ++ t ++ d.print) = Text.breaks (before ++ t) + Text.breaks d.print :=
      List.count_append
    rw [hline, ← hbreaks, happend]
    omega
  rw [scanFrom_of_find? (find?_print hbefore hopen hd)]
  simp only [codeOf_spaces, Found.breaks, hspaces, hstart, hnext]

/-- Well-formed lists are scanned as they were printed. -/
theorem scanFrom_printAll {fuel : Nat} {fresh : Bool} : ∀ {segments : List Segment} {before : Text},
    Follows fresh before → WellFormedFrom line before segments → segments.length < fuel →
    scanFrom fuel fresh (line + Text.breaks before) (printAll segments) = segments := by
  induction fuel generalizing fresh with
  | zero => exact fun _ _ h => absurd h (Nat.not_lt_zero _)
  | succ fuel ih =>
      intro segments before hbefore hwell hfuel
      match segments, hwell with
      | [], _ => exact scanFrom_of_none (find?_eq_none (by simp [OpensAt, openMark]) fresh) fuel _
      | [.literal t l], ⟨ht, hl, _⟩ =>
          have ht : LiteralFits t [] := ht
          have hl : l = line + Text.breaks before := hl
          rw [printAll_cons, printAll_nil, print_literal, List.append_nil,
            scanFrom_of_none (find?_eq_none ht.not_opensAt fresh), literalOf, hl]
          simp [ht.ne_nil]
      | .literal t l :: .literal t' l' :: rest, ⟨ht, _⟩ => exact absurd rfl (LiteralFits.apart ht t' l' rest)
      | .literal t l :: .directive d :: rest, ⟨ht, hl, hd, hdl, hrest⟩ =>
          have ht : LiteralFits t (.directive d :: rest) := ht
          have hd : DirectiveFits (before ++ t) d (printAll rest) := hd
          have hl : l = line + Text.breaks before := hl
          have hrest : WellFormedFrom line (before ++ t ++ d.print) rest := hrest
          have hopen : ¬ openMark <:+: t := fun h => List.cons_ne_nil _ _ (ht.opens h).1
          rw [List.length_cons, List.length_cons] at hfuel
          rw [printAll_cons, printAll_cons, print_literal, print_directive,
            scanFrom_print hbefore hopen hd hdl,
            ih (follows_print _ hd.lineEnd) hrest (by omega), literalOf, hl]
          simp [ht.ne_nil]
      | .directive d :: rest, ⟨hd, hdl, hrest⟩ =>
          have hd : DirectiveFits (before ++ []) d (printAll rest) := (List.append_nil before).symm ▸ hd
          have hdl : d.line = line + Text.breaks (before ++ []) := (List.append_nil before).symm ▸ hdl
          have hrest : WellFormedFrom line (before ++ d.print) rest := hrest
          have hscan := scanFrom_print hbefore (by simp [openMark]) hd hdl fuel
          rw [List.length_cons] at hfuel
          rw [List.append_nil, List.nil_append] at hscan
          rw [printAll_cons, print_directive, hscan,
            ih (follows_print _ hd.lineEnd) hrest (by omega)]
          rfl

/-! ## What the scan gives -/

/-- What is printed for a text that was scanned starts with the end of a line exactly when the text
does. -/
theorem lineEnd?_printAll_scanFrom (fuel : Nat) (fresh : Bool) (line : Int) (t : Text) :
    lineEnd? (printAll (scanFrom (fuel + 1) fresh line t)) = none ↔ lineEnd? t = none := by
  cases hfind : find? fresh t with
  | none =>
      rw [scanFrom_of_none hfind, literalOf]
      split
      · next hempty => rw [List.isEmpty_iff.1 hempty]; rfl
      · simp
  | some f =>
      have hliteral (l : Int) : printAll (literalOf f.before l) = f.before := by
        rw [literalOf]
        split
        · next hempty => rw [List.isEmpty_iff.1 hempty]; rfl
        · simp
      have hprinted (r : List Segment) (l : Int) :
          ∃ u, printAll (literalOf f.before l ++ .directive ⟨f.kind, codeOf f.body, f.lspace, f.rspace,
            l + Text.breaks f.before⟩ :: r) = f.before ++ f.lspace.getD [] ++ '<' :: u := by
        rw [printAll, List.flatMap_append, ← printAll, ← printAll, hliteral]
        exact ⟨_, by simp [Directive.print, openMark]; rfl⟩
      have htext : ∃ u, t = f.before ++ f.lspace.getD [] ++ '<' :: u :=
        ⟨_, by
          conv => lhs; rw [find?_append hfind, Found.text, openMark]
          simp
          rfl⟩
      obtain ⟨u, hu⟩ := hprinted (scanFrom fuel f.rspace.isSome _ f.rest) line
      obtain ⟨u', hu'⟩ := htext
      rw [scanFrom_of_find? hfind, hu]
      conv => rhs; rw [hu']
      exact lineEnd?_append_bracket _ u u'

/-- The code of a directive is part of its body. -/
theorem infix_codeOf (body : Text) : codeOf body <:+: body := by
  have hend (t : Text) : dropEndSpace t <+: t := by
    rw [dropEndSpace]
    split
    · exact List.dropLast_prefix t
    · exact List.prefix_rfl
  have hstart : dropSpace body <:+ body := by
    fun_cases dropSpace body with
    | case1 r => exact List.suffix_cons ' ' r
    | case2 => exact List.suffix_rfl
  exact (hend _).isInfix.trans hstart.isInfix

/-- The directive of a find. -/
def Found.directive (f : Found) (line : Int) : Directive :=
  ⟨f.kind, codeOf f.body, f.lspace, f.rspace, line⟩

/-- A find in parts: the bracket that opens it is the first one, and the bracket that closes it is the
first one behind its mark. -/
theorem find?_eq_some {fresh : Bool} {f : Found} (h : find? fresh t = some f) :
    ∃ b after, t = b ++ (openMark ++ (f.kind.mark ++ (f.body ++ (closeMark ++ after)))) ∧
      (∀ k < b.length, ¬ openMark <+: t.drop k) ∧
      (∀ k < f.body.length, ¬ closeMark <+: (f.body ++ (closeMark ++ after)).drop k) ∧
      b = f.before ++ f.lspace.getD [] ∧ indentation? fresh b = f.lspace ∧
      lineEnd? after = f.rspace ∧ after = f.rspace.getD [] ++ f.rest := by
  rw [find?_eq, Option.bind_eq_some_iff] at h
  obtain ⟨⟨b, opened⟩, hcut, h⟩ := h
  obtain ⟨⟨kind, body, after⟩, hb, rfl⟩ := Option.map_eq_some_iff.1 h
  obtain ⟨hsplit, hfirst⟩ := Text.cutAt?_eq_some hcut
  obtain ⟨-, hopened, hclose⟩ := bracketAt?_body hb
  have hopened : opened = kind.mark ++ (body ++ (closeMark ++ after)) := hopened
  rw [hopened] at hsplit
  exact ⟨b, after, hsplit, hfirst, hclose, (take_append_indentation? fresh b).symm, rfl, rfl,
    lineEnd?_append_drop after⟩

/-- The directive that is found fits between what is printed before and what is scanned behind it. -/
theorem directiveFits_of_find? {fresh : Bool} {f : Found} (hbefore : Follows fresh before)
    (h : find? fresh t = some f) (fuel : Nat) (l next : Int) :
    DirectiveFits (before ++ f.before) (f.directive l)
      (printAll (scanFrom (fuel + 1) f.rspace.isSome next f.rest)) := by
  obtain ⟨b, after, -, -, hclose, hb, hindent, hend, hafter⟩ := find?_eq_some h
  rw [hb] at hindent
  obtain ⟨hgaps, hstarts, hinLine⟩ := (indentation?_eq_iff hbefore).1 hindent
  have hcode : ¬ closeMark <:+: codeOf f.body := by
    intro hinfix
    obtain ⟨s, u, hsu⟩ := hinfix.trans (infix_codeOf f.body)
    have hk : s.length < f.body.length := by
      rw [← hsu]
      simp [closeMark]
    refine hclose s.length hk ?_
    rw [← hsu, List.append_assoc, List.append_assoc, List.drop_left]
    exact List.prefix_append _ _
  refine ⟨hcode, hgaps, hstarts, hinLine, fun e he => ?_, fun hnone => ?_⟩
  · exact (isLineEnd_of_lineEnd? (hend.trans he)).1
  · have hnone : f.rspace = none := hnone
    rw [hnone, Option.getD_none, List.nil_append] at hafter
    rw [hnone, hafter] at hend
    exact lineEnd?_eq_none_iff.1 ((lineEnd?_printAll_scanFrom fuel _ next f.rest).2 hend)

/-- The text in front of the directive that is found opens no other one. -/
theorem not_openMark_before {fresh : Bool} {f : Found} (h : find? fresh t = some f) :
    ¬ openMark <:+: f.before := by
  obtain ⟨b, after, hsplit, hfirst, -, hb, -⟩ := find?_eq_some h
  rintro ⟨s, u, hsu⟩
  have hk : s.length < b.length := by
    rw [hb, ← hsu]
    simp [openMark]
  refine hfirst s.length hk ?_
  rw [hsplit, hb, ← hsu]
  simp only [List.append_assoc, List.drop_left]
  exact List.prefix_append _ _

/-- The line breaks of the directive that is found are those of its text. -/
theorem breaks_print_directive {fresh : Bool} {f : Found} (h : find? fresh t = some f) (l : Int) :
    Text.breaks (f.directive l).print = f.breaks := by
  have hgaps : ∀ g, f.lspace = some g → g.all Text.isGap := by
    obtain ⟨b, -, -, -, -, -, hindent, -⟩ := find?_eq_some h
    intro g hg
    rw [hg, indentation?] at hindent
    split at hindent
    · next hall =>
        rw [← Option.some.inj hindent]
        exact (Bool.and_eq_true_iff.1 hall).1
    · cases hindent
  rw [breaks_print hgaps, Found.breaks]
  exact congrArg (· + _) (breaks_codeOf f.body)

/-- The rest behind a directive is shorter than the text. -/
theorem length_rest_lt {fresh : Bool} {f : Found} (h : find? fresh t = some f) :
    f.rest.length < t.length := by
  rw [find?_append h, Found.text]
  simp [openMark]
  omega

/-- The lists that the scan gives are well formed. -/
theorem wellFormedFrom_scanFrom {fuel : Nat} {fresh : Bool} (hbefore : Follows fresh before)
    (hfuel : t.length < fuel) :
    WellFormedFrom line before (scanFrom fuel fresh (line + Text.breaks before) t) := by
  induction fuel generalizing before fresh t with
  | zero => exact absurd hfuel (Nat.not_lt_zero _)
  | succ fuel ih =>
      cases hfind : find? fresh t with
      | none =>
          rw [scanFrom_of_none hfind, literalOf]
          split
          · trivial
          · next hempty =>
              refine ⟨⟨by simpa using hempty, by simp, fun _ => ⟨rfl, fun i => ?_⟩⟩, rfl, trivial⟩
              exact not_opensAt (p := 0) hfind (Nat.zero_le i)
      | some f =>
          have hrest := length_rest_lt hfind
          obtain ⟨fuel, rfl⟩ : ∃ n, fuel = n + 1 := ⟨fuel - 1, by omega⟩
          have hstart : line + Text.breaks before + Text.breaks f.before =
              line + Text.breaks (before ++ f.before) := by
            rw [Text.breaks, Text.breaks, Text.breaks, List.count_append]
            omega
          have hnext : line + Text.breaks (before ++ f.before) + f.breaks = line + Text.breaks
              (before ++ f.before ++ (f.directive (line + Text.breaks (before ++ f.before))).print) := by
            have happend (t : Text) : Text.breaks (before ++ f.before ++ t) =
                Text.breaks (before ++ f.before) + Text.breaks t := List.count_append
            rw [← breaks_print_directive hfind (line + Text.breaks (before ++ f.before)), happend]
            omega
          have hd := directiveFits_of_find? hbefore hfind fuel (line + Text.breaks (before ++ f.before))
            (line + Text.breaks (before ++ f.before) + f.breaks)
          have hwell : WellFormedFrom line (before ++ f.before)
              (.directive (f.directive (line + Text.breaks (before ++ f.before))) ::
                scanFrom (fuel + 1) f.rspace.isSome
                  (line + Text.breaks (before ++ f.before) + f.breaks) f.rest) := by
            refine ⟨hd, rfl, ?_⟩
            rw [hnext]
            exact ih (follows_print _ hd.lineEnd) (by omega)
          rw [scanFrom_of_find? hfind, hstart, literalOf]
          split
          · next hempty =>
              rw [List.isEmpty_iff.1 hempty, List.append_nil] at hwell ⊢
              exact hwell
          · next hempty =>
              refine ⟨⟨by simpa using hempty, by simp, fun h => ?_⟩, rfl, hwell⟩
              exact absurd h (not_openMark_before hfind)

/-- The scan of a text on another line gives its segments on the lines that they are printed on. -/
theorem renumberFrom_scanFrom (fuel : Nat) (fresh : Bool) (start : Int) (before t : Text) :
    renumberFrom line before (scanFrom fuel fresh start t) =
      scanFrom fuel fresh (line + Text.breaks before) t := by
  induction fuel generalizing fresh start before t with
  | zero => rfl
  | succ fuel ih =>
      cases hfind : find? fresh t with
      | none =>
          rw [scanFrom_of_none hfind, scanFrom_of_none hfind, literalOf, literalOf]
          split <;> rfl
      | some f =>
          have hstep (before : Text) (l : Int) : renumberFrom line before
              (.directive (f.directive l) :: scanFrom fuel f.rspace.isSome (l + f.breaks) f.rest) =
              .directive (f.directive (line + Text.breaks before)) ::
                scanFrom fuel f.rspace.isSome (line + Text.breaks before + f.breaks) f.rest := by
            have happend : Text.breaks (before ++ (f.directive l).print) =
                Text.breaks before + f.breaks := by
              rw [← breaks_print_directive hfind l]
              exact List.count_append
            rw [renumberFrom, ih, print_directive, happend, Int.natCast_add, ← Int.add_assoc]
            rfl
          have hstart : line + Text.breaks before + Text.breaks f.before =
              line + Text.breaks (before ++ f.before) := by
            rw [Text.breaks, Text.breaks, Text.breaks, List.count_append]
            omega
          have hdirective := hstep (before ++ f.before) (start + Text.breaks f.before)
          rw [← hstart] at hdirective
          rw [scanFrom_of_find? hfind, scanFrom_of_find? hfind, literalOf, literalOf]
          split
          · next hempty =>
              rw [List.isEmpty_iff.1 hempty, List.append_nil] at hdirective
              rw [List.isEmpty_iff.1 hempty]
              exact hdirective
          · exact congrArg (_ :: ·) hdirective

/-! ## Printing and scanning -/

/-- A well-formed list has at most as many segments as printed characters. -/
theorem length_le_printAll {segments : List Segment} {before : Text}
    (h : WellFormedFrom line before segments) : segments.length ≤ (printAll segments).length := by
  induction segments generalizing before with
  | nil => exact Nat.zero_le _
  | cons s rest ih =>
      obtain ⟨hs, -, hrest⟩ := h
      have hrest := ih hrest
      have hpos : 0 < s.print.length := by
        cases s with
        | literal t l => exact List.length_pos_iff.2 (LiteralFits.ne_nil hs)
        | directive d => exact List.length_pos_iff.2 (by simp [print, Directive.print, openMark])
      rw [List.length_cons, printAll_cons, List.length_append]
      omega

/-- The scan gives a well-formed list. -/
theorem wellFormed_scan (source : Text) (line : Int) : WellFormed line (scan source line) := by
  have hstart : Follows true [] := rfl
  have h : WellFormedFrom line [] (scanFrom _ true (line + Text.breaks []) source) :=
    wellFormedFrom_scanFrom hstart (Nat.lt_succ_self source.length)
  rwa [show line + Text.breaks [] = line from Int.add_zero line] at h

/-- A directive of a well-formed list fits where it is. -/
theorem WellFormedFrom.directiveFits {segments : List Segment} {before : Text} {d : Directive}
    (h : WellFormedFrom line before segments) (hd : directive d ∈ segments) :
    ∃ before after, DirectiveFits before d after := by
  induction segments generalizing before with
  | nil => cases hd
  | cons s rest ih =>
      obtain ⟨hs, -, hrest⟩ := h
      rcases List.mem_cons.1 hd with rfl | hd
      · exact ⟨before, printAll rest, hs⟩
      · exact ih hrest hd

/-- Scanning undoes printing on exactly the well-formed lists, and every text is scanned into such a
list: its segments have the lines on which they are printed, whatever the number of the first line. -/
theorem scan_printAll_iff_wellFormed (line : Int) :
    (∀ segments, scan (printAll segments) line = segments ↔ WellFormed line segments) ∧
      ∀ source start, WellFormed line (renumber line (scan source start)) ∧
        renumber line (scan source start) = scan source line := by
  have hstart : Follows true [] := rfl
  have hline : line + Text.breaks [] = line := Int.add_zero line
  have hrenumber (source : Text) (start : Int) : renumber line (scan source start) = scan source line := by
    have h : renumberFrom line [] _ = scanFrom _ true (line + Text.breaks []) source :=
      renumberFrom_scanFrom (source.length + 1) true start [] source
    rwa [hline] at h
  refine ⟨fun segments => ⟨fun h => h ▸ wellFormed_scan _ line, fun h => ?_⟩, fun source start => ⟨?_, ?_⟩⟩
  · have hscan := scanFrom_printAll hstart h (Nat.lt_succ_of_le (length_le_printAll h))
    rwa [hline] at hscan
  · rw [hrenumber]
    exact wellFormed_scan source line
  · exact hrenumber source start

end Segment

end Stencil
