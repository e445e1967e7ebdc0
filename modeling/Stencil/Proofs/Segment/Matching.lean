import Stencil.Segment.Scan
import Stencil.Proofs.Text.Pattern

/-!
# Directives as matches of a pattern

A directive can also be described by a pattern: indentation from the start of a line, `<%`, a mark, a
space, as little as possible, a space, `%>`, and the end of the line, where all but the brackets and
the body may be missing. `matched` splits a template at the leftmost matches of this pattern, and
`scan_eq_matched` says that the scan gives the same segments, whatever the pattern has to give back
on the way.
-/

namespace Stencil.Segment

open Text (Pattern Spot Captures)
open Text.Pattern

/-! ## The pattern -/

/-- The indentation in front of a directive, group 1. -/
def indentPattern : Pattern :=
  .optional (.group 1 (.seq .lineStart (.greedy Text.isGap)))

/-- The mark of a directive, group 2. -/
def markPattern : Pattern :=
  .optional (.group 2 (.either (.seq (.char '=') (.optional (.char '='))) (.char '#')))

/-- The closing bracket with a space that may stand in front of it. -/
def closePattern : Pattern :=
  .seq (.optional (.char ' ')) (.seq (.char '%') (.char '>'))

/-- The code of a directive, group 3, and its closing bracket. -/
def codePattern : Pattern :=
  .seq (.optional (.char ' ')) (.seq (.group 3 (.lazy fun _ => true)) closePattern)

/-- The rest of the line behind a directive, group 4. -/
def lineEndPattern : Pattern :=
  .optional (.group 4 (.seq (.greedy Text.isGap) (.seq (.optional (.char '\r')) (.char '\n'))))

/-- A directive from its opening bracket on. -/
def bracketPattern : Pattern :=
  .seq (.char '<') (.seq (.char '%') (.seq markPattern (.seq codePattern lineEndPattern)))

/-- A directive with the white space that belongs to its line. -/
def directivePattern : Pattern :=
  .seq indentPattern bracketPattern

/-! ## Segments by matching -/

/-- The kind that a mark selects; no mark selects a statement. -/
def kindOf (mark : Option Text) : DirectiveKind :=
  match mark with
  | some m => ([.rawExpr, .escapedExpr, .comment].find? (·.mark = m)).getD .statement
  | none => .statement

/-- A literal segment, unless there is no text. -/
def literalOf (t : Text) (line : Int) : List Segment :=
  if t.isEmpty then [] else [.literal t line]

/-- The directive of a match that starts on the given line. -/
def directiveOf (m : Pattern.Match) (line : Int) : Directive :=
  ⟨kindOf (m.group? 2), (m.group? 3).getD [], m.group? 1, m.group? 4, line⟩

/-- The segments from a place on that is on the given line: the leftmost match splits off a literal
text and a directive, and the search goes on behind it. -/
def matchedFrom (line : Int) (s : Spot) : List Segment :=
  match directivePattern.search s.fresh s.rest with
  | none => literalOf s.rest line
  | some m =>
    let start := line + Text.breaks m.before
    if m.finish.rest.length < s.rest.length then
      literalOf m.before line ++ .directive (directiveOf m start) ::
        matchedFrom (start + Text.breaks m.text) m.finish
    else []
termination_by s.rest.length

/-- The segments of a template whose first line has the given number. -/
def matched (source : Text) (line : Int) : List Segment :=
  matchedFrom line ⟨true, source⟩

/-! ## What the parts of the pattern match -/

variable {β : Type}

/-- The closing bracket is not found at a character that does not start it. -/
theorem cutAt?_closeMark_cons {c : Char} (hc : c ≠ '%') (r : Text) :
    Text.cutAt? closeMark (c :: r) =
      (Text.cutAt? closeMark r).map fun x => (c :: x.1, x.2) :=
  Text.cutAt?_cons (by simp [closeMark, Ne.symm hc])

/-- What is left of a text behind its gaps. -/
theorem drop_length_takeWhile (p : Char → Bool) (t : Text) :
    t.drop (t.takeWhile p).length = t.dropWhile p := by
  calc t.drop (t.takeWhile p).length
      = (t.takeWhile p ++ t.dropWhile p).drop (t.takeWhile p).length := by
        rw [List.takeWhile_append_dropWhile]
    _ = t.dropWhile p := List.drop_left

/-- A line break is matched with or without a carriage return in front. -/
theorem run_lineBreak (fresh : Bool) (t : Text) (caught : Captures)
    (next : Spot → Captures → Option β) :
    (Pattern.seq (.optional (.char '\r')) (.char '\n')).run ⟨fresh, t⟩ caught next =
      match t with
      | '\n' :: r => next ⟨true, r⟩ caught
      | '\r' :: '\n' :: r => next ⟨true, r⟩ caught
      | _ => none := by
  rcases t with _ | ⟨c, r⟩
  · rfl
  · by_cases hn : c = '\n'
    · subst hn
      simp [run, run_char_cons, Spot.behind]
    · by_cases hr : c = '\r'
      · subst hr
        rcases r with _ | ⟨d, r⟩
        · simp [run, run_char_cons, run_char_nil, Spot.behind]
        · by_cases hd : d = '\n'
          · subst hd
            simp [run, run_char_cons, Spot.behind]
          · simp [run, run_char_cons, Spot.behind, hd]
      · simp [run, run_char_cons, hn, hr]

/-- The end of a line is matched as the scan reads it, when what comes next accepts every place. -/
theorem run_lineEndPattern {next : Spot → Captures → Option β}
    (hnext : ∀ s caught, next s caught ≠ none) (t : Text) (caught : Captures) :
    lineEndPattern.run ⟨false, t⟩ caught next =
      match lineEnd? t with
      | some l => next ⟨true, t.drop l.length⟩ ((4, l) :: caught)
      | none => next ⟨false, t⟩ caught := by
  obtain ⟨fresh, h⟩ := runGreedy_eq Text.isGap (fun s =>
    (Pattern.seq (.optional (.char '\r')) (.char '\n')).run s caught fun finish caught =>
      next finish ((4, (Spot.mk false t).upTo finish) :: caught))
    (fun fresh c r hc => by
      have hn : c ≠ '\n' := by rintro rfl; simp [Text.isGap] at hc
      have hr : c ≠ '\r' := by rintro rfl; simp [Text.isGap] at hc
      rw [run_lineBreak]
      split <;> simp_all) false t
  have hgap := List.takeWhile_append_dropWhile (p := Text.isGap) (l := t)
  have hrun : lineEndPattern.run ⟨false, t⟩ caught next =
      (runGreedy Text.isGap _ false t).or (next ⟨false, t⟩ caught) := rfl
  simp only [hrun, h, run_lineBreak, lineEnd?, drop_length_takeWhile]
  generalize t.takeWhile Text.isGap = gap at hgap
  generalize t.dropWhile Text.isGap = ahead at hgap
  subst hgap
  have hor (o : Option β) (s : Spot) (caught : Captures) :
      (next s caught).or o = next s caught := by
    cases hx : next s caught with
    | none => exact absurd hx (hnext s caught)
    | some x => rfl
  split
  · next r =>
      have hup : (Spot.mk false (gap ++ '\n' :: r)).upTo ⟨true, r⟩ = gap ++ ['\n'] := by
        simpa using Spot.upTo_append false true (gap ++ ['\n']) r
      simp [hor, hup]
  · next r =>
      have hup : (Spot.mk false (gap ++ '\r' :: '\n' :: r)).upTo ⟨true, r⟩ =
          gap ++ ['\r', '\n'] := by
        simpa using Spot.upTo_append false true (gap ++ ['\r', '\n']) r
      simp [hor, hup]
  · simp_all

/-- Two characters are matched where both stand. -/
theorem run_pair (a b : Char) (hb : b ≠ '\n') (fresh : Bool) (t : Text) (caught : Captures)
    (next : Spot → Captures → Option β) :
    (Pattern.seq (.char a) (.char b)).run ⟨fresh, t⟩ caught next =
      if [a, b] <+: t then next ⟨false, t.drop 2⟩ caught else none := by
  rcases t with _ | ⟨c, _ | ⟨d, r⟩⟩
  · rfl
  · by_cases hc : c = a <;> simp [run, run_char_cons, run_char_nil, Spot.behind, hc]
  · by_cases hc : c = a
    · by_cases hd : d = b
      · subst hc hd
        simp [run, run_char_cons, Spot.behind, hb]
      · simp [run, run_char_cons, Spot.behind, hc, hd, Ne.symm hd]
    · simp [run, run_char_cons, hc, Ne.symm hc]

/-- The closing bracket is matched behind a space. -/
theorem run_closePattern_space (fresh : Bool) (r : Text) (caught : Captures)
    (next : Spot → Captures → Option β) :
    closePattern.run ⟨fresh, ' ' :: r⟩ caught next =
      if closeMark <+: r then next ⟨false, r.drop 2⟩ caught else none := by
  have hno : ¬ ['%', '>'] <+: ' ' :: r := by simp
  rw [closePattern, run_optional_seq, run_char_seq, if_pos rfl, Spot.behind,
    run_pair _ _ (by decide), run_pair _ _ (by decide), if_neg hno, closeMark]
  simp

/-- The closing bracket is matched where it stands. -/
theorem run_closePattern {t : Text} (ht : t.head? ≠ some ' ') (fresh : Bool) (caught : Captures)
    (next : Spot → Captures → Option β) :
    closePattern.run ⟨fresh, t⟩ caught next =
      if closeMark <+: t then next ⟨false, t.drop 2⟩ caught else none := by
  rw [closePattern, run_optional_seq, run_pair _ _ (by decide), closeMark]
  rcases t with _ | ⟨c, r⟩
  · rfl
  · have hc : c ≠ ' ' := by simpa using ht
    rw [run_char_seq, if_neg hc, Option.none_or]

/-- Only the last character can be the space that is dropped. -/
theorem dropEndSpace_cons {c : Char} {body : Text} (h : c ≠ ' ' ∨ body ≠ []) :
    dropEndSpace (c :: body) = c :: dropEndSpace body := by
  rcases body with _ | ⟨d, r⟩
  · have hc : c ≠ ' ' := by simpa using h
    simp [dropEndSpace, hc]
  · by_cases hl : (d :: r).getLast? = some ' ' <;> simp [dropEndSpace, hl]

/-- The shortest body that the closing bracket follows: the code ends before one space in front of
the bracket. -/
theorem runLazy_closePattern {next : Spot → Captures → Option β}
    (hnext : ∀ s caught, next s caught ≠ none) (code : Text) (start : Bool) (caught : Captures)
    (fresh : Bool) (t : Text) :
    runLazy (fun _ => true) (fun s =>
        closePattern.run s ((3, (Spot.mk start (code ++ t)).upTo s) :: caught) next) fresh t =
      match Text.cutAt? closeMark t with
      | some (body, after) => next ⟨false, after⟩ ((3, code ++ dropEndSpace body) :: caught)
      | none => none := by
  have hsome (s : Spot) (caught : Captures) : ∃ x, next s caught = some x :=
    Option.ne_none_iff_exists'.1 (hnext s caught)
  induction t generalizing code fresh with
  | nil => rfl
  | cons c r ih =>
      by_cases hclose : closeMark <+: c :: r
      · -- the bracket starts here, so the code ends here
        have hc : (c :: r).head? ≠ some ' ' := by
          rintro h
          simp_all [closeMark]
        obtain ⟨x, hx⟩ := hsome ⟨false, (c :: r).drop closeMark.length⟩ ((3, code) :: caught)
        rw [Text.cutAt?_of_starts hclose]
        simp only [dropEndSpace, List.append_nil, List.getLast?_nil, reduceCtorEq, ite_false]
        rw [hx]
        apply runLazy_stop
        rw [run_closePattern hc, if_pos hclose, Spot.upTo_append]
        exact hx
      · rw [Text.cutAt?_cons hclose]
        by_cases hspace : c = ' ' ∧ closeMark <+: r
        · -- a space and then the bracket: the space is not part of the code
          obtain ⟨rfl, hr⟩ := hspace
          obtain ⟨x, hx⟩ := hsome ⟨false, r.drop closeMark.length⟩ ((3, code) :: caught)
          rw [Text.cutAt?_of_starts hr]
          simp only [Option.map_some, dropEndSpace, List.getLast?_singleton, ite_true,
            List.dropLast_singleton, List.append_nil]
          rw [hx]
          apply runLazy_stop
          rw [run_closePattern_space, if_pos hr, Spot.upTo_append]
          exact hx
        · have hnone : closePattern.run ⟨fresh, c :: r⟩
              ((3, (Spot.mk start (code ++ c :: r)).upTo ⟨fresh, c :: r⟩) :: caught) next = none := by
            by_cases hc : c = ' '
            · subst hc
              rw [run_closePattern_space, if_neg fun h => hspace ⟨rfl, h⟩]
            · rw [run_closePattern (by simpa using hc), if_neg hclose]
          rw [runLazy_pass hnone]
          have hrest := ih (code ++ [c]) (c = '\n')
          simp only [List.append_assoc, List.singleton_append] at hrest
          rw [hrest]
          cases hcut : Text.cutAt? closeMark r with
          | none => rfl
          | some x =>
              obtain ⟨body, after⟩ := x
              have hbody : c ≠ ' ' ∨ body ≠ [] := by
                by_cases hc : c = ' '
                · refine .inr fun hb => hspace ⟨hc, after, ?_⟩
                  rw [(Text.cutAt?_eq_some hcut).1, hb, List.nil_append]
                · exact .inl hc
              simp only [Option.map_some, dropEndSpace_cons hbody]

/-- The code of a directive and its closing bracket are matched as the scan reads them. -/
theorem run_codePattern {next : Spot → Captures → Option β}
    (hnext : ∀ s caught, next s caught ≠ none) (fresh : Bool) (t : Text) (caught : Captures) :
    codePattern.run ⟨fresh, t⟩ caught next =
      match Text.cutAt? closeMark t with
      | some (body, after) => next ⟨false, after⟩ ((3, codeOf body) :: caught)
      | none => none := by
  have hbody (fresh : Bool) (t : Text) :
      (Pattern.seq (.group 3 (.lazy fun _ => true)) closePattern).run ⟨fresh, t⟩ caught next =
        match Text.cutAt? closeMark t with
        | some (body, after) => next ⟨false, after⟩ ((3, dropEndSpace body) :: caught)
        | none => none :=
    runLazy_closePattern hnext [] fresh caught fresh t
  rw [codePattern, run_optional_seq]
  rcases t with _ | ⟨c, r⟩
  · rw [hbody]
    rfl
  · rw [run_char_seq, hbody]
    by_cases hc : c = ' '
    · subst hc
      rw [if_pos rfl, Spot.behind, hbody, cutAt?_closeMark_cons (by decide)]
      cases hcut : Text.cutAt? closeMark r with
      | none => rfl
      | some x =>
          obtain ⟨y, hy⟩ := Option.ne_none_iff_exists'.1
            (hnext ⟨false, x.2⟩ ((3, dropEndSpace x.1) :: caught))
          simp [codeOf, dropSpace, hy]
    · rw [if_neg hc, Option.none_or, hbody]
      cases hcut : Text.cutAt? closeMark (c :: r) with
      | none => rfl
      | some x =>
          obtain ⟨body, after⟩ := x
          have hdrop : dropSpace body = body := by
            rcases body with _ | ⟨d, body⟩
            · rfl
            · have hd : c = d := (List.cons.inj (Text.cutAt?_eq_some hcut).1).1
              simp [dropSpace, ← hd, hc]
          simp only [codeOf, hdrop]

/-- The kind of a directive and the text behind its mark are what the scan takes, when what comes next
does not care whether a character that closes nothing stands in front. -/
theorem run_markPattern {next : Spot → Captures → Option β}
    (hnext : ∀ c, c ≠ '%' → ∀ r caught caught', next ⟨false, r⟩ caught = none →
      next ⟨false, c :: r⟩ caught' = none) (t : Text) (caught : Captures) :
    markPattern.run ⟨false, t⟩ caught next =
      match takeKind t with
      | (.statement, r) => next ⟨false, r⟩ caught
      | (kind, r) => next ⟨false, r⟩ ((2, kind.mark) :: caught) := by
  have hup (mark r : Text) : (Spot.mk false (mark ++ r)).upTo ⟨false, r⟩ = mark :=
    Spot.upTo_append false false mark r
  have hor {o o' : Option β} (h : o = none → o' = none) : o.or o' = o := by
    cases o with
    | none => exact h rfl
    | some x => rfl
  have hmark (t : Text) : markPattern.run ⟨false, t⟩ caught next =
      (((Pattern.char '=').run ⟨false, t⟩ caught fun s caught =>
          (((Pattern.char '=').run s caught fun finish caught =>
              next finish ((2, (Spot.mk false t).upTo finish) :: caught)).or
            (next s ((2, (Spot.mk false t).upTo s) :: caught)))).or
        ((Pattern.char '#').run ⟨false, t⟩ caught fun finish caught =>
          next finish ((2, (Spot.mk false t).upTo finish) :: caught))).or (next ⟨false, t⟩ caught) :=
    rfl
  rw [hmark]
  have heq := hnext '=' (by decide)
  have hhash := hnext '#' (by decide)
  fun_cases takeKind t with
  | case1 r =>
      have h := hup ['=', '='] r
      have h' := hup ['='] ('=' :: r)
      simp only [List.cons_append, List.nil_append] at h h'
      simp [run_char_cons, Spot.behind, h, h', DirectiveKind.mark,
        hor (heq r ((2, ['=', '=']) :: caught) ((2, ['=']) :: caught)),
        hor fun hnone => heq ('=' :: r) caught caught (heq r ((2, ['=', '=']) :: caught) caught hnone)]
  | case2 r hr =>
      have h := hup ['='] r
      simp only [List.cons_append, List.nil_append] at h
      rcases r with _ | ⟨c, r⟩
      · simp [run_char_cons, run_char_nil, Spot.behind, h, DirectiveKind.mark,
          hor (heq [] ((2, ['=']) :: caught) caught)]
      · have hc : c ≠ '=' := by
          rintro rfl
          exact hr r rfl
        simp [run_char_cons, Spot.behind, h, hc, DirectiveKind.mark,
          hor (heq (c :: r) ((2, ['=']) :: caught) caught)]
  | case3 r =>
      have h := hup ['#'] r
      simp only [List.cons_append, List.nil_append] at h
      simp [run_char_cons, Spot.behind, h, DirectiveKind.mark,
        hor (hhash r ((2, ['#']) :: caught) caught)]
  | case4 t _ h1 hh =>
      rcases t with _ | ⟨c, r⟩
      · rfl
      · have hc : c ≠ '=' := by
          rintro rfl
          exact h1 r rfl
        have hc' : c ≠ '#' := by
          rintro rfl
          exact hh r rfl
        simp [run_char_cons, hc, hc']

/-! ## What the whole pattern matches -/

/-- The kind and the body of a directive whose brackets start a text, and the text behind it. -/
def bracketAt? (t : Text) : Option (DirectiveKind × Text × Text) :=
  if openMark <+: t then
    let marked := takeKind (t.drop openMark.length)
    (Text.cutAt? closeMark marked.2).map fun x => (marked.1, x.1, x.2)
  else none

/-- What the groups of a directive from its opening bracket on have matched. -/
def catches (kind : DirectiveKind) (body : Text) (rspace : Option Text) (caught : Captures) :
    Captures :=
  let caught := if kind = .statement then caught else (2, kind.mark) :: caught
  let caught := (3, codeOf body) :: caught
  match rspace with
  | some l => (4, l) :: caught
  | none => caught

/-- The code and the end of the line are matched as the scan reads them. -/
theorem run_codePattern_lineEndPattern {next : Spot → Captures → Option β}
    (hnext : ∀ s caught, next s caught ≠ none) (fresh : Bool) (t : Text) (caught : Captures) :
    (Pattern.seq codePattern lineEndPattern).run ⟨fresh, t⟩ caught next =
      match Text.cutAt? closeMark t with
      | none => none
      | some (body, after) =>
        match lineEnd? after with
        | some l => next ⟨true, after.drop l.length⟩ ((4, l) :: (3, codeOf body) :: caught)
        | none => next ⟨false, after⟩ ((3, codeOf body) :: caught) := by
  have hend (s : Spot) (caught : Captures) : lineEndPattern.run s caught next ≠ none := by
    intro h
    exact hnext s caught (Option.or_eq_none_iff.1 h).2
  have hcode : (Pattern.seq codePattern lineEndPattern).run ⟨fresh, t⟩ caught next =
      codePattern.run ⟨fresh, t⟩ caught fun s caught => lineEndPattern.run s caught next := rfl
  rw [hcode, run_codePattern hend]
  cases Text.cutAt? closeMark t with
  | none => rfl
  | some x => exact run_lineEndPattern hnext x.2 _

/-- A directive is matched from its opening bracket on as the scan reads it. -/
theorem run_bracketPattern {next : Spot → Captures → Option β}
    (hnext : ∀ s caught, next s caught ≠ none) (fresh : Bool) (t : Text) (caught : Captures) :
    bracketPattern.run ⟨fresh, t⟩ caught next =
      match bracketAt? t with
      | none => none
      | some (kind, body, after) =>
        next ⟨(lineEnd? after).isSome, after.drop ((lineEnd? after).getD []).length⟩
          (catches kind body (lineEnd? after) caught) := by
  by_cases hopen : openMark <+: t
  · obtain ⟨r, rfl⟩ := hopen
    have hmark : bracketPattern.run ⟨fresh, openMark ++ r⟩ caught next =
        markPattern.run ⟨false, r⟩ caught fun s caught =>
          (Pattern.seq codePattern lineEndPattern).run s caught next := rfl
    have hdrop : (openMark ++ r).drop openMark.length = r := List.drop_left
    rw [hmark, run_markPattern]
    · simp only [bracketAt?, List.prefix_append, ite_true, hdrop,
        run_codePattern_lineEndPattern hnext]
      generalize takeKind r = marked
      obtain ⟨kind, ahead⟩ := marked
      cases hcut : Text.cutAt? closeMark ahead with
      | none => cases kind <;> simp [hcut]
      | some x => cases kind <;> cases hend : lineEnd? x.2 <;> simp [catches, hcut, hend]
    · intro c hc r caught caught' hnone
      rw [run_codePattern_lineEndPattern hnext] at hnone ⊢
      rw [cutAt?_closeMark_cons hc]
      cases hcut : Text.cutAt? closeMark r with
      | none => rfl
      | some x => cases hend : lineEnd? x.2 <;> simp [hcut, hend, hnext] at hnone
  · rw [bracketAt?, if_neg hopen]
    rcases t with _ | ⟨c, _ | ⟨d, r⟩⟩
    · rfl
    · rw [bracketPattern, run_char_seq]
      split <;> rfl
    · rw [bracketPattern, run_char_seq]
      split
      · next hc =>
          have hd : d ≠ '%' := by
            rintro rfl
            exact hopen ⟨r, by simp [openMark, hc]⟩
          rw [Spot.behind, run_char_seq, if_neg hd]
      · rfl

/-- The indentation that a match takes up at a place: the gaps ahead when a line starts there. -/
def gapsAt (fresh : Bool) (t : Text) : Text :=
  if fresh then t.takeWhile Text.isGap else []

/-- A directive does not start with a gap. -/
theorem bracketAt?_gap {c : Char} (hc : Text.isGap c) (r : Text) : bracketAt? (c :: r) = none := by
  have h : ¬ openMark <+: c :: r := by
    rintro ⟨rest, hrest⟩
    have hlt : c = '<' := (List.cons.inj hrest).1.symm
    subst hlt
    simp [Text.isGap] at hc
  rw [bracketAt?, if_neg h]

/-- The match of the whole pattern at a place: gaps at the start of a line, and a directive. -/
theorem match?_directivePattern (fresh : Bool) (t : Text) :
    directivePattern.match? ⟨fresh, t⟩ =
      (bracketAt? (t.drop (gapsAt fresh t).length)).map fun (kind, body, after) =>
        ⟨[], ⟨fresh, t⟩,
          ⟨(lineEnd? after).isSome, after.drop ((lineEnd? after).getD []).length⟩,
          catches kind body (lineEnd? after) (if fresh then [(1, gapsAt fresh t)] else [])⟩ := by
  let next : Spot → Captures → Option Pattern.Match :=
    fun finish caught => some ⟨[], ⟨fresh, t⟩, finish, caught⟩
  have hnext (s : Spot) (caught : Captures) : next s caught ≠ none := Option.some_ne_none _
  have hrun : directivePattern.match? ⟨fresh, t⟩ =
      (if fresh then runGreedy Text.isGap (fun s =>
          bracketPattern.run s [(1, (Spot.mk fresh t).upTo s)] next) fresh t
        else none).or (bracketPattern.run ⟨fresh, t⟩ [] next) := rfl
  rw [hrun, run_bracketPattern hnext]
  cases fresh with
  | false =>
      simp only [gapsAt, Bool.false_eq_true, ite_false, Option.none_or, List.length_nil, List.drop_zero]
      cases bracketAt? t <;> rfl
  | true =>
      obtain ⟨fresh', h⟩ := runGreedy_eq Text.isGap
        (fun s => bracketPattern.run s [(1, (Spot.mk true t).upTo s)] next)
        (fun fresh c r hc => by rw [run_bracketPattern hnext, bracketAt?_gap hc]) true t
      have hup : (Spot.mk true t).upTo ⟨fresh', t.dropWhile Text.isGap⟩ = t.takeWhile Text.isGap := by
        have hsplit := Spot.upTo_append true fresh' (t.takeWhile Text.isGap) (t.dropWhile Text.isGap)
        rwa [List.takeWhile_append_dropWhile] at hsplit
      rw [if_pos rfl, h, hup, run_bracketPattern hnext]
      simp only [gapsAt, ite_true, drop_length_takeWhile]
      cases hb : bracketAt? (t.dropWhile Text.isGap) with
      | some x => rfl
      | none =>
          -- leaving the indentation out does not help: a gap is no opening bracket
          have hnone : bracketAt? t = none := by
            rcases t with _ | ⟨c, r⟩
            · rfl
            · by_cases hc : Text.isGap c
              · exact bracketAt?_gap hc r
              · simpa [hc] using hb
          rw [hnone]
          rfl

/-! ## The leftmost match -/

/-- The text of a directive with the white space that belongs to its line. -/
def Found.text (f : Found) : Text :=
  f.lspace.getD [] ++ (openMark ++ (f.kind.mark ++ (f.body ++ (closeMark ++ f.rspace.getD []))))

/-- A match and a directive that are read off the same part of a text. -/
structure Agrees (m : Pattern.Match) (f : Found) : Prop where
  before_eq : m.before = f.before
  text_eq : m.text = f.text
  finish_eq : m.finish = ⟨f.rspace.isSome, f.rest⟩
  caught_eq : m.caught = catches f.kind f.body f.rspace (f.lspace.toList.map fun l => (1, l))

/-- The mark is what is taken from a text for it. -/
theorem takeKind_eq (t : Text) : t = (takeKind t).1.mark ++ (takeKind t).2 := by
  fun_cases takeKind t <;> rfl

/-- The end of a line is taken from the start of a text. -/
theorem lineEnd?_append_drop (t : Text) :
    t = (lineEnd? t).getD [] ++ t.drop ((lineEnd? t).getD []).length := by
  cases h : lineEnd? t with
  | none => rfl
  | some l =>
      have hl : l <+: t := by
        rw [lineEnd?, drop_length_takeWhile] at h
        have hgap := List.takeWhile_append_dropWhile (p := Text.isGap) (l := t)
        split at h
        · next r hr =>
            rw [hr] at hgap
            rw [← Option.some.inj h]
            exact ⟨r, by simpa using hgap⟩
        · next r hr =>
            rw [hr] at hgap
            rw [← Option.some.inj h]
            exact ⟨r, by simpa using hgap⟩
        · simp at h
      obtain ⟨rest, rfl⟩ := hl
      simp

/-- A directive from its opening bracket on, in one piece. -/
theorem bracketAt?_eq_some {t body after : Text} {kind : DirectiveKind}
    (h : bracketAt? t = some (kind, body, after)) :
    t = openMark ++ (kind.mark ++ (body ++ (closeMark ++ after))) := by
  rw [bracketAt?] at h
  split at h
  · next hopen =>
      obtain ⟨r, rfl⟩ := hopen
      simp only [List.drop_left, Option.map_eq_some_iff, Prod.mk.injEq] at h
      obtain ⟨⟨b, a⟩, hcut, hx⟩ := h
      obtain ⟨rfl, rfl, rfl⟩ := hx
      rw [← (Text.cutAt?_eq_some hcut).1, ← takeKind_eq]
  · simp at h

/-- The directive found behind a literal text, given what its brackets hold. -/
def foundAt (fresh : Bool) (before : Text) (x : DirectiveKind × Text × Text) : Found :=
  let lspace := indentation? fresh before
  { before := before.take (before.length - (lspace.getD []).length)
    kind := x.1, body := x.2.1, lspace, rspace := lineEnd? x.2.2
    rest := x.2.2.drop ((lineEnd? x.2.2).getD []).length }

/-- The scan looks at the first opening bracket only. -/
theorem find?_eq (fresh : Bool) (t : Text) :
    find? fresh t = (Text.cutAt? openMark t).bind fun x =>
      (bracketAt? (openMark ++ x.2)).map (foundAt fresh x.1) := by
  simp only [find?, bracketAt?, List.prefix_append, ite_true, List.drop_left, bind]
  cases Text.cutAt? openMark t with
  | none => rfl
  | some x =>
      simp only [Option.bind_some]
      generalize takeKind x.2 = marked
      cases Text.cutAt? closeMark marked.2 <;> rfl

/-- No directive can start in a text when no closing bracket stands behind an opening one. -/
def NeverCloses (t : Text) : Prop :=
  ∀ i j, openMark <+: t.drop i → i + openMark.length ≤ j → ¬ closeMark <+: t.drop j

/-- The pattern matches nowhere in a text in which no directive can start. -/
theorem search_eq_none {t : Text} (h : NeverCloses t) (fresh : Bool) :
    directivePattern.search fresh t = none := by
  have hmatch (fresh : Bool) {t : Text} (h : NeverCloses t) :
      directivePattern.match? ⟨fresh, t⟩ = none := by
    rw [match?_directivePattern]
    cases hb : bracketAt? (t.drop (gapsAt fresh t).length) with
    | none => rfl
    | some x =>
        obtain ⟨kind, body, after⟩ := x
        have hdrop := bracketAt?_eq_some hb
        have hclose : t.drop ((gapsAt fresh t).length + (openMark ++ (kind.mark ++ body)).length) =
            closeMark ++ after := by
          rw [← List.drop_drop, hdrop, List.length_append, List.length_append, ← List.drop_drop,
            List.drop_left, ← List.drop_drop, List.drop_left, List.drop_left]
        refine absurd ⟨after, hclose.symm⟩ (h _ _ ⟨_, hdrop.symm⟩ ?_)
        simp
  induction t generalizing fresh with
  | nil => exact hmatch fresh h
  | cons c r ih =>
      have hr : NeverCloses r := fun i j hi hj => h (i + 1) (j + 1) hi (by omega)
      simp [Pattern.search, hmatch fresh h, ih hr]

/-- A closing bracket does not start within a mark. -/
theorem not_closeMark_mark (kind : DirectiveKind) (r : Text) {j : Nat} (hj : j < kind.mark.length) :
    ¬ closeMark <+: (kind.mark ++ r).drop j := by
  rintro ⟨rest, h⟩
  have hhead : ((kind.mark ++ r).drop j).head? = some '%' := by rw [← h]; rfl
  have hmem : '%' ∈ kind.mark := by
    rw [List.head?_drop, List.getElem?_append_left hj] at hhead
    exact List.mem_of_getElem? hhead
  cases kind <;> simp [DirectiveKind.mark] at hmem

/-- An opening bracket does not start within gaps. -/
theorem not_openMark_gaps {gaps : Text} (hgaps : gaps.all Text.isGap) (r : Text) {i : Nat}
    (hi : i < gaps.length) : ¬ openMark <+: (gaps ++ r).drop i := by
  rintro ⟨rest, h⟩
  have hhead : ((gaps ++ r).drop i).head? = some '<' := by rw [← h]; rfl
  rw [List.head?_drop, List.getElem?_append_left hi] at hhead
  have hgap := List.all_eq_true.1 hgaps _ (List.mem_of_getElem? hhead)
  simp [Text.isGap] at hgap

/-- A directive that starts behind gaps and is never closed leaves no other one. -/
theorem neverCloses_of_bracketAt? {gaps u : Text} (hgaps : gaps.all Text.isGap) (hu : openMark <+: u)
    (hb : bracketAt? u = none) : NeverCloses (gaps ++ u) := by
  obtain ⟨v, rfl⟩ := hu
  have hcut : Text.cutAt? closeMark (takeKind v).2 = none := by
    simpa [bracketAt?] using hb
  have hv (j : Nat) : ¬ closeMark <+: v.drop j := by
    rw [takeKind_eq v]
    by_cases hj : j < (takeKind v).1.mark.length
    · exact not_closeMark_mark _ _ hj
    · obtain ⟨k, rfl⟩ := Nat.exists_eq_add_of_le (Nat.le_of_not_lt hj)
      rw [← List.drop_drop, List.drop_left]
      exact Text.cutAt?_eq_none hcut k
  intro i j hi hj
  have hi' : gaps.length ≤ i := by
    refine Nat.le_of_not_lt fun hlt => not_openMark_gaps hgaps _ hlt hi
  obtain ⟨k, rfl⟩ := Nat.exists_eq_add_of_le (show (gaps ++ openMark).length ≤ j by
    rw [List.length_append]
    omega)
  rw [← List.append_assoc, ← List.drop_drop, List.drop_left]
  exact hv k

/-- The gaps at the start of a text and a bracket behind them. -/
theorem cutAt?_openMark_gaps {gaps u : Text} (hgaps : gaps.all Text.isGap) (hu : openMark <+: u) :
    Text.cutAt? openMark (gaps ++ u) = some (gaps, u.drop openMark.length) := by
  induction gaps with
  | nil => exact Text.cutAt?_of_starts hu
  | cons c r ih =>
      have hno : ¬ openMark <+: c :: (r ++ u) :=
        not_openMark_gaps hgaps u (show 0 < (c :: r).length by simp)
      have hr : r.all Text.isGap := by simpa using (List.all_eq_true.1 hgaps · <| List.mem_cons_of_mem c ·)
      rw [List.cons_append, Text.cutAt?_cons hno, ih hr]
      rfl

/-- Without a line break a text goes on with the last line of the text before it. -/
theorem lastLine_append_of_not_mem {b : Text} (hb : '\n' ∉ b) (a : Text) :
    lastLine (a ++ b) = lastLine a ++ b := by
  have hall : ∀ c ∈ b.reverse, decide (c ≠ '\n') = true := by
    intro c hc
    simpa using fun h : c = '\n' => hb (by simpa [h] using hc)
  rw [lastLine, List.reverse_append, List.takeWhile_append_of_pos hall]
  simp [lastLine]

/-- A line break ends the line before it. -/
theorem lastLine_append_break (a : Text) : lastLine (a ++ ['\n']) = [] := by
  simp [lastLine]

/-- Behind a line break nothing before it counts for the last line. -/
theorem lastLine_append_of_mem {b : Text} (hb : '\n' ∈ b) (a : Text) :
    lastLine (a ++ b) = lastLine b := by
  obtain ⟨t, u, hsplit, ht⟩ := List.eq_append_cons_of_mem (List.mem_reverse.2 hb)
  have hbt : b = u.reverse ++ ['\n'] ++ t.reverse := by
    rw [← List.reverse_reverse b, hsplit]
    simp
  have hno : '\n' ∉ t.reverse := by simpa using ht
  rw [hbt, ← List.append_assoc, ← List.append_assoc, lastLine_append_of_not_mem hno,
    lastLine_append_of_not_mem hno, lastLine_append_break, lastLine_append_break]

/-- Gaps hold no line break. -/
theorem break_not_mem_gaps {gaps : Text} (hgaps : gaps.all Text.isGap) : '\n' ∉ gaps := by
  intro h
  simpa [Text.isGap] using List.all_eq_true.1 hgaps _ h

/-- The indentation in front of a directive on the first line of a text. -/
theorem indentation?_gaps {gaps : Text} (hgaps : gaps.all Text.isGap) (fresh : Bool) :
    indentation? fresh gaps = if fresh then some gaps else none := by
  have hno := break_not_mem_gaps hgaps
  have hline : lastLine gaps = gaps := lastLine_append_of_not_mem hno []
  simp [indentation?, hline, hgaps, hno]

/-- A character in front of a text does not change its last indentation, unless both are gaps at the
start of a line. -/
theorem indentation?_cons {fresh : Bool} {c : Char} {b : Text}
    (h : ¬ (fresh ∧ (c :: b).all Text.isGap)) :
    indentation? fresh (c :: b) = indentation? (c = '\n') b := by
  by_cases hb : '\n' ∈ b
  · have hline : lastLine (c :: b) = lastLine b := lastLine_append_of_mem hb [c]
    simp [indentation?, hline, hb]
  · have hline : lastLine b = b := lastLine_append_of_not_mem hb []
    by_cases hc : c = '\n'
    · subst hc
      have hline' : lastLine ('\n' :: b) = b := lastLine_append_of_not_mem hb ['\n']
      simp [indentation?, hline, hline', hb]
    · have hno : '\n' ∉ c :: b := by simp [Ne.symm hc, hb]
      have hline' : lastLine (c :: b) = c :: b := lastLine_append_of_not_mem hno []
      have hgaps : ¬ ((c :: b).all Text.isGap && fresh) := by
        rw [Bool.and_eq_true]
        exact fun hall => h hall.symm
      simp [indentation?, hline, hline', hc, Ne.symm hc, hb] at hgaps ⊢
      exact hgaps

/-- The last line of a text is part of it. -/
theorem lastLine_length (b : Text) : (lastLine b).length ≤ b.length := by
  simpa [lastLine] using (List.takeWhile_sublist (l := b.reverse) (· ≠ '\n')).length_le

/-- The indentation of a directive is part of the text in front of it. -/
theorem indentation?_length (fresh : Bool) (b : Text) :
    ((indentation? fresh b).getD []).length ≤ b.length := by
  rw [indentation?]
  split
  · exact lastLine_length b
  · exact Nat.zero_le _

/-- A match of the gaps and the brackets at a place agrees with the directive that is read there. -/
theorem agrees_foundAt {fresh : Bool} {u body after : Text} {kind : DirectiveKind}
    {gaps : Text} (hgaps : gaps.all Text.isGap) (hfresh : fresh ∨ gaps = [])
    (hb : bracketAt? u = some (kind, body, after)) :
    Agrees ⟨[], ⟨fresh, gaps ++ u⟩,
        ⟨(lineEnd? after).isSome, after.drop ((lineEnd? after).getD []).length⟩,
        catches kind body (lineEnd? after) (if fresh then [(1, gaps)] else [])⟩
      (foundAt fresh gaps (kind, body, after)) := by
  have hlspace : (indentation? fresh gaps).getD [] = gaps := by
    rw [indentation?_gaps hgaps]
    cases fresh <;> simp_all
  constructor
  · simp [foundAt, hlspace]
  · have htext := Spot.upTo_append fresh (lineEnd? after).isSome
      (gaps ++ (openMark ++ (kind.mark ++ (body ++ (closeMark ++ (lineEnd? after).getD [])))))
      (after.drop ((lineEnd? after).getD []).length)
    simp only [List.append_assoc, ← lineEnd?_append_drop] at htext
    simp only [Pattern.Match.text, bracketAt?_eq_some hb, htext, Found.text, foundAt, hlspace]
  · rfl
  · simp only [foundAt, indentation?_gaps hgaps]
    cases fresh <;> rfl

/-- The gaps that a match takes up are the start of the text. -/
theorem gapsAt_append (fresh : Bool) (t : Text) :
    gapsAt fresh t ++ t.drop (gapsAt fresh t).length = t := by
  cases fresh with
  | false => rfl
  | true =>
      rw [gapsAt, if_pos rfl, drop_length_takeWhile]
      exact List.takeWhile_append_dropWhile

/-- Where neither the gaps nor the brackets of a directive start, the scan goes on behind the first
character. -/
theorem find?_cons {fresh : Bool} {c : Char} {r : Text}
    (h : ¬ openMark <+: (c :: r).drop (gapsAt fresh (c :: r)).length) :
    find? fresh (c :: r) =
      (find? (c = '\n') r).map fun f => { f with before := c :: f.before } := by
  have hopen : ¬ openMark <+: c :: r := by
    intro hp
    have hc : c = '<' := by
      obtain ⟨rest, hrest⟩ := hp
      exact (List.cons.inj hrest).1.symm
    refine h ?_
    cases fresh <;> simpa [gapsAt, hc, Text.isGap] using hp
  rw [find?_eq, find?_eq, Text.cutAt?_cons hopen]
  cases hcut : Text.cutAt? openMark r with
  | none => rfl
  | some x =>
      obtain ⟨b, opened⟩ := x
      have hindent : indentation? fresh (c :: b) = indentation? (c = '\n') b := by
        refine indentation?_cons fun ⟨hfresh, hgaps⟩ => h ?_
        have hr : c :: r = (c :: b) ++ (openMark ++ opened) := by
          rw [(Text.cutAt?_eq_some hcut).1, List.cons_append]
        have hdrop : (openMark ++ opened).dropWhile Text.isGap = openMark ++ opened := rfl
        rw [gapsAt, if_pos hfresh, drop_length_takeWhile, hr,
          List.dropWhile_append_of_pos (List.all_eq_true.1 hgaps), hdrop]
        exact List.prefix_append _ _
      have hlen := indentation?_length (c = '\n') b
      cases hb : bracketAt? (openMark ++ opened) with
      | none => simp [hb]
      | some y =>
          have htake : b.length + 1 - ((indentation? (c = '\n') b).getD []).length =
              b.length - ((indentation? (c = '\n') b).getD []).length + 1 := by
            omega
          simp [hb, foundAt, hindent, htake]

/-- The leftmost match of the pattern is the directive that the scan finds. -/
theorem search_directivePattern (fresh : Bool) (t : Text) :
    Option.Rel Agrees (directivePattern.search fresh t) (find? fresh t) := by
  induction t generalizing fresh with
  | nil => cases fresh <;> exact .none
  | cons c r ih =>
      have hsplit := gapsAt_append fresh (c :: r)
      have hgaps : (gapsAt fresh (c :: r)).all Text.isGap := by
        cases fresh
        · rfl
        · exact List.all_takeWhile
      have hfresh : fresh ∨ gapsAt fresh (c :: r) = [] := by
        cases fresh <;> simp [gapsAt]
      have hmatch := match?_directivePattern fresh (c :: r)
      by_cases hopen : openMark <+: (c :: r).drop (gapsAt fresh (c :: r)).length
      · have hfind : find? fresh (c :: r) =
            (bracketAt? ((c :: r).drop (gapsAt fresh (c :: r)).length)).map
              (foundAt fresh (gapsAt fresh (c :: r))) := by
          rw [find?_eq]
          conv => lhs; rw [← hsplit, cutAt?_openMark_gaps hgaps hopen]
          obtain ⟨rest, hrest⟩ := hopen
          simp [← hrest]
        cases hb : bracketAt? ((c :: r).drop (gapsAt fresh (c :: r)).length) with
        | none =>
            rw [hfind, hb, ← hsplit, search_eq_none (neverCloses_of_bracketAt? hgaps hopen hb)]
            exact .none
        | some x =>
            have hagrees := agrees_foundAt hgaps hfresh hb
            rw [hsplit] at hagrees
            rw [hb] at hmatch hfind
            rw [hfind, Pattern.search, hmatch]
            exact .some hagrees
      · have hb : bracketAt? ((c :: r).drop (gapsAt fresh (c :: r)).length) = none := by
          rw [bracketAt?, if_neg hopen]
        rw [hb] at hmatch
        rw [find?_cons hopen, Pattern.search, hmatch]
        have hrest := ih (c = '\n')
        revert hrest
        generalize directivePattern.search (c = '\n') r = m
        generalize find? (c = '\n') r = f
        rintro (h | _)
        · exact .some ⟨congrArg (c :: ·) h.before_eq, h.text_eq, h.finish_eq, h.caught_eq⟩
        · exact .none

/-! ## Segments -/

/-- The last line ends a text. -/
theorem lastLine_suffix (b : Text) : lastLine b <:+ b := by
  have h := List.takeWhile_prefix (l := b.reverse) (· ≠ '\n')
  simpa [lastLine] using List.reverse_suffix.2 h

/-- The text before a directive ends with its indentation. -/
theorem take_append_indentation? (fresh : Bool) (b : Text) :
    b.take (b.length - ((indentation? fresh b).getD []).length) ++ (indentation? fresh b).getD [] =
      b := by
  rw [indentation?]
  split
  · obtain ⟨a, ha⟩ := lastLine_suffix b
    have hlen : b.length = a.length + (lastLine b).length := by
      rw [← List.length_append, ha]
    have htake : b.take a.length = a := by
      conv => lhs; rw [← ha]
      exact List.take_left
    rw [Option.getD_some, hlen, Nat.add_sub_cancel, htake, ha]
  · simp

/-- The indentation of a directive holds no line break. -/
theorem breaks_indentation? (fresh : Bool) (b : Text) :
    Text.breaks ((indentation? fresh b).getD []) = 0 := by
  rw [indentation?]
  split
  · next h =>
      rw [Bool.and_eq_true] at h
      exact List.count_eq_zero.2 (break_not_mem_gaps h.1)
  · rfl

/-- A directive that is found splits the text into what stands before it, its own text, and the rest. -/
theorem find?_append {fresh : Bool} {t : Text} {f : Found} (h : find? fresh t = some f) :
    t = f.before ++ (f.text ++ f.rest) := by
  rw [find?_eq, Option.bind_eq_some_iff] at h
  obtain ⟨⟨b, opened⟩, hcut, h⟩ := h
  obtain ⟨⟨kind, body, after⟩, hb, rfl⟩ := Option.map_eq_some_iff.1 h
  have hbefore := take_append_indentation? fresh b
  calc t = b ++ (openMark ++ opened) := (Text.cutAt?_eq_some hcut).1
    _ = b ++ (openMark ++ (kind.mark ++ (body ++ (closeMark ++ after)))) := by
        rw [bracketAt?_eq_some hb]
    _ = _ := by
        conv => lhs; rw [← hbefore, lineEnd?_append_drop after]
        simp [foundAt, Found.text]

/-- The line breaks of a directive are those of its body and of the end of its line. -/
theorem breaks_text {fresh : Bool} {t : Text} {f : Found} (h : find? fresh t = some f) :
    Text.breaks f.text = f.breaks := by
  rw [find?_eq, Option.bind_eq_some_iff] at h
  obtain ⟨⟨b, opened⟩, -, h⟩ := h
  obtain ⟨⟨kind, body, after⟩, -, rfl⟩ := Option.map_eq_some_iff.1 h
  have hlspace := breaks_indentation? fresh b
  have hmark : Text.breaks kind.mark = 0 := by cases kind <;> rfl
  have hopen : Text.breaks openMark = 0 := rfl
  have hclose : Text.breaks closeMark = 0 := rfl
  simp only [Text.breaks] at hlspace hmark hopen hclose
  simp [Found.text, Found.breaks, foundAt, Text.breaks, hlspace, hmark, hopen, hclose]

/-- What the groups of a match have caught are the parts of the directive. -/
theorem directiveOf_eq {m : Pattern.Match} {f : Found} (h : Agrees m f) (line : Int) :
    directiveOf m line = ⟨f.kind, codeOf f.body, f.lspace, f.rspace, line⟩ := by
  obtain ⟨before, kind, body, lspace, rspace, rest⟩ := f
  have hcaught := h.caught_eq
  cases kind <;> cases lspace <;> cases rspace <;>
    simp [directiveOf, Pattern.Match.group?, hcaught, catches, kindOf, DirectiveKind.mark,
      List.lookup_cons]

/-- With fuel for each character, the scan goes on as the matching does. -/
theorem scanFrom_eq_matchedFrom {fuel : Nat} {t : Text} (h : t.length < fuel) (fresh : Bool)
    (line : Int) : scanFrom fuel fresh line t = matchedFrom line ⟨fresh, t⟩ := by
  induction fuel generalizing t fresh line with
  | zero => exact absurd h (Nat.not_lt_zero _)
  | succ fuel ih =>
      have hrel := search_directivePattern fresh t
      rw [scanFrom, matchedFrom]
      cases hfind : find? fresh t with
      | none =>
          rw [hfind] at hrel
          cases hsearch : directivePattern.search fresh t with
          | none => rfl
          | some m => simp [hsearch] at hrel
      | some f =>
          rw [hfind] at hrel
          cases hsearch : directivePattern.search fresh t with
          | none => simp [hsearch] at hrel
          | some m =>
              rw [hsearch] at hrel
              have hm : Agrees m f := by simpa using hrel
              have hlt : f.rest.length < t.length := by
                rw [find?_append hfind, Found.text]
                simp [openMark]
                omega
              simp only [hm.before_eq, hm.finish_eq, hm.text_eq, breaks_text hfind,
                directiveOf_eq hm, hlt, ite_true, literalOf]
              rw [ih (by omega)]
              split <;> simp_all

/-- The segments of a template are those that the leftmost matches of the pattern split it into. -/
theorem scan_eq_matched (source : Text) (line : Int) : scan source line = matched source line :=
  scanFrom_eq_matchedFrom (Nat.lt_succ_self _) true line

end Stencil.Segment
