import Stencil.Proofs.Inset.Tokens

/-!
# The tokens of an expression within brackets

Within brackets line breaks and the gaps at the start of a line mean nothing. So an expression that stands
by itself has the same tokens there (`lexes_inset`): the line break that ends it, and the blank lines and
remarks around it, are passed over, up to the bracket that closes.
-/

namespace Stencil.Script

open Text (isAsciiDigit)

/-! ## Tokens that are the same -/

/-- The tokens of an expression that are the same but for the depth of brackets and the lines on which
they end. -/
def SameTokens (ts ts' : List Token) : Prop :=
  List.Forall₂ (fun t t' => t.lexeme = t'.lexeme ∧ t.line = t'.line ∧ t.lexeme.isEnd = false) ts ts'

/-- The same tokens in front of two ends are aligned. -/
theorem SameTokens.aligned {ts ts' : List Token} (h : SameTokens ts ts') (left right : List Token) :
    Aligned left right (ts ++ left) (ts' ++ right) := by
  induction h with
  | nil => exact .ends
  | @cons t t' ts ts' ht _ ih =>
      obtain ⟨x, l, e, d⟩ := t
      obtain ⟨x', l', e', d'⟩ := t'
      obtain ⟨hx, hl, hend⟩ := ht
      dsimp only at hx hl hend
      subst hx hl
      exact .cons hend ih

/-! ## Ways of the lexer -/

/-- Nothing is emitted on the first part of a way. -/
theorem Lexes.silent {s s' s'' : LexState} {ts : List Token} (h : Lexes s [] s') (h' : Lexes s' ts s'') :
    Lexes s ts s'' :=
  h.trans h'

/-- A step that takes up part of the text. -/
theorem Lexes.of_shorter {s s' : LexState} {ts : List Token} (h : s.step = .more ts s')
    (hlt : s'.rest.length < s.rest.length) : Lexes s ts s' := by
  refine .of_step h ?_
  rw [LexState.size, LexState.size]
  split <;> split <;> omega

/-! ## Gaps and remarks -/

/-- What is left of a line behind gaps and behind a remark. -/
def behindGaps (t : Text) : Text :=
  let t := t.dropWhile isRowGap
  if t.head? == some '#' then t.dropWhile (· ≠ '\n') else t

/-- What is left of a line is part of it. -/
theorem suffix_behindGaps (t : Text) : behindGaps t <:+ t := by
  rw [behindGaps]
  split
  · exact (List.dropWhile_suffix _).trans (List.dropWhile_suffix _)
  · exact List.dropWhile_suffix _

/-- Gaps in front make no difference. -/
theorem behindGaps_append {gaps : Text} (hgaps : ∀ c ∈ gaps, isRowGap c) (t : Text) :
    behindGaps (gaps ++ t) = behindGaps t := by
  rw [behindGaps, behindGaps, List.dropWhile_append_of_pos hgaps]

/-- Where nothing is left of a line without remarks, it is all gaps. -/
theorem isRowGap_of_behindGaps {r : Text} (h : behindGaps r = []) (hremark : '#' ∉ r) :
    ∀ c ∈ r, isRowGap c := by
  rw [behindGaps] at h
  split at h
  · next hhead =>
    rw [beq_iff_eq] at hhead
    exact (hremark ((List.dropWhile_suffix _).subset (List.mem_of_mem_head? hhead))).elim
  · exact List.dropWhile_eq_nil_iff.1 h

/-- An end of the text stays behind gaps, and a line break behind a remark. -/
theorem behindGaps_closes {r y : Text} (hy : EndsInset y) (hremark : '#' ∈ r → y.head? = some '\n') :
    behindGaps (r ++ y) = behindGaps r ++ y := by
  have hsuffix := List.dropWhile_suffix (l := r) isRowGap
  rw [behindGaps, behindGaps, dropWhile_append_closes hy (by decide) (by decide)]
  cases hd : r.dropWhile isRowGap with
  | nil =>
      have hhead : (y.head? == some '#') = false := by
        simpa using hy.head_ne (c := '#') (by decide) (by decide)
      simp [hhead]
  | cons c d =>
      rw [hd] at hsuffix
      by_cases hc : c = '#'
      · subst hc
        obtain ⟨y', rfl⟩ := List.head?_eq_some_iff.1 (hremark (hsuffix.subset List.mem_cons_self))
        simp [List.dropWhile_append]
      · simp [hc]

section

variable {line : Nat} {columns : List (Nat × Nat)} {opens : List (Char × Nat)}

/-- A step within a line depends on what is behind the gaps and the remark. -/
theorem step_within (t : Text) : (LexState.within t line columns opens).step =
    match behindGaps t with
    | [] => (LexState.within [] line columns opens).finish
    | '\n' :: r =>
      if opens.isEmpty then .more [⟨.newline, line, line, 0⟩] ⟨r, line + 1, true, columns, opens⟩
      else .more [] ⟨r, line + 1, true, columns, opens⟩
    | ['\\', '\n'] => .last ((LexState.within [] line columns opens).fault .endInContinuation line)
    | '\\' :: '\n' :: r => .more [] (.within r (line + 1) columns opens)
    | '\\' :: _ => .last ((LexState.within [] line columns opens).fault .strayContinuation line)
    | c :: r => (LexState.within [] line columns opens).tokenAt c r :=
  rfl

/-- A line break is a token outside brackets. -/
theorem step_break {t r : Text} (h : behindGaps t = '\n' :: r) : (LexState.within t line columns opens).step =
    if opens.isEmpty then .more [⟨.newline, line, line, 0⟩] ⟨r, line + 1, true, columns, opens⟩
    else .more [] ⟨r, line + 1, true, columns, opens⟩ := by
  rw [step_within, h]
  rfl

/-- A backslash joins the next line to this one. -/
theorem step_join {t r : Text} (h : behindGaps t = '\\' :: '\n' :: r) (hr : r ≠ []) :
    (LexState.within t line columns opens).step = .more [] (.within r (line + 1) columns opens) := by
  obtain ⟨c, r, rfl⟩ := List.exists_cons_of_ne_nil hr
  rw [step_within, h]
  rfl

/-- A backslash that joins no line is a fault. -/
theorem step_stray (line : Nat) (columns : List (Nat × Nat)) (opens : List (Char × Nat)) {t r : Text}
    (h : behindGaps t = '\\' :: r) (hr : ∀ r', r = '\n' :: r' → r' = []) :
    ∃ f, (LexState.within t line columns opens).step = .last [⟨.fault f, line, line, opens.length⟩] := by
  rw [step_within, h]
  obtain _ | ⟨c, r⟩ := r
  · exact ⟨_, rfl⟩
  by_cases hc : c = '\n'
  · subst hc
    rw [hr r rfl]
    exact ⟨_, rfl⟩
  · simp [hc, LexState.fault]

/-- Any other character starts a token. -/
theorem step_token {t r : Text} {c : Char} (h : behindGaps t = c :: r) (hbreak : c ≠ '\n')
    (hescape : c ≠ '\\') : (LexState.within t line columns opens).step =
      (LexState.within [] line columns opens).tokenAt c r := by
  rw [step_within, h]
  split <;> simp_all

/-- Gaps in front make no difference to a step. -/
theorem step_gaps {gaps : Text} (hgaps : ∀ c ∈ gaps, isRowGap c) (t : Text) :
    (LexState.within (gaps ++ t) line columns opens).step =
      (LexState.within t line columns opens).step := by
  rw [step_within, step_within, behindGaps_append hgaps]

/-- Gaps in front make no difference to the tokens. -/
theorem lexFrom_gaps {gaps : Text} (hgaps : ∀ c ∈ gaps, isRowGap c) (t : Text) (n : Nat) :
    lexFrom n (.within (gaps ++ t) line columns opens) = lexFrom n (.within t line columns opens) := by
  cases n with
  | zero => rfl
  | succ n => rw [lexFrom, lexFrom, step_gaps hgaps]

/-! ## The start of a line -/

/-- A line is measured up to a character that is neither a gap nor a backslash. -/
theorem measure_cons {c : Char} (hgap : ¬ isRowGap c) (hescape : c ≠ '\\')
    (wide narrow fixed line : Nat) (r : Text) :
    measure wide narrow fixed line (c :: r) =
      if fixed = 0 then .ok (wide, narrow, line, c :: r) else .ok (fixed, fixed, line, c :: r) := by
  have hgaps : c ≠ ' ' ∧ c ≠ '\t' ∧ c ≠ '\x0c' := by simpa [isRowGap, and_assoc] using hgap
  simp [measure, hgaps, hescape]

/-- A line that starts with such a character, or with an end, is measured at once. -/
theorem exists_measure {r y : Text} (hhead : ∀ c ∈ r.head?, ¬ isRowGap c ∧ c ≠ '\\') (hy : EndsInset y)
    (wide narrow fixed line : Nat) :
    ∃ col narrow', measure wide narrow fixed line (r ++ y) = .ok (col, narrow', line, r ++ y) := by
  obtain ⟨c, t, heq, hgap, hescape⟩ : ∃ c t, r ++ y = c :: t ∧ ¬ isRowGap c ∧ c ≠ '\\' := by
    cases r with
    | cons c r => exact ⟨c, r ++ y, rfl, hhead c rfl⟩
    | nil =>
        obtain ⟨c, t, rfl, hc⟩ := hy.exists_cons (P := fun c => ¬ isRowGap c ∧ c ≠ '\\') (by decide) (by decide)
        exact ⟨c, t, rfl, hc⟩
  rw [heq, measure_cons hgap hescape]
  split
  · exact ⟨_, _, rfl⟩
  · exact ⟨_, _, rfl⟩

/-- The start of a line is measured up to its first character, whatever end follows. -/
theorem measure_closes {wide narrow fixed line col narrow' line' : Nat} {r t : Text}
    (h : measure wide narrow fixed line (r ++ ['\n']) = .ok (col, narrow', line', t)) :
    ∃ t', t' <:+ r ∧ t = t' ++ ['\n'] ∧ (∀ c ∈ t'.head?, ¬ isRowGap c ∧ c ≠ '\\') ∧
      ∀ y, EndsInset y → ∃ col narrow',
        measure wide narrow fixed line (r ++ y) = .ok (col, narrow', line', t' ++ y) := by
  obtain ⟨text, htext⟩ : ∃ text, r ++ ['\n'] = text := ⟨_, rfl⟩
  rw [htext] at h
  have hcons {c : Char} {text r : Text} (htext : r ++ ['\n'] = c :: text) (hc : c ≠ '\n') :
      ∃ r', r = c :: r' ∧ r' ++ ['\n'] = text := by
    cases r with
    | nil => exact absurd (List.cons.inj htext).1.symm hc
    | cons d r =>
        obtain ⟨rfl, htail⟩ := List.cons.inj htext
        exact ⟨r, rfl, htail⟩
  have hother {text r : Text} (htext : r ++ ['\n'] = text) (hspace : ∀ r, text = ' ' :: r → False)
      (htab : ∀ r, text = '\t' :: r → False) (hfeed : ∀ r, text = '\x0c' :: r → False)
      (hescape : ∀ r, text = '\\' :: r → False) : ∀ c ∈ r.head?, ¬ isRowGap c ∧ c ≠ '\\' := by
    intro c hc
    obtain ⟨r', rfl⟩ := List.head?_eq_some_iff.1 hc
    rw [← htext] at hspace htab hfeed hescape
    refine ⟨fun hgap => ?_, fun heq => hescape _ (by rw [heq]; rfl)⟩
    rw [isRowGap, Bool.or_eq_true, Bool.or_eq_true, beq_iff_eq, beq_iff_eq, beq_iff_eq] at hgap
    rcases hgap with (rfl | rfl) | rfl
    · exact hspace _ rfl
    · exact htab _ rfl
    · exact hfeed _ rfl
  fun_induction measure wide narrow fixed line text generalizing r with
  | case1 wide narrow fixed line text ih =>
      obtain ⟨r', rfl, htail⟩ := hcons htext (by decide)
      obtain ⟨t', hsuffix, rfl, hhead, hy⟩ := ih h htail
      exact ⟨t', hsuffix.trans (List.suffix_cons _ _), rfl, hhead, hy⟩
  | case2 wide narrow fixed line text ih =>
      obtain ⟨r', rfl, htail⟩ := hcons htext (by decide)
      obtain ⟨t', hsuffix, rfl, hhead, hy⟩ := ih h htail
      exact ⟨t', hsuffix.trans (List.suffix_cons _ _), rfl, hhead, hy⟩
  | case3 wide narrow fixed line text ih =>
      obtain ⟨r', rfl, htail⟩ := hcons htext (by decide)
      obtain ⟨t', hsuffix, rfl, hhead, hy⟩ := ih h htail
      exact ⟨t', hsuffix.trans (List.suffix_cons _ _), rfl, hhead, hy⟩
  | case4 => cases h
  | case5 wide narrow fixed line text hne ih =>
      obtain ⟨r', rfl, htail⟩ := hcons htext (by decide)
      cases r' with
      | nil => exact (hne (List.cons.inj htail).2.symm).elim
      | cons d r' =>
          obtain ⟨rfl, hrest⟩ := List.cons.inj htail
          obtain ⟨t', hsuffix, rfl, hhead, hy⟩ := ih h hrest
          refine ⟨t', (hsuffix.trans (List.suffix_cons _ _)).trans (List.suffix_cons _ _), rfl, hhead,
            fun y hcloses => ?_⟩
          obtain ⟨d, y', rfl, -⟩ := hcloses.exists_cons (P := fun _ => True) trivial trivial
          obtain ⟨col, narrow, hmeasure⟩ := hy _ hcloses
          refine ⟨col, narrow, ?_⟩
          rw [List.cons_append, List.cons_append, measure]
          · exact hmeasure
          · simp
  | case6 => cases h
  | case7 wide narrow line text hspace htab hfeed _ _ hescape =>
      cases h
      have hhead := hother htext hspace htab hfeed hescape
      exact ⟨r, List.suffix_rfl, htext.symm, hhead, fun y hy => exists_measure hhead hy _ _ _ _⟩
  | case8 wide narrow fixed line text hspace htab hfeed _ _ hescape =>
      cases h
      have hhead := hother htext hspace htab hfeed hescape
      exact ⟨r, List.suffix_rfl, htext.symm, hhead, fun y hy => exists_measure hhead hy _ _ _ _⟩

/-- Within a line the lexer passes over what is measured at the start of one, up to gaps. -/
theorem lexes_measure {wide narrow fixed line col narrow' line' : Nat} {text t : Text}
    (h : measure wide narrow fixed line text = .ok (col, narrow', line', t)) {gaps : Text}
    (hgaps : ∀ c ∈ gaps, isRowGap c) :
    ∃ gaps' : Text, (∀ c ∈ gaps', isRowGap c) ∧ ∀ opens,
      Lexes (.within (gaps ++ text) line columns opens) [] (.within (gaps' ++ t) line' columns opens) := by
  have hmore {gaps : Text} (hgaps : ∀ c ∈ gaps, isRowGap c) {c : Char} (hc : isRowGap c) :
      ∀ d ∈ gaps ++ [c], isRowGap d := fun d hd =>
    (List.mem_append.1 hd).elim (hgaps d) fun hd => by rwa [List.mem_singleton.1 hd]
  fun_induction measure wide narrow fixed line text generalizing gaps with
  | case1 wide narrow fixed line text ih =>
      rw [List.append_cons]
      exact ih h (hmore hgaps rfl)
  | case2 wide narrow fixed line text ih =>
      rw [List.append_cons]
      exact ih h (hmore hgaps rfl)
  | case3 wide narrow fixed line text ih =>
      rw [List.append_cons]
      exact ih h (hmore hgaps rfl)
  | case4 => cases h
  | case5 wide narrow fixed line text hne ih =>
      obtain ⟨gaps', hgaps', hlexes⟩ := ih h (show ∀ c ∈ ([] : Text), isRowGap c by simp)
      refine ⟨gaps', hgaps', fun opens => .silent (.of_shorter ?_ ?_) (hlexes opens)⟩
      · obtain ⟨c, text, rfl⟩ := List.exists_cons_of_ne_nil hne
        rw [step_gaps hgaps]
        rfl
      · simp only [List.length_append, List.length_cons, List.length_nil]
        omega
  | case6 => cases h
  | case7 wide narrow line text =>
      cases h
      exact ⟨gaps, hgaps, fun _ => .refl _⟩
  | case8 wide narrow fixed line text =>
      cases h
      exact ⟨gaps, hgaps, fun _ => .refl _⟩

/-! ## Line by line -/

/-- The last tokens are no line breaks. -/
theorem LastTokens.ne_newline {ts : List Token} (h : LastTokens ts) : ∀ t ∈ ts, t.lexeme ≠ .newline := by
  intro t ht
  cases h with
  | finish line dedents =>
      rcases List.mem_append.1 ht with ht | ht
      · rw [blockTokens, if_neg Bool.false_ne_true, List.append_nil] at ht
        rw [(List.mem_replicate.1 ht).2]
        simp
      · rw [List.mem_singleton.1 ht]
        simp
  | fault f line depth =>
      rw [List.mem_singleton.1 ht]
      simp

/-- The next line break and what is behind it. -/
theorem dropWhile_break {t : Text} (h : '\n' ∈ t) (y : Text) :
    (t ++ y).dropWhile (· ≠ '\n') = '\n' :: ((t.dropWhile (· ≠ '\n')).drop 1 ++ y) := by
  induction t with
  | nil => cases h
  | cons c t ih =>
      by_cases hc : c = '\n'
      · subst hc
        rfl
      · have hmem : '\n' ∈ t := (List.mem_cons.1 h).resolve_left (Ne.symm hc)
        simpa [hc] using ih hmem

/-- What is behind the next line break, in front of any text. -/
theorem drop_line_append {t : Text} (h : '\n' ∈ t) (y : Text) :
    ((t ++ y).dropWhile (· ≠ '\n')).drop 1 = (t.dropWhile (· ≠ '\n')).drop 1 ++ y := by
  rw [dropWhile_break h]
  rfl

/-- What is behind the line break that follows a line. -/
theorem drop_line_break {t : Text} (h : '\n' ∉ t) (z : Text) :
    ((t ++ '\n' :: z).dropWhile (· ≠ '\n')).drop 1 = z := by
  have hpass (c : Char) (hc : c ∈ t) : decide (c ≠ '\n') = true := by
    rw [decide_eq_true_eq]
    rintro rfl
    exact h hc
  rw [List.dropWhile_append_of_pos hpass]
  simp

/-- Whether a line is blank or holds a remark, from its first character on. -/
def isSkipped (t : Text) : Prop :=
  t.head? = some '#' ∨ t.head? = some '\n'

/-- It is so in front of any text. -/
theorem isSkipped.append {t : Text} (ht : isSkipped t) (y : Text) : isSkipped (t ++ y) := by
  rcases ht with ht | ht
  · exact .inl (by rw [List.head?_append, ht]; rfl)
  · exact .inr (by rw [List.head?_append, ht]; rfl)

/-- Behind gaps nothing is left of such a line. -/
theorem behindGaps_skipped {t : Text} (ht : isSkipped t) : behindGaps t = t.dropWhile (· ≠ '\n') := by
  obtain ⟨c, t, rfl⟩ : ∃ c u, t = c :: u := List.exists_cons_of_ne_nil (by rintro rfl; simp [isSkipped] at ht)
  have hc : c = '#' ∨ c = '\n' := by simpa [isSkipped] using ht
  rw [behindGaps]
  rcases hc with rfl | rfl
  · rw [List.dropWhile_cons_of_neg (by decide)]
    rfl
  · rw [List.dropWhile_cons_of_neg (by decide)]
    rfl

/-- A blank line, or one with a remark, is skipped. -/
theorem step_skip {text t : Text} {col narrow line' : Nat}
    (hmeasure : measure 0 0 0 line text = .ok (col, narrow, line', t)) (ht : isSkipped t) :
    LexState.step ⟨text, line, true, columns, opens⟩ =
      .more [] ⟨(t.dropWhile (· ≠ '\n')).drop 1, line' + 1, true, columns, opens⟩ := by
  rw [LexState.step, if_pos rfl, LexState.startLine, hmeasure]
  obtain _ | ⟨c, t⟩ := t
  · rcases ht with ht | ht <;> cases ht
  · dsimp only
    rw [if_pos (by simpa [isSkipped] using ht)]

/-- Within brackets another line is read from its first character on. -/
theorem step_enter {text t : Text} {col narrow line' : Nat}
    (hmeasure : measure 0 0 0 line text = .ok (col, narrow, line', t)) (hne : t ≠ []) (ht : ¬ isSkipped t)
    (hopens : opens ≠ []) :
    LexState.step ⟨text, line, true, columns, opens⟩ = .more [] (.within t line' columns opens) := by
  rw [LexState.step, if_pos rfl, LexState.startLine, hmeasure]
  obtain ⟨c, t, rfl⟩ := List.exists_cons_of_ne_nil hne
  dsimp only
  rw [if_neg (by simpa [isSkipped] using ht), if_pos (by simpa using hopens)]

/-- The lexer comes to the first character of such a line. -/
theorem lexes_enter {text t : Text} {col narrow line' : Nat}
    (hmeasure : measure 0 0 0 line text = .ok (col, narrow, line', t)) (hne : t ≠ []) (ht : ¬ isSkipped t)
    (hopens : opens ≠ []) (hle : t.length ≤ text.length) :
    Lexes ⟨text, line, true, columns, opens⟩ [] (.within t line' columns opens) := by
  refine .of_step (step_enter hmeasure hne ht hopens) ?_
  simp only [LexState.size, if_pos, Bool.false_eq_true, if_false]
  omega

/-- At the start of a line of its own the indentation is compared with the margin. -/
theorem step_base {text t : Text} {col narrow line' : Nat}
    (hmeasure : measure 0 0 0 line text = .ok (col, narrow, line', t)) (hne : t ≠ []) (ht : ¬ isSkipped t) :
    LexState.step ⟨text, line, true, [(0, 0)], []⟩ =
      match reindent [(0, 0)] col narrow with
      | .error cause => .last [⟨.fault ⟨cause, line', none⟩, line', line', 0⟩]
      | .ok (dedents, indents, columns) =>
        .more (blockTokens line' dedents indents) (.within t line' columns []) := by
  obtain ⟨c, t, rfl⟩ := List.exists_cons_of_ne_nil hne
  rw [LexState.step, if_pos rfl, LexState.startLine, hmeasure]
  dsimp only
  rw [if_neg (by simpa [isSkipped] using ht), if_neg (by simp)]
  rfl

/-- Outside blocks another line is read from its first character on, unless it is indented. -/
theorem step_begin (opens : List (Char × Nat)) {text t : Text} {col narrow line' : Nat}
    (hmeasure : measure 0 0 0 line text = .ok (col, narrow, line', t)) (hne : t ≠ []) (ht : ¬ isSkipped t) :
    LexState.step ⟨text, line, true, [(0, 0)], opens⟩ = .more [] (.within t line' [(0, 0)] opens) ∨
      (∃ columns, LexState.step ⟨text, line, true, [(0, 0)], opens⟩ =
        .more [⟨.indent, line', line', 0⟩] (.within t line' columns opens)) ∨
      ∃ f, LexState.step ⟨text, line, true, [(0, 0)], opens⟩ = .last [⟨.fault f, line', line', 0⟩] := by
  by_cases hopens : opens = []
  · subst hopens
    have hstep := step_base hmeasure hne ht
    rcases reindent_base col narrow with hre | ⟨columns, hre⟩ | ⟨cause, hre⟩
    · exact .inl (by rw [hstep, hre]; rfl)
    · exact .inr (.inl ⟨columns, by rw [hstep, hre]; rfl⟩)
    · exact .inr (.inr ⟨_, by rw [hstep, hre]⟩)
  · exact .inl (step_enter hmeasure hne ht hopens)

/-- A line that cannot be measured is a fault. -/
theorem step_unmeasured {text : Text} {e : LexCause × Nat} (hmeasure : measure 0 0 0 line text = .error e) :
    LexState.step ⟨text, line, true, columns, opens⟩ =
      .last (LexState.fault ⟨text, line, true, columns, opens⟩ e.1 e.2) := by
  rw [LexState.step, if_pos rfl, LexState.startLine, hmeasure]

/-- At the end of the text there are only the last tokens. -/
theorem lastTokens_lexFrom_nil (n line : Nat) : LastTokens (lexFrom n ⟨[], line, true, columns, opens⟩) := by
  cases n with
  | zero => exact .fault _ _ _
  | succ n =>
      have hstep : LexState.step ⟨[], line, true, columns, opens⟩ =
          LexState.finish ⟨[], line, true, columns, opens⟩ := rfl
      rw [lexFrom]
      cases hfinish : LexState.step ⟨[], line, true, columns, opens⟩ with
      | last ts => exact lastTokens_of_last hfinish
      | more ts s =>
          rw [hstep, LexState.finish] at hfinish
          split at hfinish <;> cases hfinish

/-! ## An expression and what is behind it -/

/-- The bracket that closes follows an expression, or a line break does in front of the bracket. -/
inductive ClosedBy (z : Text) : Text → Prop
  | bracket : ClosedBy z z
  | newline : ClosedBy z ('\n' :: z)

variable {y z more : Text} {opened : Nat}

/-- Both are ends of the expression. -/
theorem ClosedBy.closes (h : ClosedBy (')' :: more) y) : EndsInset y := by
  cases h with
  | bracket => exact .bracket _
  | newline => exact .newline _

/-- A text that is left in front of an end is not empty. -/
theorem EndsInset.append_ne_nil (hy : EndsInset y) (t : Text) : t ++ y ≠ [] := by
  obtain ⟨d, y', rfl, -⟩ := hy.exists_cons (P := fun _ => True) trivial trivial
  simp

/-- The closing bracket is read behind gaps. -/
theorem lexes_gaps_close {gaps : Text} (hgaps : ∀ c ∈ gaps, isRowGap c) :
    Lexes (.within (gaps ++ ')' :: more) line columns (('(', opened) :: opens))
      [⟨.op ")", line, line, opens.length⟩] (.within more line columns opens) := by
  obtain ⟨steps, hsteps, hrun⟩ : Lexes (.within (')' :: more) line columns (('(', opened) :: opens))
    [⟨.op ")", line, line, opens.length⟩] (.within more line columns opens) := lexes_close
  refine ⟨steps, ?_, fun fuel => by rw [lexFrom_gaps hgaps, hrun]⟩
  rw [LexState.size, LexState.size] at hsteps ⊢
  simp only [List.length_append, List.length_cons] at hsteps ⊢
  omega

/-- The closing bracket is read on a line of its own. -/
theorem lexes_closer :
    Lexes ⟨')' :: more, line, true, columns, ('(', opened) :: opens⟩
      [⟨.op ")", line, line, opens.length⟩] (.within more line columns opens) :=
  .silent (lexes_enter (measure_cons (by decide) (by decide) 0 0 0 line more) (by simp) (by simp [isSkipped])
    (by simp) le_rfl) lexes_close

/-- What is left behind a line is part of the text. -/
theorem suffix_skip {r t : Text} (hsuffix : t <:+ r) : (t.dropWhile (· ≠ '\n')).drop 1 <:+ r :=
  ((List.drop_suffix 1 _).trans (List.dropWhile_suffix _)).trans hsuffix

/-- Less is left behind a line. -/
theorem length_skip_lt {r t : Text} (hsuffix : t <:+ r) (hbreak : '\n' ∈ t) :
    ((t.dropWhile (· ≠ '\n')).drop 1 ++ y).length < (r ++ y).length := by
  have hpos : 0 < t.length := List.length_pos_of_mem hbreak
  have hdrop := (List.dropWhile_suffix (l := t) (· ≠ '\n')).length_le
  have hle := hsuffix.length_le
  simp only [List.length_append, List.length_drop]
  omega

/-- A blank line or a remark is skipped up to the next line, whatever end of the text follows. -/
theorem step_skip_append {r t : Text} {col narrow line' : Nat}
    (hmeasure : measure 0 0 0 line (r ++ y) = .ok (col, narrow, line', t ++ y)) (ht : isSkipped t)
    (hbreak : '\n' ∈ t) :
    LexState.step ⟨r ++ y, line, true, columns, opens⟩ =
      .more [] ⟨(t.dropWhile (· ≠ '\n')).drop 1 ++ y, line' + 1, true, columns, opens⟩ := by
  rw [step_skip hmeasure (ht.append y), drop_line_append hbreak]

/-- The lexer comes from such a line to the next one. -/
theorem lexes_skip {r t : Text} {col narrow line' : Nat} (hsuffix : t <:+ r)
    (hmeasure : measure 0 0 0 line (r ++ y) = .ok (col, narrow, line', t ++ y)) (ht : isSkipped t)
    (hbreak : '\n' ∈ t) :
    Lexes ⟨r ++ y, line, true, columns, opens⟩ []
      ⟨(t.dropWhile (· ≠ '\n')).drop 1 ++ y, line' + 1, true, columns, opens⟩ :=
  .of_shorter (step_skip_append hmeasure ht hbreak) (length_skip_lt hsuffix hbreak)

/-- Where the rest of a line is blank or a remark, the closing bracket is on the next line. -/
theorem lexes_next {r t : Text} {col narrow line' : Nat} (hsuffix : t <:+ r)
    (hmeasure : measure 0 0 0 line (r ++ '\n' :: ')' :: more) =
      .ok (col, narrow, line', t ++ '\n' :: ')' :: more))
    (ht : t = [] ∨ isSkipped t) (hbreak : '\n' ∉ t) :
    Lexes ⟨r ++ '\n' :: ')' :: more, line, true, columns, ('(', opened) :: opens⟩
      [⟨.op ")", line' + 1, line' + 1, opens.length⟩] (.within more (line' + 1) columns opens) := by
  have hskipped : isSkipped (t ++ '\n' :: ')' :: more) := by
    rcases ht with rfl | ht
    · exact .inr rfl
    · exact ht.append _
  have hskip : LexState.step ⟨r ++ '\n' :: ')' :: more, line, true, columns, ('(', opened) :: opens⟩ =
      .more [] ⟨')' :: more, line' + 1, true, columns, ('(', opened) :: opens⟩ := by
    rw [step_skip hmeasure hskipped, drop_line_break hbreak]
  exact .silent (.of_shorter hskip (by simp; omega)) (lexes_closer)

/-- A token is read where a line goes on with no gap, line break, remark or backslash. -/
theorem exists_lexFrom_tokenAt {c : Char} (hgap : ¬ isRowGap c) (hescape : c ≠ '\\') (hremark : c ≠ '#')
    (hbreak : c ≠ '\n') (r : Text) (n line : Nat) (columns : List (Nat × Nat)) (opens : List (Char × Nat)) :
    ∃ t ts, lexFrom n (.within (c :: (r ++ ['\n'])) line columns opens) = t :: ts ∧
      (t.lexeme.isEnd = false ∨ ∃ f, t.lexeme = .fault f) := by
  cases n with
  | zero => exact ⟨_, _, rfl, .inr ⟨_, rfl⟩⟩
  | succ n =>
      rw [lexFrom, step_of_not_gap hgap hescape hremark hbreak]
      cases hstep : (LexState.within (c :: (r ++ ['\n'])) line columns opens).tokenAt c (r ++ ['\n']) with
      | last ts =>
          obtain ⟨f, l, d, rfl⟩ := fault_of_tokenAt hstep
          exact ⟨_, _, rfl, .inr ⟨f, rfl⟩⟩
      | more ts s =>
          obtain ⟨k, hk, -⟩ := takesOne_tokenAt c (u := fun y => c :: (r ++ y)) columns ts s hstep
          cases hk
          exact ⟨_, _, rfl, .inl k.isEnd_eq⟩

/-- A line that is not skipped does not just end the text. -/
theorem lexeme_ne_finish {n col narrow line' : Nat} {r u : Text} {t : Token}
    (h : lexFrom (n + 1) ⟨r ++ ['\n'], line, true, [(0, 0)], []⟩ = [t])
    (hmeasure : measure 0 0 0 line (r ++ ['\n']) = .ok (col, narrow, line', u ++ ['\n']))
    (hhead : ∀ c ∈ u.head?, ¬ isRowGap c ∧ c ≠ '\\') (hne : u ≠ []) (hu : ¬ isSkipped u) :
    t.lexeme ≠ .finish := by
  intro ht
  obtain ⟨c, u, rfl⟩ := List.exists_cons_of_ne_nil hne
  obtain ⟨hgap, hescape⟩ := hhead c rfl
  obtain ⟨hremark, hbreak⟩ : c ≠ '#' ∧ c ≠ '\n' := by simpa [isSkipped] using hu
  have hu : ¬ isSkipped (c :: u ++ ['\n']) := hu
  rw [lexFrom] at h
  rcases step_begin [] hmeasure (by simp) hu with hstep | ⟨columns, hstep⟩ | ⟨f, hstep⟩
  · obtain ⟨t', ts, hlex, ht'⟩ := exists_lexFrom_tokenAt hgap hescape hremark hbreak u n line' [(0, 0)] []
    rw [hstep] at h
    obtain ⟨rfl, -⟩ := List.cons.inj (hlex.symm.trans h)
    rw [ht] at ht'
    rcases ht' with ht' | ⟨f, ht'⟩ <;> cases ht'
  · rw [hstep] at h
    obtain ⟨rfl, -⟩ := List.cons.inj h
    cases ht
  · rw [hstep] at h
    obtain ⟨rfl, -⟩ := List.cons.inj h
    cases ht

/-- Behind an expression there are only blank lines and remarks, up to the bracket that closes. -/
theorem lexes_trailing {n : Nat} {r : Text} {t : Token}
    (h : lexFrom n ⟨r ++ ['\n'], line, true, [(0, 0)], []⟩ = [t]) (ht : t.lexeme = .finish)
    (hy : ClosedBy (')' :: more) y) (hremark : '#' ∈ r → y = '\n' :: ')' :: more) :
    ∃ line', Lexes ⟨r ++ y, line, true, columns, ('(', opened) :: opens⟩
      [⟨.op ")", line', line', opens.length⟩] (.within more line' columns opens) := by
  induction n generalizing r line with
  | zero =>
      cases h
      cases ht
  | succ n ih =>
      cases hmeasure : measure 0 0 0 line (r ++ ['\n']) with
      | error e =>
          rw [lexFrom, step_unmeasured hmeasure] at h
          cases h
          cases ht
      | ok result =>
          obtain ⟨col, narrow, line', text⟩ := result
          obtain ⟨u, hsuffix, rfl, hhead, hclosed⟩ := measure_closes hmeasure
          obtain ⟨col', narrow', hmeasure'⟩ := hclosed y hy.closes
          by_cases hnil : u = []
          · subst hnil
            cases hy with
            | bracket =>
                exact ⟨line', (lexes_enter hmeasure' (by simp) (by simp [isSkipped]) (by simp) (by simp)).silent
                  lexes_close⟩
            | newline => exact ⟨_, lexes_next hsuffix hmeasure' (.inl rfl) (by simp)⟩
          by_cases hskipped : isSkipped u
          · by_cases hbreak : '\n' ∈ u
            · rw [lexFrom, step_skip_append hmeasure hskipped hbreak] at h
              obtain ⟨l, hlexes⟩ := ih h fun hmem => hremark ((suffix_skip hsuffix).subset hmem)
              exact ⟨l, .silent (lexes_skip hsuffix hmeasure' hskipped hbreak) hlexes⟩
            · have hhash : '#' ∈ u := hskipped.elim List.mem_of_mem_head?
                fun hhead => (hbreak (List.mem_of_mem_head? hhead)).elim
              obtain rfl := hremark (hsuffix.subset hhash)
              exact ⟨_, lexes_next hsuffix hmeasure' (.inr hskipped) hbreak⟩
          · exact (lexeme_ne_finish h hmeasure hhead hnil hskipped ht).elim

/-! ## The whole expression -/

/-- The tokens of an expression: none of them ends it, and with the brackets around it there are not too
many open. -/
def Fits (opens : List (Char × Nat)) (ts : List Token) : Prop :=
  ∀ t ∈ ts, t.lexeme.isEnd = false ∧ t.depth + (opens.length + 1) ≤ maxOpen

/-- The tokens of an expression, with the line break and the end of the text behind them. -/
structure StandsIn (opens : List (Char × Nat)) (ts all : List Token) : Prop where
  fits : Fits opens ts
  ends : ∃ nl fin, all = ts ++ [nl, fin] ∧ nl.lexeme = .newline ∧ fin.lexeme = .finish

namespace StandsIn

variable {ts all : List Token}

/-- The tokens do not just end the text. -/
theorem not_last (h : StandsIn opens ts all) : ¬ LastTokens all := by
  obtain ⟨-, nl, fin, rfl, hnl, -⟩ := h
  exact fun hlast => hlast.ne_newline nl (by simp) hnl

/-- A line break outside brackets ends the expression. -/
theorem of_newline {rest : List Token} {l : Nat} (h : StandsIn opens ts (⟨.newline, l, l, 0⟩ :: rest)) :
    ts = [] ∧ ∃ fin, rest = [fin] ∧ fin.lexeme = .finish := by
  obtain ⟨hfits, nl, fin, heq, -, hfin⟩ := h
  cases ts with
  | nil => exact ⟨rfl, fin, (List.cons.inj heq).2, hfin⟩
  | cons t ts =>
      obtain ⟨rfl, -⟩ := List.cons.inj heq
      cases (hfits _ List.mem_cons_self).1

/-- Any other token is one of the expression. -/
theorem of_token {t : Token} {rest : List Token} (h : StandsIn opens ts (t :: rest))
    (ht : t.lexeme.isEnd = false) : ∃ ts', ts = t :: ts' ∧ t.depth + (opens.length + 1) ≤ maxOpen ∧
      StandsIn opens ts' rest := by
  obtain ⟨hfits, nl, fin, heq, hnl, hfin⟩ := h
  cases ts with
  | nil =>
      obtain ⟨rfl, -⟩ := List.cons.inj heq
      rw [hnl] at ht
      cases ht
  | cons t' ts =>
      obtain ⟨rfl, hrest⟩ := List.cons.inj heq
      exact ⟨ts, rfl, (hfits _ List.mem_cons_self).2, fun t ht => hfits t (List.mem_cons_of_mem _ ht),
        nl, fin, hrest, hnl, hfin⟩

end StandsIn

/-- Whether no block begins at the start of a line: within brackets none does, and elsewhere the first token
tells. -/
def BeginsNoBlock (o : List (Char × Nat)) (all : List Token) : Prop :=
  o = [] → ∀ t ∈ all.head?, t.lexeme ≠ .indent

/-- The start of a line that no block begins with is passed over, on a new line or within one: the line is
skipped or read from its first character on, whatever end of the text follows. -/
theorem exists_lexes_start (columns : List (Nat × Nat)) {n : Nat} {r : Text} {o : List (Char × Nat)}
    (hnot : ¬ LastTokens (lexFrom (n + 1) ⟨r ++ ['\n'], line, true, [(0, 0)], o⟩))
    (hblock : BeginsNoBlock o (lexFrom (n + 1) ⟨r ++ ['\n'], line, true, [(0, 0)], o⟩)) (hy : EndsInset y) :
    ∃ r' line' fresh gaps, r' <:+ r ∧
      lexFrom (n + 1) ⟨r ++ ['\n'], line, true, [(0, 0)], o⟩ =
        lexFrom n ⟨r' ++ ['\n'], line', fresh, [(0, 0)], o⟩ ∧
      (∀ c ∈ gaps, isRowGap c) ∧ (fresh → gaps = []) ∧ ∀ o', o' ≠ [] →
        Lexes ⟨r ++ y, line, true, columns, o'⟩ [] ⟨r' ++ y, line', fresh, columns, o'⟩ ∧
        Lexes (.within (r ++ y) line columns o') [] ⟨gaps ++ (r' ++ y), line', fresh, columns, o'⟩ := by
  rw [lexFrom] at hnot hblock ⊢
  cases hmeasure : measure 0 0 0 line (r ++ ['\n']) with
  | error e =>
      rw [step_unmeasured hmeasure] at hnot
      exact (hnot (.fault _ _ _)).elim
  | ok result =>
      obtain ⟨col, narrow, line', text⟩ := result
      obtain ⟨u, hsuffix, rfl, -, hclosed⟩ := measure_closes hmeasure
      obtain ⟨col', narrow', hmeasure'⟩ := hclosed y hy
      obtain ⟨gaps, hgaps, hpass⟩ : ∃ gaps : Text, (∀ c ∈ gaps, isRowGap c) ∧ ∀ o',
          Lexes (.within (r ++ y) line columns o') [] (.within (gaps ++ (u ++ y)) line' columns o') :=
        lexes_measure hmeasure' (show ∀ c ∈ ([] : Text), isRowGap c by simp)
      have hempty (hskipped : isSkipped (u ++ ['\n'])) (hbreak : '\n' ∉ u) : False := by
        rw [step_skip hmeasure hskipped, drop_line_break hbreak] at hnot
        exact hnot (lastTokens_lexFrom_nil n _)
      by_cases hnil : u = []
      · subst hnil
        exact (hempty (.inr rfl) (by simp)).elim
      by_cases hskipped : isSkipped u
      · by_cases hbreak : '\n' ∈ u
        · rw [step_skip_append hmeasure hskipped hbreak]
          refine ⟨_, _, true, [], suffix_skip hsuffix, rfl, by simp, fun _ => rfl, fun o' ho' =>
            ⟨lexes_skip hsuffix hmeasure' hskipped hbreak, .silent (hpass o') ?_⟩⟩
          have hbehind := behindGaps_skipped (hskipped.append y)
          rw [dropWhile_break hbreak, ← behindGaps_append hgaps] at hbehind
          exact .of_shorter ((step_break hbehind).trans (if_neg (by simpa using ho')))
            ((length_skip_lt List.suffix_rfl hbreak).trans_le (by simp))
        · exact (hempty (hskipped.append _) hbreak).elim
      · have hnot' (z : Text) : ¬ isSkipped (u ++ z) := by
          obtain ⟨c, u, rfl⟩ := List.exists_cons_of_ne_nil hnil
          exact hskipped
        rcases step_begin o hmeasure (by simp) (hnot' _) with hstep | ⟨columns, hstep⟩ | ⟨f, hstep⟩
        · rw [hstep]
          refine ⟨u, line', false, gaps, hsuffix, rfl, hgaps, by simp, fun o' ho' => ⟨?_, hpass o'⟩⟩
          exact lexes_enter hmeasure' (by simp [hnil]) (hnot' _) ho' (by simpa using hsuffix.length_le)
        · by_cases ho : o = []
          · rw [hstep] at hblock
            exact (hblock ho ⟨.indent, line', line', 0⟩ rfl rfl).elim
          · rw [step_enter hmeasure (by simp) (hnot' _) ho] at hstep
            cases hstep
        · rw [hstep] at hnot
          exact (hnot (.fault _ _ _)).elim

/-- The same tokens are read within brackets, and then the bracket that closes. -/
def ReadsThen (ts : List Token) (s : LexState) (more : Text) (columns : List (Nat × Nat))
    (opens : List (Char × Nat)) : Prop :=
  ∃ ts' line', SameTokens ts ts' ∧
    Lexes s (ts' ++ [⟨.op ")", line', line', opens.length⟩]) (.within more line' columns opens)

/-- Nothing is emitted on the first part of the way. -/
theorem ReadsThen.silent {s s' : LexState} {ts : List Token} (h : Lexes s [] s')
    (h' : ReadsThen ts s' more columns opens) : ReadsThen ts s more columns opens := by
  obtain ⟨ts', line', hsame, hlexes⟩ := h'
  exact ⟨ts', line', hsame, h.silent hlexes⟩

/-- One token more is read. -/
theorem ReadsThen.token {s s' : LexState} {ts : List Token} {t t' : Token}
    (h' : ReadsThen ts s' more columns opens) (h : Lexes s [t'] s')
    (ht : t.lexeme = t'.lexeme ∧ t.line = t'.line ∧ t.lexeme.isEnd = false) :
    ReadsThen (t :: ts) s more columns opens := by
  obtain ⟨ts', line', hsame, hlexes⟩ := h'
  exact ⟨t' :: ts', line', .cons ht hsame, h.trans hlexes⟩

/-- From its first token on, an expression has the same tokens within brackets, and the bracket that
closes follows. -/
theorem lexes_body (columns : List (Nat × Nat)) {n : Nat} {r : Text} {fresh : Bool} {o : List (Char × Nat)}
    {ts : List Token} (h : StandsIn opens ts (lexFrom n ⟨r ++ ['\n'], line, fresh, [(0, 0)], o⟩))
    (hblock : fresh → BeginsNoBlock o (lexFrom n ⟨r ++ ['\n'], line, fresh, [(0, 0)], o⟩))
    (hy : ClosedBy (')' :: more) y) (hremark : '#' ∈ r → y = '\n' :: ')' :: more) :
    ReadsThen ts ⟨r ++ y, line, fresh, columns, o ++ ('(', opened) :: opens⟩ more columns opens := by
  induction n generalizing r line fresh o ts with
  | zero => exact (h.not_last (.fault _ _ _)).elim
  | succ n ih =>
      cases fresh with
      | true =>
          obtain ⟨r', line', fresh, gaps, hsuffix, heq, -, -, hlexes⟩ :=
            exists_lexes_start columns h.not_last (hblock rfl) hy.closes
          rw [heq] at h hblock
          exact (ih h (fun _ => hblock rfl) fun hmem => hremark (hsuffix.subset hmem)).silent
            (hlexes _ (by simp)).1
      | false =>
          have hbehind : behindGaps (r ++ y) = behindGaps r ++ y :=
            behindGaps_closes hy.closes fun hmem => by rw [hremark hmem]; rfl
          have hbreak : behindGaps (r ++ ['\n']) = behindGaps r ++ ['\n'] :=
            behindGaps_closes (.newline []) fun _ => rfl
          have hsuffix := suffix_behindGaps r
          have hnot := h.not_last
          rw [lexFrom] at h hnot
          cases ht : behindGaps r with
          | nil =>
              rw [ht] at hbehind hbreak
              rw [step_break hbreak] at h hnot
              by_cases ho : o = []
              · subst ho
                obtain ⟨rfl, -⟩ := h.of_newline
                cases hy with
                | bracket =>
                    have hgaps := isRowGap_of_behindGaps ht fun hmem => absurd (hremark hmem) (by simp)
                    exact ⟨[], line, .nil, lexes_gaps_close hgaps⟩
                | newline =>
                    exact ⟨[], line + 1, .nil, .silent (.of_shorter (step_break hbehind) (by simp; omega))
                      (lexes_closer)⟩
              · rw [if_neg (by simpa using ho)] at hnot
                exact (hnot (lastTokens_lexFrom_nil n _)).elim
          | cons c t =>
              rw [ht, List.cons_append] at hbehind hbreak
              rw [ht] at hsuffix
              have hshorter {t' : Text} (ht' : t' <:+ t) : (t' ++ y).length < (r ++ y).length := by
                have hle := hsuffix.length_le
                have hle' := ht'.length_le
                simp only [List.length_append, List.length_cons] at hle ⊢
                omega
              have hremark' {t' : Text} (ht' : t' <:+ t) (hmem : '#' ∈ t') : y = '\n' :: ')' :: more :=
                hremark (((ht'.trans (List.suffix_cons _ _)).trans hsuffix).subset hmem)
              by_cases hc : c = '\n'
              · subst hc
                rw [step_break hbreak] at h
                have hmore : Lexes (.within (r ++ y) line columns (o ++ ('(', opened) :: opens)) []
                    ⟨t ++ y, line + 1, true, columns, o ++ ('(', opened) :: opens⟩ :=
                  .of_shorter ((step_break hbehind).trans (if_neg (by simp))) (hshorter List.suffix_rfl)
                by_cases ho : o = []
                · subst ho
                  obtain ⟨rfl, fin, hlex, hfin⟩ := h.of_newline
                  obtain ⟨l, hlexes⟩ := lexes_trailing hlex hfin hy (hremark' List.suffix_rfl)
                  exact ⟨[], l, .nil, hmore.silent hlexes⟩
                · rw [if_neg (by simpa using ho)] at h
                  exact (ih h (fun _ hnil => (ho hnil).elim) (hremark' List.suffix_rfl)).silent hmore
              by_cases hescape : c = '\\'
              · subst hescape
                by_cases hjoin : ∃ t', t = '\n' :: t'
                · obtain ⟨t, rfl⟩ := hjoin
                  rw [step_join hbreak (by simp)] at h
                  have hne : t ++ y ≠ [] := hy.closes.append_ne_nil t
                  exact (ih h (by simp) (hremark' (List.suffix_cons _ _))).silent
                    (.of_shorter (step_join hbehind hne) (hshorter (List.suffix_cons _ _)))
                · obtain ⟨f, hstray⟩ := step_stray line [(0, 0)] o hbreak fun r' hr' => by
                    obtain _ | ⟨d, t⟩ := t
                    · exact (List.cons.inj hr').2.symm
                    · obtain ⟨rfl, -⟩ := List.cons.inj hr'
                      exact (hjoin ⟨_, rfl⟩).elim
                  rw [hstray] at hnot
                  exact (hnot (.fault _ _ _)).elim
              · have htoken : (LexState.within (r ++ ['\n']) line [(0, 0)] o).step =
                    (LexState.within [] line [(0, 0)] o).tokenAt c (t ++ ['\n']) := step_token hbreak hc hescape
                cases hstep : (LexState.within [] line [(0, 0)] o).tokenAt c (t ++ ['\n']) with
                | last ts' =>
                    rw [htoken, hstep] at hnot
                    exact (hnot (lastTokens_of_last (htoken.trans hstep))).elim
                | more ts₁ s =>
                    rw [htoken, hstep] at h
                    obtain ⟨k, hk, htakes⟩ := takesOne_tokenAt c (u := fun _ => []) _ _ _ hstep
                    cases hk
                    obtain ⟨ts', rfl, hdepth, h'⟩ := h.of_token k.isEnd_eq
                    have hstep' := (step_token hbehind hc hescape).trans
                      (htakes y columns (('(', opened) :: opens) hy.closes (by simpa using hdepth))
                    rw [List.append_nil] at h'
                    have hrest := ih h' (by simp) (hremark' k.suffix)
                    exact hrest.token (.of_shorter hstep' (hshorter k.suffix)) ⟨rfl, rfl, k.isEnd_eq⟩

/-- An expression that stands by itself has the same tokens within brackets, and the bracket that closes
follows. -/
theorem lexes_inset (columns : List (Nat × Nat)) {n : Nat} {r : Text} {ts : List Token}
    (h : StandsIn opens ts (lexFrom n ⟨r ++ ['\n'], line, true, [(0, 0)], []⟩))
    (hblock : BeginsNoBlock [] (lexFrom n ⟨r ++ ['\n'], line, true, [(0, 0)], []⟩))
    (hy : ClosedBy (')' :: more) y) (hremark : '#' ∈ r → y = '\n' :: ')' :: more) :
    ReadsThen ts (.within (r ++ y) line columns (('(', opened) :: opens)) more columns opens := by
  cases n with
  | zero => exact (h.not_last (.fault _ _ _)).elim
  | succ n =>
      obtain ⟨r', l, fresh, gaps, hsuffix, heq, hgaps, hfresh, hlexes⟩ :=
        exists_lexes_start columns h.not_last hblock hy.closes
      have hbody : lexFrom n ⟨(gaps ++ r') ++ ['\n'], l, fresh, [(0, 0)], []⟩ =
          lexFrom n ⟨r' ++ ['\n'], l, fresh, [(0, 0)], []⟩ := by
        cases fresh with
        | true => rw [hfresh rfl, List.nil_append]
        | false => rw [List.append_assoc, lexFrom_gaps hgaps]
      rw [heq, ← hbody] at h hblock
      have hremark' (hmem : '#' ∈ gaps ++ r') : y = '\n' :: ')' :: more := by
        rcases List.mem_append.1 hmem with hmem | hmem
        · exact absurd (hgaps _ hmem) (by decide)
        · exact hremark (hsuffix.subset hmem)
      have hreads : ReadsThen ts ⟨(gaps ++ r') ++ y, l, fresh, columns, ('(', opened) :: opens⟩ more columns
          opens := lexes_body columns h (fun _ => hblock) hy hremark'
      rw [List.append_assoc] at hreads
      exact hreads.silent (hlexes _ (by simp)).2

end

end Stencil.Script
