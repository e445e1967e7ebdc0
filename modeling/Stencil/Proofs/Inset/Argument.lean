import Stencil.Proofs.Inset.Lines

/-!
# An expression as the argument of a call

A text is an expression by itself when an expression takes all its tokens (`IsExpression`). In the brackets
of a call such a text is the only argument (`arguments_inset`): none of its tokens names an argument, and
what it is followed by there ends it just as the line break does.
-/

namespace Stencil.Script

open Parse

variable {e : Expr} {ts ts' rest : List Token} {nl fin : Token}

/-! ## Readers that succeed -/

/-- A reader gives a result in front of tokens. -/
def GivesAt {α : Type} (p : Parse α) (s : List Token) (x : α × List Token) : Prop :=
  p s = .ok x

/-- A reader that gives a result is followed by the next one. -/
theorem GivesAt.next {α β : Type} {p : Parse α} {f : α → Parse β} {s r : List Token} {a : α}
    {x : β × List Token} (h : p s = .ok (a, r)) (hf : GivesAt (f a) r x) : GivesAt (p >>= f) s x :=
  (bind_ok h).trans hf

/-- Expressions start with a token that may start one. -/
theorem startsExpression_of_expression {n : Nat} {t : Token} {x : Expr × List Token}
    (h : (Grammar.level n).expression (t :: ts) = .ok x) : t.lexeme.startsExpression := by
  by_contra hnot
  obtain ⟨f, hf⟩ : ∃ f, (Grammar.level n).expression (t :: ts) = .error f :=
    fails_expression n (Bool.eq_false_iff.2 hnot)
  rw [hf] at h
  cases h

/-! ## Arguments -/

/-- An expression is no argument with a name, so it is an argument without one where a line break follows
it. -/
theorem argument_of_expression {n start : Nat} {t u : Token}
    (h : (Grammar.level (n + 2)).expression (t :: u :: ts) = .ok (e, nl :: rest))
    (hnl : nl.lexeme = .newline) :
    argument (.level (n + 2)) ⟨[], false, false, start⟩ (t :: u :: ts) =
      .ok (⟨[.positional e], false, false, start⟩, nl :: rest) := by
  have hstarts := startsExpression_of_expression h
  have hname (id m : String) (ht : t.lexeme = .name id) (hm : m ∈ ["=", ":="]) : u.lexeme ≠ .op m := by
    intro hu
    obtain ⟨x, l, l', d⟩ := t
    dsimp only at ht
    subst ht
    have hends : u.lexeme.endsExpression := by
      rw [hu]
      simp only [List.mem_cons, List.not_mem_nil, or_false] at hm
      rcases hm with rfl | rfl <;> rfl
    have hread : (Grammar.level (n + 2)).expression (⟨.name id, l, l', d⟩ :: u :: ts) =
        .ok (.name l id, u :: ts) :=
      expression_of_primary (primary_name (endsOperand_of_endsExpression hends)) rfl hends
    cases hread.symm.trans h
    rw [hnl] at hu
    cases hu
  have hop (m : String) : nl.lexeme.isOp m = false := by
    rw [hnl]
    rfl
  have hclauses : atClauses (nl :: rest) = .ok (false, nl :: rest) := by
    simp [atClauses, hnl, Lexeme.isWord, Except.bind]
  change GivesAt _ _ _
  refine .next (line_cons _ _) (.next (peek_cons _ _) (.next (peekSecond_cons _ _ _) ?_))
  split
  case h_5 =>
    refine .next h (.next (atOp_cons _ _ _) ?_)
    rw [hop]
    refine GivesAt.next (atOp_cons _ _ _) ?_
    rw [hop]
    exact GivesAt.next hclauses rfl
  case h_3 ht hu => exact (hname _ _ ht (by simp) hu).elim
  case h_4 ht hu => exact (hname _ _ ht (by simp) hu).elim
  all_goals
    next ht =>
      rw [ht] at hstarts
      cases hstarts

/-- The only argument of a call is an expression that a line break could follow, and the bracket behind it. -/
theorem arguments_inset {n k start c c' q : Nat} (hlevel : n + 2 ≤ k)
    (h : (Grammar.level (n + 2)).expression (ts ++ [nl, fin]) = .ok (e, [nl, fin]))
    (hnl : nl.lexeme = .newline) (hsame : SameTokens ts ts') :
    arguments (.level k) start (ts' ++ ⟨.op ")", c, c', q⟩ :: rest) = .ok ([.positional e], rest) := by
  have hend : nl.lexeme.isEnd := by rw [hnl]; rfl
  have hstray : ¬ Stray [nl, fin] := by
    rintro ⟨t, us, heq, ht⟩
    cases heq
    rw [hnl] at ht
    cases ht
  have halone : argument (.level (n + 2)) ⟨[], false, false, start⟩ (ts ++ [nl, fin]) =
      .ok (⟨[.positional e], false, false, start⟩, [nl, fin]) := by
    obtain ⟨t, u, us, heq⟩ : ∃ t u us, ts ++ [nl, fin] = t :: u :: us := by
      obtain _ | ⟨t, _ | ⟨u, us⟩⟩ := ts <;> exact ⟨_, _, _, rfl⟩
    rw [heq] at h ⊢
    exact argument_of_expression h hnl
  have haligned := hsame.aligned [nl, fin] (⟨.op ")", c, c', q⟩ :: rest)
  have hinset : argument (.level k) ⟨[], false, false, start⟩ (ts' ++ ⟨.op ")", c, c', q⟩ :: rest) =
      .ok (⟨[.positional e], false, false, start⟩, ⟨.op ")", c, c', q⟩ :: rest) := by
    obtain ⟨-, hleft⟩ | ⟨r, hr, har, -⟩ :=
      ((Grammar.starts_level hlevel).argument _).goes (.closed hend rfl) _ _ haligned _ _ halone
    · exact (hstray hleft).elim
    · rw [hr, (har.eq_of_newline hend).2]
  have hclose : ∃ t us, ts' ++ ⟨.op ")", c, c', q⟩ :: rest = t :: us ∧ t.lexeme.isOp ")" = false := by
    cases hsame with
    | nil =>
        have hstarts := startsExpression_of_expression h
        rw [hnl] at hstarts
        cases hstarts
    | @cons t t' ts ts' ht hsame =>
        refine ⟨t', ts' ++ ⟨.op ")", c, c', q⟩ :: rest, rfl, Bool.eq_false_iff.2 fun hop => ?_⟩
        have hstarts := startsExpression_of_expression h
        rw [ht.1, Lexeme.isOp_iff.1 hop] at hstarts
        cases hstarts
  obtain ⟨t, us, heq, ht⟩ := hclose
  rw [arguments, heq, bind_ok (takeOp_cons _ _ _), ht, if_neg (by simp), if_neg (by simp), ← heq]
  refine (bind_ok hinset).trans ?_
  rw [bind_ok (Loops.done rfl).loop_eq]
  rfl

/-! ## Texts that are expressions -/

/-- The tokens of a text whose first line has a number. -/
def lexAt (text : Text) (line : Nat) : List Token :=
  let t := closeLastLine (unifyBreaks text)
  lexFrom (2 * t.length + 2) ⟨t, line, true, [(0, 0)], []⟩

/-- A text whose first line has a number is an expression by itself: the expression takes all its tokens up
to the end of the line, and two brackets more may be open around it. -/
structure IsExpression (text : Text) (line : Nat) (e : Expr) : Prop where
  reads : ∃ nl fin, nl.lexeme = .newline ∧ fin.lexeme = .finish ∧
    (Grammar.level (readingLevel text (lexAt text line))).expression (lexAt text line) = .ok (e, [nl, fin])
  shallow : ∀ t ∈ lexAt text line, t.depth + 2 ≤ maxOpen

/-- The tokens before an end do not end an expression. -/
theorem Aligned.exists_append {left right s r : List Token} (h : Aligned left right s r) :
    ∃ ts, s = ts ++ left ∧ ∀ t ∈ ts, t.lexeme.isEnd = false := by
  induction h with
  | ends => exact ⟨[], rfl, by simp⟩
  | @cons x l e e' d d' s r hx _ ih =>
      obtain ⟨ts, rfl, hts⟩ := ih
      refine ⟨⟨x, l, e, d⟩ :: ts, rfl, fun t ht => ?_⟩
      rcases List.mem_cons.1 ht with rfl | ht
      · exact hx
      · exact hts t ht

namespace IsExpression

variable {text : Text} {line : Nat}

/-- An expression takes the tokens up to the line break at the end, and none of them ends it. -/
theorem exists_tokens (h : IsExpression text line e) : ∃ ts nl fin, lexAt text line = ts ++ [nl, fin] ∧
    (∀ t ∈ ts, t.lexeme.isEnd = false) ∧ nl.lexeme = .newline ∧ fin.lexeme = .finish ∧
    (Grammar.level (readingLevel text (lexAt text line))).expression (ts ++ [nl, fin]) =
      .ok (e, [nl, fin]) := by
  obtain ⟨nl, fin, hnl, hfin, hread⟩ := h.reads
  have hend : nl.lexeme.isEnd := by rw [hnl]; rfl
  obtain ⟨left, he, ha⟩ := exists_aligned (exists_isEnd_lexFrom _ _)
  obtain ⟨-, u, us, heq, hstray⟩ | ⟨r, -, har, -⟩ :=
    (Grammar.starts_level (Nat.le_refl _)).expression.goes he _ _ ha _ _ hread
  · cases heq
    rw [hnl] at hstray
    cases hstray
  · obtain ⟨rfl, -⟩ := har.eq_of_newline hend
    obtain ⟨ts, hts, hends⟩ := ha.exists_append
    exact ⟨ts, nl, fin, hts, hends, hnl, hfin, by rwa [← hts]⟩

end IsExpression

end Stencil.Script
