import Stencil.Proofs.Script.Parsing

/-!
# How the readers take statements and blocks

Statements that follow each other are read one after the other (`Statements`), whether they stand in a
block or make up a script. A header with a colon is followed by a block on lines of its own.
-/

namespace Stencil.Script

open Parse

/-- A token on a line, with a number of brackets open behind it. -/
abbrev Lexeme.on (x : Lexeme) (line depth : Nat) : Token := ⟨x, line, line, depth⟩

section

variable {n l d : Nat} {x : String} {ts : List Token}

/-! ## Names in headers -/

/-- A name that nothing continues is an expression. -/
theorem expression_name {u : Token} (hu : u.lexeme.endsExpression) :
    (Grammar.level (n + 2)).expression (Lexeme.on (.name x) l d :: u :: ts) =
      .ok (.name l x, u :: ts) :=
  expression_of_primary (primary_name (endsOperand_of_endsExpression hu)) rfl hu

/-- A name in front of a colon is a condition. -/
theorem namedExpression_name {k : Nat} :
    namedExpression (.level (n + 2)) (Lexeme.on (.name x) l d :: Lexeme.on (.op ":") l k :: ts) =
      .ok (.name l x, Lexeme.on (.op ":") l k :: ts) := by
  rw [namedExpression, bind_ok (line_cons _ _), bind_ok (peek_cons _ _),
    bind_ok (peekSecond_cons _ _ _)]
  refine (bind_ok (expression_name rfl)).trans ?_
  rfl

/-- A name in front of a colon is the source of a loop. -/
theorem starExpressions_name {u : Token} (hu : u.lexeme.endsExpression) :
    starExpressions (.level (n + 2)) (Lexeme.on (.name x) l d :: u :: ts) =
      .ok (.name l x, u :: ts) :=
  starExpressions_of_expression (expression_name hu) rfl hu

/-- A name in front of `in` is the target of a loop. -/
theorem loopTargets_name {k : Nat} :
    loopTargets (.level (n + 2)) (Lexeme.on (.name x) l d :: Lexeme.on (.keyword "in") l k :: ts) =
      .ok (.name l x, Lexeme.on (.keyword "in") l k :: ts) := by
  have hprimary : primary (.level n)
      (Lexeme.on (.name x) l d :: Lexeme.on (.keyword "in") l k :: ts) =
        .ok (.name l x, Lexeme.on (.keyword "in") l k :: ts) := primary_name rfl
  have htarget : starTarget (.level (n + 2))
      (Lexeme.on (.name x) l d :: Lexeme.on (.keyword "in") l k :: ts) =
        .ok (.name l x, Lexeme.on (.keyword "in") l k :: ts) := by
    rw [starTarget, bind_ok (line_cons _ _), bind_ok (takeOp_cons _ _ _)]
    exact bitOr_of_primary hprimary rfl rfl
  rw [loopTargets, listOf]
  refine (bind_ok (a := Expr.name l x) (r := Lexeme.on (.keyword "in") l k :: ts) ?_).trans rfl
  rw [bind_ok (line_cons _ _), bind_ok htarget, bind_ok (atOp_cons _ _ _)]
  rfl

end

/-! ## Statements in a row -/

/-- Whether a block ends at a token, or the script does. -/
def Lexeme.endsBlock : Lexeme → Bool
  | .dedent | .finish => true
  | _ => false

/-- Statements are read in a row, up to some tokens behind them. -/
inductive Statements (g : Grammar) : List Token → List Stmt → List Token → Prop where
  | none (ts : List Token) : Statements g ts [] ts
  | more {t : Token} {ts s r : List Token} {first ss : List Stmt} :
      t.lexeme.endsBlock = false → g.statement (t :: ts) = .ok (first, s) →
      s.length < (t :: ts).length → Statements g s ss r → Statements g (t :: ts) (first ++ ss) r

namespace Statements

variable {g : Grammar} {ts s r : List Token} {ss ss' : List Stmt}

/-- A single reading of statements. -/
theorem one {t : Token} (ht : t.lexeme.endsBlock = false)
    (h : g.statement (t :: ts) = .ok (ss, s)) (hless : s.length < (t :: ts).length) :
    Statements g (t :: ts) ss s := by
  have := more ht h hless (none s)
  rwa [List.append_nil] at this

/-- Statements in a row and the statements behind them are in a row. -/
theorem append (h : Statements g ts ss s) (h' : Statements g s ss' r) :
    Statements g ts (ss ++ ss') r := by
  induction h with
  | none => exact h'
  | more ht hfirst hless _ ih =>
      rw [List.append_assoc]
      exact more ht hfirst hless (ih h')

/-- Reading statements takes no token back. -/
theorem length_le (h : Statements g ts ss s) : s.length ≤ ts.length := by
  induction h with
  | none => exact Nat.le_refl _
  | more _ _ hless _ ih => exact Nat.le_of_lt (Nat.lt_of_le_of_lt ih hless)

/-- A loop that reads statements as long as the block goes on collects them, the last first. -/
theorem loops {step : List Stmt → Parse (Option (List Stmt))} {u : Token}
    (h : Statements g ts ss (u :: s)) (hlast : ∀ acc, step acc (u :: s) = .ok (.none, u :: s))
    (hmore : ∀ acc (t : Token) (ts r : List Token) (first : List Stmt), t.lexeme.endsBlock = false →
      g.statement (t :: ts) = .ok (first, r) →
      step acc (t :: ts) = .ok (some (first.reverse ++ acc), r)) (acc : List Stmt) :
    Loops step acc ts (.ok (ss.reverse ++ acc, u :: s)) := by
  generalize hr : u :: s = r at h
  induction h generalizing acc with
  | none => exact Loops.done (hr ▸ hlast acc)
  | @more t ts s' r first ss ht hfirst hless _ ih =>
      rw [List.reverse_append, List.append_assoc]
      exact Loops.more (hmore acc t ts s' first ht hfirst) hless (hr ▸ ih (first.reverse ++ acc) hr)

/-- The statements of a block, which is not empty. -/
theorem indented_eq {u : Token} (h : Statements g ts ss (u :: r)) (hss : ss ≠ [])
    (hu : u.lexeme = .dedent) : indented g ts = .ok (ss, r) := by
  generalize hs : u :: r = last at h
  cases h with
  | none => exact absurd rfl hss
  | more ht hfirst _ hrest =>
      subst hs
      rw [indented, bind_ok hfirst]
      refine (bind_ok (hrest.loops ?_ ?_ _).loop_eq).trans ?_
      · intro acc
        simp [atBlockEnd, hu, Except.bind]
      · intro acc t ts r first ht hfirst
        have hend : atBlockEnd (t :: ts) = .ok (false, t :: ts) := by
          rw [atBlockEnd, bind_ok (peek_cons _ _)]
          cases hx : t.lexeme <;> simp_all [Lexeme.endsBlock]
        rw [bind_ok hend]
        exact bind_ok hfirst
      · rw [bind_ok (peek_cons _ _), hu]
        simp [Except.bind]

/-- The statements of a whole script. -/
theorem wholeScript_eq {u : Token} (h : Statements g ts ss (u :: r)) (hu : u.lexeme = .finish) :
    wholeScript g ts = .ok (ss, u :: r) := by
  rw [wholeScript]
  refine (bind_ok (h.loops ?_ ?_ []).loop_eq).trans ?_
  · intro acc
    rw [bind_ok (peek_cons _ _), hu]
    rfl
  · intro acc t ts r first ht hfirst
    rw [bind_ok (peek_cons _ _)]
    cases hx : t.lexeme with
    | finish => exact absurd ht (by simp [hx, Lexeme.endsBlock])
    | _ => exact bind_ok hfirst
  · rw [bind_ok (peek_cons _ _), hu]
    simp

end Statements

/-! ## Blocks -/

section

variable {g : Grammar} {ts r : List Token} {ss : List Stmt} {l k m : Nat}

/-- A colon and the block on the lines behind it. -/
theorem colonBlock_eq (h : Statements g ts ss (Lexeme.on .dedent m 0 :: r)) (hss : ss ≠ []) :
    colonBlock g (Lexeme.on (.op ":") l 0 :: Lexeme.on .newline l 0 :: Lexeme.on .indent k 0 :: ts) =
      .ok (ss, r) := by
  have hop : (Lexeme.on (.op ":") l 0).lexeme.isOp ":" := rfl
  rw [colonBlock, bind_ok (expectOp_cons _ _ hop), block, bind_ok (peek_cons _ _)]
  exact h.indented_eq hss rfl

end

/-- One of the alternatives behind a condition, if one is next. -/
def alternative (g : Grammar) (acc : List (Nat × Expr × List Stmt)) :
    Parse (Option (List (Nat × Expr × List Stmt))) := do
  let l ← line
  if ← takeWord "elif" then
    let test ← namedExpression g
    let body ← colonBlock g
    return some ((l, test, body) :: acc)
  return none

/-- A conditional statement in place of what follows a condition that does not hold. -/
def joinBranch (orelse : List Stmt) (branch : Nat × Expr × List Stmt) : List Stmt :=
  [.ifElse branch.1 branch.2.1 branch.2.2 orelse]

/-- What is read behind a condition and its block, whatever alternatives have been read before. -/
def Alternatives (g : Grammar) (ts : List Token) (orelse : List Stmt) (r : List Token) : Prop :=
  ∀ acc, ∃ found last s, Loops (alternative g) acc ts (.ok (found, s)) ∧
    optionalBlock g "else" s = .ok (last, r) ∧
    found.foldl joinBranch last = acc.foldl joinBranch orelse

section

variable {n l : Nat} {x y : String} {u : Token} {ts s r : List Token} {ss orelse : List Stmt}
  {g : Grammar}

/-- No alternative is next. -/
theorem Alternatives.none (helif : u.lexeme.isWord "elif" = false)
    (helse : u.lexeme.isWord "else" = false) : Alternatives g (u :: r) [] (u :: r) := by
  intro acc
  refine ⟨acc, [], u :: r, Loops.done ?_, ?_, rfl⟩
  · rw [alternative, bind_ok (line_cons _ _), bind_ok (takeWord_cons _ _ _), helif]
    rfl
  · rw [optionalBlock, bind_ok (takeWord_cons _ _ _), helse]
    rfl

/-- The last alternative has no condition. -/
theorem Alternatives.otherwise (h : colonBlock g ts = .ok (ss, r)) :
    Alternatives g (Lexeme.on (.keyword "else") l 0 :: ts) ss r := by
  intro acc
  refine ⟨acc, ss, Lexeme.on (.keyword "else") l 0 :: ts, Loops.done ?_, ?_, rfl⟩
  · rw [alternative, bind_ok (line_cons _ _), bind_ok (takeWord_cons _ _ _)]
    rfl
  · rw [optionalBlock, bind_ok (takeWord_cons _ _ _)]
    exact h

/-- An alternative on a name is followed by others. -/
theorem Alternatives.elseIf
    (h : colonBlock (.level (n + 2)) (Lexeme.on (.op ":") l 0 :: ts) = .ok (ss, s))
    (hless : s.length ≤ ts.length) (hrest : Alternatives (.level (n + 2)) s orelse r) :
    Alternatives (.level (n + 2)) (Lexeme.on (.keyword "elif") l 0 :: Lexeme.on (.name x) l 0 ::
      Lexeme.on (.op ":") l 0 :: ts) [.ifElse l (.name l x) ss orelse] r := by
  intro acc
  obtain ⟨found, last, s', hloops, hlast, hfold⟩ := hrest ((l, .name l x, ss) :: acc)
  refine ⟨found, last, s', Loops.more (s := s) ?_ ?_ hloops, hlast, hfold⟩
  · rw [alternative, bind_ok (line_cons _ _), bind_ok (takeWord_cons _ _ _)]
    refine (bind_ok namedExpression_name).trans ?_
    rw [bind_ok h]
    rfl
  · simp only [List.length_cons]
    omega

/-- A choice by the truth of a name, with its alternatives. -/
theorem statement_if (h : colonBlock (.level (n + 2)) (Lexeme.on (.op ":") l 0 :: ts) = .ok (ss, s))
    (hrest : Alternatives (.level (n + 2)) s orelse r) :
    statement (.level (n + 2)) (Lexeme.on (.keyword "if") l 0 :: Lexeme.on (.name x) l 0 ::
      Lexeme.on (.op ":") l 0 :: ts) = .ok ([.ifElse l (.name l x) ss orelse], r) := by
  obtain ⟨found, last, s', hloops, hlast, hfold⟩ := hrest []
  have hword : (Lexeme.on (.keyword "if") l 0).lexeme.isWord "if" := rfl
  have halternatives : alternatives (.level (n + 2)) s = .ok (found, s') := hloops.loop_eq
  have hif : ifStatement (.level (n + 2)) (Lexeme.on (.keyword "if") l 0 ::
      Lexeme.on (.name x) l 0 :: Lexeme.on (.op ":") l 0 :: ts) =
        .ok (.ifElse l (.name l x) ss orelse, r) := by
    rw [ifStatement, bind_ok (line_cons _ _), bind_ok (expectWord_cons _ _ hword),
      bind_ok namedExpression_name, bind_ok h, bind_ok halternatives, bind_ok hlast]
    change Except.ok (Stmt.ifElse l (.name l x) ss (found.foldl joinBranch last), r) = _
    rw [hfold]
    rfl
  rw [statement, bind_ok (line_cons _ _), bind_ok (peek_cons _ _)]
  exact bind_ok hif

/-- A loop over the value of a name. -/
theorem statement_for
    (h : colonBlock (.level (n + 2)) (Lexeme.on (.op ":") l 0 :: ts) = .ok (ss, u :: r))
    (hu : u.lexeme.isWord "else" = false) :
    statement (.level (n + 2)) (Lexeme.on (.keyword "for") l 0 :: Lexeme.on (.name x) l 0 ::
      Lexeme.on (.keyword "in") l 0 :: Lexeme.on (.name y) l 0 :: Lexeme.on (.op ":") l 0 :: ts) =
        .ok ([.forLoop l false (.name l x) (.name l y) ss []], u :: r) := by
  have hword : (Lexeme.on (.keyword "for") l 0).lexeme.isWord "for" := rfl
  have hin : (Lexeme.on (.keyword "in") l 0).lexeme.isWord "in" := rfl
  have helse : optionalBlock (.level (n + 2)) "else" (u :: r) = .ok ([], u :: r) := by
    rw [optionalBlock, bind_ok (takeWord_cons _ _ _), hu]
    rfl
  have hfor : forStatement (.level (n + 2)) l false (Lexeme.on (.keyword "for") l 0 ::
      Lexeme.on (.name x) l 0 :: Lexeme.on (.keyword "in") l 0 :: Lexeme.on (.name y) l 0 ::
      Lexeme.on (.op ":") l 0 :: ts) =
        .ok (.forLoop l false (.name l x) (.name l y) ss [], u :: r) := by
    rw [forStatement, bind_ok (expectWord_cons _ _ hword), bind_ok loopTargets_name,
      bind_ok (expectWord_cons _ _ hin), bind_ok (starExpressions_name rfl), bind_ok h,
      bind_ok helse]
    rfl
  rw [statement, bind_ok (line_cons _ _), bind_ok (peek_cons _ _)]
  exact bind_ok hfor

end

end Stencil.Script
