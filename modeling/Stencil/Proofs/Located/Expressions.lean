import Stencil.Proofs.Located.Fields
import Stencil.Proofs.Located.Readers
import Stencil.Proofs.Reach.Trees

/-!
# Expressions that stand on lines of a kind

Every node of an expression that is read from tokens on lines of a kind starts on such a line. A node starts
with its first token or, for a sum or a call and their like, with the first token of its first part, which no
closing bracket is. The values within strings with fields are read from texts of their own
(`Grammar.Located.partsOf`).
-/

namespace Stencil.Script

open Parse

/-- The limits of trees all nodes of which start on lines of a kind. -/
def lineLimits (P : Nat → Prop) : Limits where
  line := P
  name _ := True
  binds _ := True
  wraps _ _ _ := False
  address _ := True
  whole := True

/-- The readers that the grammar uses recursively give trees on lines of a kind. -/
structure Grammar.Located (P : Nat → Prop) (g : Grammar) : Prop where
  expression : Begins P g.expression (Expr.Within (lineLimits P))
  disjunction : Begins P g.disjunction (Expr.Within (lineLimits P))
  bitOr : Begins P g.bitOr (Expr.Within (lineLimits P))
  factor : Begins P g.factor (Expr.Within (lineLimits P))
  pattern : Begins P g.pattern (Pattern.Within (lineLimits P))
  statement : ReadsWithin P g.statement fun ss => ∀ s ∈ ss, s.Within (lineLimits P)

section

variable {P : Nat → Prop} {g : Grammar} {p : Parse Expr} {x : Lexeme}

/-! ## Operators -/

/-- Operands that are joined by operators. -/
theorem Begins.leftAssoc (h : Begins P p (Expr.Within (lineLimits P))) (ops : List (String × BinaryOp)) :
    Begins P (leftAssoc ops p) (Expr.Within (lineLimits P)) := by
  intro x
  refine .line fun l hl => .bind (h x) fun hx first hfirst _ => .loop _ hfirst fun left hleft y => .peek ?_
  cases y with
  | op m =>
      dsimp only
      cases ops.lookup m with
      | none => exact .done
      | some op =>
          exact .advance fun z => .bind (h z) fun _ right hright _ => .more (.binary (hl hx) hleft hright)
  | _ => exact .done

/-- Operands of comparisons. -/
theorem Grammar.Located.bitOrOf (h : g.Located P) : Begins P (Script.bitOr g) (Expr.Within (lineLimits P)) :=
  (((((h.factor.leftAssoc _).leftAssoc _).leftAssoc _).leftAssoc _).leftAssoc _).leftAssoc _

/-- A token is taken where something is made of it. -/
theorem ReadsAt.takenIfSome {α : Type} (b : Option α) :
    ReadsAt P false x
      (if b.isSome = true then do
        Parse.advance
        Pure.pure b
      else Pure.pure b) fun _ => True := by
  cases b with
  | none => exact .any
  | some b => exact .advance fun _ => .any

/-- Taking a comparison operator. -/
theorem reads_compareOp? : ReadsWithin P compareOp? fun _ => True := by
  intro x
  refine .peek ?_
  cases x with
  | op m => exact .takenIfSome _
  | keyword w =>
      split
      · next heq => cases heq
      · exact .advance fun _ => .any
      · refine .peekSecond fun y => ?_
        split
        · exact .advance fun _ => .advance fun _ => .any
        · exact .any
      · exact .advance fun _ => .takeWord (fun _ _ => .any) .any
      · exact .any
  | _ => exact .any

/-- Comparisons. -/
theorem Grammar.Located.comparison (h : g.Located P) :
    Begins P (Script.comparison g) (Expr.Within (lineLimits P)) := by
  intro x
  refine .line fun l hl => .bind (h.bitOrOf x) fun hx first hfirst y => ?_
  refine .next (.loop (fun rest => ∀ r ∈ rest, r.2.Within (lineLimits P)) (by simp) fun acc hacc z => ?_)
    fun rest hrest _ => ?_
  · refine .next (reads_compareOp? z) fun op _ => ?_
    cases op with
    | none => exact fun _ => .done
    | some op => exact fun y => .bind (h.bitOrOf y) fun _ e he _ => .more (by simpa [he] using hacc)
  · cases rest.isEmpty with
    | true => exact .pure hfirst
    | false => exact .pure (.compare (hl hx) hfirst (by simpa using hrest))

/-- Negations. -/
theorem reads_negations : ReadsWithin P negations fun ls => ∀ l ∈ ls, P l := by
  intro x
  refine .loop _ (by simp) fun acc hacc y => .line fun l hl => .takeWord (fun hy _ => ?_) .done
  exact .more (by simpa [hl hy] using hacc)

/-- There are no negations where no node starts. -/
theorem negations_of_isIdle {ts : List Token} (h : (nextLexeme ts).isIdle) :
    negations ts = .ok ([], ts) := by
  cases ts with
  | nil => rfl
  | cons t ts =>
      have hword : t.lexeme.isWord "not" = false := by
        rw [Bool.eq_false_iff]
        intro hword
        rw [nextLexeme, Lexeme.isIdle_of_isWord hword] at h
        cases h
      refine (Loops.done ?_).loop_eq
      rw [bind_ok (line_cons t ts), bind_ok (takeWord_cons t ts "not"), hword]
      rfl

/-- Comparisons behind negations. -/
theorem Grammar.Located.inversion (h : g.Located P) :
    Begins P (Script.inversion g) (Expr.Within (lineLimits P)) := by
  intro x
  have hfold (ls : List Nat) (hls : ∀ l ∈ ls, P l) (e : Expr) (he : e.Within (lineLimits P)) :
      (ls.foldl (fun e l => .unary l .not e) e).Within (lineLimits P) := by
    induction ls generalizing e with
    | nil => exact he
    | cons l ls ih =>
        exact ih (fun l hl => hls l (List.mem_cons_of_mem _ hl)) _ (.unary (hls l List.mem_cons_self) he)
  -- where no node may start there are no negations, and the comparison is the first to look at the tokens
  cases hx : x.isIdle with
  | false =>
      refine .node hx (.next (reads_negations x) fun ls hls y => ?_)
      exact .bind (h.comparison y) fun _ e he _ => .pure (hfold ls hls e he)
  | true =>
      refine .after (Q := (· = [])) (fun ts hnext => ⟨[], negations_of_isIdle (by rw [hnext, hx]), rfl⟩) ?_
      rintro _ rfl
      exact .bind (h.comparison x) fun _ e he _ => .pure he

/-- Operands that are joined by a word. -/
theorem Begins.chain (h : Begins P p (Expr.Within (lineLimits P))) (word : String) (conjunction : Bool) :
    Begins P (chain word conjunction p) (Expr.Within (lineLimits P)) := by
  intro x
  refine .line fun l hl => .bind (h x) fun hx first hfirst y => ?_
  refine .next (.loop (fun es => ∀ e ∈ es, e.Within (lineLimits P)) (by simp) fun acc hacc z => ?_)
    fun rest hrest _ => ?_
  · exact .takeWord (fun _ u => .bind (h u) fun _ e he _ => .more (by simpa [he] using hacc)) .done
  · cases rest.isEmpty with
    | true => exact .pure hfirst
    | false => exact .pure (.logic (hl hx) (by simpa [hfirst] using hrest))

/-- Operands that are joined by `or`. -/
theorem Grammar.Located.disjunctionOf (h : g.Located P) :
    Begins P (Script.disjunction g) (Expr.Within (lineLimits P)) :=
  (h.inversion.chain _ _).chain _ _

/-! ## Parameters and functions -/

/-- The parameters read so far stand on lines of a kind. -/
def ParamState.Located (P : Nat → Prop) (s : ParamState) : Prop :=
  ∀ p ∈ s.params, p.Within (lineLimits P)

/-- One more parameter. -/
theorem ParamState.Located.cons {s s' : ParamState} (hs : s.Located P) {q : Param}
    (hq : q.Within (lineLimits P)) (heq : s'.params = q :: s.params) : s'.Located P := by
  intro q' hq'
  rw [heq] at hq'
  obtain rfl | hq' := List.mem_cons.1 hq'
  · exact hq
  · exact hs q' hq'

/-- The parameters in front of a slash. -/
theorem ParamState.Located.positionOnly {s s' : ParamState} (hs : s.Located P)
    (heq : s'.params = s.params.map fun
      | .mk l _ id hint d => .mk l .positionOnly id hint d) : s'.Located P := by
  intro q hq
  rw [heq] at hq
  obtain ⟨⟨l, k, id, hint, d⟩, hmem, rfl⟩ := List.mem_map.1 hq
  obtain ⟨hl, hhint, hd⟩ := hs _ hmem
  exact .mk hl hhint hd

/-- A hint behind a parameter. -/
theorem Grammar.Located.hint? (h : g.Located P) (hints starred : Bool) :
    ReadsWithin P (Script.hint? g hints starred) fun v : Option Expr => ∀ e ∈ v, e.Within (lineLimits P) := by
  intro x
  refine .atOp (fun _ => ?_) ?_
  · cases hints with
    | false => exact .done
    | true =>
        refine .advance fun y => .line fun l hl => ?_
        have hplain (y : Lexeme) : ReadsAt P false y
            (do
              let e ← g.expression
              return some e) fun v : Option Expr => ∀ e ∈ v, e.Within (lineLimits P) :=
          .bind (h.expression y) fun _ e he _ => .more he
        cases starred with
        | false => exact hplain y
        | true =>
            exact .takeOp rfl (fun hy z => .bind (h.bitOr z) fun _ e he _ => .more (.star (hl hy) he)) (hplain y)
  · cases hints <;> exact .done

/-- One item of a list of parameters. -/
theorem Grammar.Located.paramItem (h : g.Located P) (ending : String) (hints : Bool) (s : ParamState)
    (hs : s.Located P) : Begins P (Script.paramItem g ending hints s) (ParamState.Located P) := by
  intro x
  have hnone : ∀ e ∈ (Option.none : Option Expr), e.Within (lineLimits P) := nofun
  refine .line fun l hl => ?_
  cases s.closed with
  | true => exact .fails fun _ => ⟨_, rfl⟩
  | false =>
      refine .peek ?_
      split
      · -- a slash
        cases s.slash || s.star || s.params.isEmpty with
        | true => exact .fails fun _ => ⟨_, rfl⟩
        | false => exact .node rfl (.advance fun _ => .pure (hs.positionOnly rfl))
      · -- a star, with a name or without
        cases s.star with
        | true => exact .fails fun _ => ⟨_, rfl⟩
        | false =>
            refine .node rfl (.advance fun y => .peek ?_)
            split
            · refine .peekSecond fun z => ?_
              split
              · exact .pure hs
              · exact .fails fun _ => ⟨_, rfl⟩
            · refine .fails fun _ => ?_
              split <;> exact ⟨_, rfl⟩
            · refine .bind .name fun _ id _ z => .next (h.hint? hints true z) fun hint hhint _ => ?_
              exact .pure (hs.cons (.mk (hl rfl) hhint hnone) rfl)
      · -- two stars
        refine .node rfl (.advance fun y => .bind .name fun _ id _ z => ?_)
        exact .next (h.hint? hints false z) fun hint hhint _ => .pure (hs.cons (.mk (hl rfl) hhint hnone) rfl)
      · refine .bind .name fun hx id _ z => .next (h.hint? hints false z) fun hint hhint y => ?_
        refine .takeOp rfl (fun _ z => .bind (h.expression z) fun _ d hd _ => ?_) ?_
        · refine .pure (hs.cons (.mk (hl hx) hhint fun e he => ?_) rfl)
          cases he
          exact hd
        · cases s.star with
          | true => exact .pure (hs.cons (.mk (hl hx) hhint hnone) rfl)
          | false =>
              cases s.defaulted with
              | true => exact .fails fun _ => ⟨_, rfl⟩
              | false => exact .pure (hs.cons (.mk (hl hx) hhint hnone) rfl)

/-- The parameters of a function. -/
theorem Grammar.Located.params (h : g.Located P) (ending : String) (hints : Bool) :
    ReadsWithin P (Script.params g ending hints) fun ps => ∀ p ∈ ps, p.Within (lineLimits P) := by
  intro x
  refine .atOp (fun _ => .pure (by simp)) ?_
  refine .bind (h.paramItem ending hints _ (by simp [ParamState.Located]) x) fun _ first hfirst y => ?_
  refine .next (.loop _ hfirst fun s hs z => ?_) fun s hs _ => .pure (by simpa using show ∀ p ∈ s.params, _ from hs)
  refine .atOp (fun _ => .done) (.expectOp rfl fun _ y => .atOp (fun _ => .done) ?_)
  exact .bind (h.paramItem ending hints s hs y) fun _ s hs _ => .more hs

/-- Functions that are expressions. -/
theorem Grammar.Located.lambda (h : g.Located P) :
    Begins P (Script.lambda g) (Expr.Within (lineLimits P)) := by
  intro x
  refine .line fun l hl => .expectWord fun hx y => .next (h.params ":" false y) fun ps hps z => ?_
  refine .expectOp rfl fun _ y => .bind (h.expression y) fun _ body hbody _ => .pure ?_
  exact .lambda (hl hx) hps hbody fun _ _ => trivial

/-! ## Expressions and lists of expressions -/

/-- Looking for words that make an expression ambiguous. -/
theorem startsAmbiguously_eq (ts : List Token) : ∃ b, startsAmbiguously ts = .ok (b, ts) ∧ True := by
  cases ts with
  | nil => exact ⟨false, rfl, trivial⟩
  | cons t ts =>
      obtain ⟨b, hb⟩ := exists_startsAmbiguously t ts
      exact ⟨b, hb, trivial⟩

/-- Looking for an expression that directly follows another one. -/
theorem reads_rejectNeighbour (g : Grammar) (ambiguous : Bool) (e : Expr) :
    ReadsWithin P (rejectNeighbour g ambiguous e) fun _ => True := by
  intro x ts hts hnext u rest hok
  refine ⟨nofun, ?_, trivial⟩
  cases ts with
  | nil =>
      cases hok
      exact hts
  | cons t ts => rwa [rejectNeighbour_eq_ok hok]

/-- Expressions. -/
theorem Grammar.Located.expressionOf (h : g.Located P) :
    Begins P (Script.expression g) (Expr.Within (lineLimits P)) := by
  intro x
  refine .atWord (fun _ => h.lambda x) (.line fun l hl => ?_)
  refine .after (fun ts _ => startsAmbiguously_eq ts) fun ambiguous _ => ?_
  refine .bind (h.disjunctionOf x) fun hx body hbody y => .takeWord (fun _ z => ?_) ?_
  · refine .bind (h.disjunctionOf z) fun _ test htest y => .takeWord (fun _ z => ?_) ?_
    · exact .bind (h.expression z) fun _ orelse horelse _ => .pure (.choice (hl hx) htest hbody horelse)
    · exact .atOp (fun _ => .fails fun _ => ⟨_, rfl⟩) (.fails fun _ => ⟨_, rfl⟩)
  · exact .next (reads_rejectNeighbour g ambiguous body y) fun _ _ _ => .pure hbody

/-- An expression that may bind a name. -/
theorem Grammar.Located.namedExpression (h : g.Located P) :
    Begins P (Script.namedExpression g) (Expr.Within (lineLimits P)) := by
  intro x
  refine .line fun l hl => .peek (.peekSecond fun y => ?_)
  split
  · refine .node rfl (.advance fun _ => .advance fun z => .bind (h.expression z) fun _ e he _ => ?_)
    exact .pure (.bind (hl rfl) trivial (hl rfl) he)
  · refine .bind (h.expression _) fun _ e he z => .atOp (fun _ => .fails fun _ => ⟨_, rfl⟩) ?_
    refine .atOp (fun _ => ?_) (.pure he)
    cases isPlainDisplay e with
    | true => exact .pure he
    | false =>
        refine .get fun ts => .fails fun _ => ?_
        dsimp only
        repeat' split
        all_goals exact ⟨_, rfl⟩

/-- An item of a display. -/
theorem Grammar.Located.starNamed (h : g.Located P) :
    Begins P (Script.starNamed g) (Expr.Within (lineLimits P)) := by
  intro x
  refine .line fun l hl => .takeOp rfl (fun hx y => ?_) (h.namedExpression x)
  exact .bind (h.bitOr y) fun _ e he _ => .pure (.star (hl hx) he)

/-- An item of an expression list. -/
theorem Grammar.Located.starExpression (h : g.Located P) :
    Begins P (Script.starExpression g) (Expr.Within (lineLimits P)) := by
  intro x
  refine .line fun l hl => .takeOp rfl (fun hx y => ?_) (h.expression x)
  exact .bind (h.bitOr y) fun _ e he _ => .pure (.star (hl hx) he)

/-- The items behind a first one. -/
theorem Begins.moreItems (h : Begins P p (Expr.Within (lineLimits P))) {first : Expr}
    (hfirst : first.Within (lineLimits P)) :
    ReadsWithin P (moreItems p first) fun es => ∀ e ∈ es, e.Within (lineLimits P) := by
  intro x
  refine .next (.loop (fun es => ∀ e ∈ es, e.Within (lineLimits P)) (by simpa using hfirst) fun acc hacc y => ?_)
    fun es hes y => ?_
  · refine .atOp (fun _ => .peekSecond fun z => ?_) (.peekSecond fun z => .done)
    cases z.startsItem with
    | true =>
        exact .advance fun z => .bind (h z) fun _ e he _ => .more (by simpa [he] using hacc)
    | false => exact .done
  · have hcomma : ReadsWithin P (takeOp ",") fun _ => True := fun _ => .atOp (fun _ => .advance fun _ => .any) .any
    exact .next (.discard (hcomma y)) fun _ _ _ => .pure (by simpa using hes)

/-- Expressions that are separated by commas. -/
theorem Begins.listOf (h : Begins P p (Expr.Within (lineLimits P))) :
    Begins P (listOf p) (Expr.Within (lineLimits P)) := by
  intro x
  refine .line fun l hl => .bind (h x) fun hx first hfirst y => .atOp (fun _ => ?_) (.pure hfirst)
  exact .next (h.moreItems hfirst y) fun es hes _ => .pure (.display (hl hx) hes)

/-- An expression list. -/
theorem Grammar.Located.starExpressions (h : g.Located P) :
    Begins P (Script.starExpressions g) (Expr.Within (lineLimits P)) :=
  h.starExpression.listOf

/-- A `yield` expression. -/
theorem Grammar.Located.yieldExpression (h : g.Located P) :
    Begins P (Script.yieldExpression g) (Expr.Within (lineLimits P)) := by
  intro x
  refine .line fun l hl => .expectWord fun hx y => .takeWord (fun _ z => ?_) (.peek ?_)
  · exact .bind (h.expression z) fun _ e he _ => .pure (.yieldFrom (hl hx) he)
  · cases y.startsItem with
    | true =>
        refine .bind (h.starExpressions y) fun _ e he _ => .pure (.yieldValue (hl hx) fun e' he' => ?_)
        cases he'
        exact he
    | false => exact .pure (.yieldValue (hl hx) nofun)

/-- A `yield` expression or an expression list. -/
theorem Grammar.Located.yieldOrExpressions (h : g.Located P) :
    Begins P (Script.yieldOrExpressions g) (Expr.Within (lineLimits P)) :=
  fun x => .atWord (fun _ => h.yieldExpression x) (h.starExpressions x)

/-! ## Targets and comprehensions -/

/-- An item on the left of `in`. -/
theorem Grammar.Located.starTarget (h : g.Located P) :
    Begins P (Script.starTarget g) (Expr.Within (lineLimits P)) := by
  intro x
  refine .line fun l hl => .takeOp rfl (fun hx y => ?_) (h.bitOr x)
  exact .bind (h.bitOr y) fun _ e he _ => .pure (.star (hl hx) he)

/-- Looking at a target takes nothing. -/
theorem reads_checkTarget (use : TargetUse) (e : Expr) : ReadsWithin P (checkTarget use e) fun _ => True := by
  intro x
  unfold checkTarget
  cases invalidTarget? use 1000 e with
  | some bad => exact .fails fun _ => ⟨_, rfl⟩
  | none => exact .any

/-- The targets of a loop. -/
theorem Grammar.Located.loopTargets (h : g.Located P) :
    Begins P (Script.loopTargets g) (Expr.Within (lineLimits P)) := by
  intro x
  refine .bind (h.starTarget.listOf x) fun _ e he y => ?_
  exact .next (reads_checkTarget .assigned e y) fun _ _ _ => .pure he

/-- Looking for the clauses of a comprehension. -/
theorem reads_atClauses : ReadsWithin P atClauses fun _ => True := by
  intro x
  refine .atWord (fun _ => .any) (.atWord (fun _ => .peekSecond fun y => ?_) .any)
  split <;> exact .any

/-- One clause of a comprehension. -/
theorem Grammar.Located.clause (h : g.Located P) :
    Begins P (Script.clause g) (Clause.Within (lineLimits P)) := by
  intro x
  refine .line fun l hl => .takeWordOrNot fun awaited y hy => .expectWord fun hx z => ?_
  have hl : P l := hl (hy hx)
  refine .bind (h.loopTargets z) fun _ target htarget u => .expectWord fun _ y => ?_
  refine .bind (h.disjunction y) fun _ source hsource z => ?_
  refine .next (.loop (fun cs => ∀ e ∈ cs, e.Within (lineLimits P)) (by simp) fun acc hacc y => ?_)
    fun conditions hconditions _ => .pure (.mk hl htarget hsource (by simpa using hconditions))
  exact .takeWord (fun _ z => .bind (h.disjunction z) fun _ c hc _ => .more (by simpa [hc] using hacc)) .done

/-- The clauses of a comprehension. -/
theorem Grammar.Located.clauses (h : g.Located P) :
    Begins P (Script.clauses g) fun cs => ∀ c ∈ cs, c.Within (lineLimits P) := by
  intro x
  refine .bind (h.clause x) fun _ first hfirst y => ?_
  refine .next (.loop (fun cs => ∀ c ∈ cs, c.Within (lineLimits P)) (by simpa using hfirst) fun acc hacc z => ?_)
    fun cs hcs _ => .pure (by simpa using hcs)
  refine .next (reads_atClauses z) fun b _ y => ?_
  cases b with
  | true => exact .bind (h.clause y) fun _ c hc _ => .more (by simpa [hc] using hacc)
  | false => exact .done

/-- The clauses behind an element. -/
theorem Grammar.Located.clausesFor (h : g.Located P) (element : Expr) :
    Begins P (Script.clausesFor g element) fun cs => ∀ c ∈ cs, c.Within (lineLimits P) := by
  unfold Script.clausesFor
  cases element with
  | star l e => exact fun _ => .fails (Fails.behind fun _ _ => ⟨_, rfl⟩)
  | _ => exact h.clauses

/-! ## Strings -/

/-- The parts of a string with fields. -/
theorem Grammar.Located.partsOf (h : g.Located P) (line fuel : Nat) (pieces : List Piece)
    (hpieces : ∀ p ∈ pieces, p.Located P line) :
    ReadsWithin P (Script.partsOf g line fuel pieces) fun ps => ∀ p ∈ ps, p.Within (lineLimits P) := by
  intro x
  induction fuel generalizing pieces x with
  | zero => exact .fails fun _ => ⟨_, rfl⟩
  | succ fuel ih =>
      cases pieces with
      | nil => exact .pure (by simp)
      | cons piece r =>
          have hrest := ih r fun p hp => hpieces p (List.mem_cons_of_mem _ hp)
          cases hpieces piece List.mem_cons_self with
          | text =>
              refine .next (hrest x) fun ps hps _ => .pure ?_
              simpa using ⟨.text, hps⟩
          | @field value before shown conversion format hline hvalue hformat =>
              -- the value is an expression on tokens of its own, which stand where the field stands
              unfold Script.partsOf
              dsimp only
              cases heq : Script.starExpressions g (lexInner value (line + before)) with
              | error f =>
                  refine .fails fun _ => ?_
                  dsimp only
                  repeat' split
                  all_goals exact ⟨_, rfl⟩
              | ok read =>
                  obtain ⟨e, left⟩ := read
                  obtain ⟨-, -, he⟩ := h.starExpressions _ _ (within_lexInner hline hvalue) rfl e left heq
                  split
                  · next heq => cases heq
                  · next heq =>
                      cases heq
                      refine .next (ih (format.getD []) (fun p hp => ?_) x) fun spec hspec y => ?_
                      · cases format with
                        | none => cases hp
                        | some ps => exact hformat ps rfl p hp
                      · refine .next (hrest y) fun ps hps _ => ?_
                        cases shown with
                        | none => exact .pure (by simpa using ⟨.field he hspec, hps⟩)
                        | some t => exact .pure (by simpa using ⟨.text, .field he hspec, hps⟩)
                  · exact .fails fun _ => ⟨_, rfl⟩
                  · exact .fails fun _ => ⟨_, rfl⟩

/-- Joining neighbouring texts. -/
theorem within_joinTexts {ps : List Part} (h : ∀ p ∈ ps, p.Within (lineLimits P)) :
    ∀ p ∈ joinTexts ps, p.Within (lineLimits P) := by
  fun_induction joinTexts ps with
  | case1 a r b r' heq ih =>
      rw [heq] at ih
      have ih := ih fun p hp => h p (List.mem_cons_of_mem _ hp)
      intro p hp
      obtain rfl | hp := List.mem_cons.1 hp
      · exact .text
      · exact ih p (List.mem_cons_of_mem _ hp)
  | case2 a r heq ih | case3 p r _ ih =>
      have ih := ih fun p hp => h p (List.mem_cons_of_mem _ hp)
      intro p hp
      obtain rfl | hp := List.mem_cons.1 hp
      · exact h _ List.mem_cons_self
      · exact ih p hp
  | case4 => exact h

/-- The string tokens at the front. -/
theorem reads_stringTokens :
    ReadsWithin P stringTokens fun ts => ∀ t ∈ ts, P t.2 ∧ Script.Located P t.2 t.1.body := by
  intro x
  refine .next (.loop (fun ts => ∀ t ∈ ts, P t.2 ∧ Script.Located P t.2 t.1.body) (by simp) fun acc hacc y =>
    .peek ?_) fun ts hts _ => .pure (by simpa using hts)
  cases y with
  | string s =>
      refine .stringLine fun l hl hbody => .advance fun _ => .more fun t ht => ?_
      obtain rfl | ht := List.mem_cons.1 ht
      · exact ⟨hl, hbody⟩
      · exact hacc t ht
  | _ => exact .done

/-- What a literal says. -/
theorem reads_literalText {α : Type} {Q : α → Prop} {f : Text → α} (hf : ∀ t, Q (f t)) (raw bytes : Bool)
    (body : Text) (after : Nat) : ReadsWithin P
      (match literalText raw bytes body with
      | some t => pure (f t)
      | Option.none => report after) Q := by
  intro x
  cases literalText raw bytes body with
  | some t => exact .pure (hf t)
  | none => exact .fails fun _ => ⟨_, rfl⟩

/-- Neighbouring string literals. -/
theorem Grammar.Located.strings (h : g.Located P) (s : StringLit) :
    ReadsAt P false (.string s) (Script.strings g) (Expr.Within (lineLimits P)) := by
  refine .line fun start hstart => .next (reads_stringTokens _) fun toks htoks y => .line fun after _ => ?_
  have hstart : P start := hstart rfl
  dsimp only
  cases toks.any (·.1.bytes) with
  | true =>
      cases toks.any (!·.1.bytes) with
      | true => exact .fails fun _ => ⟨_, rfl⟩
      | false =>
          simp only [Bool.and_false, Bool.false_eq_true, if_false, if_true]
          cases toks.find? fun t => t.1.body.any (0x80 ≤ ·.toNat) with
          | some t => exact .fails fun _ => ⟨_, rfl⟩
          | none =>
              refine .next (.mapM (Q := fun _ => True) fun t _ => ?_) fun _ _ _ => .pure (.constant hstart)
              exact reads_literalText (Q := fun _ => True) (fun _ => trivial) t.1.raw true t.1.body _
  | false =>
      cases toks.any (·.1.formatted) with
      | true =>
          have htext (t : String) : ∀ p ∈ [Part.text t], p.Within (lineLimits P) := by simpa using .text
          refine .next (.mapM (Q := fun ps => ∀ p ∈ ps, p.Within (lineLimits P)) fun t ht => ?_)
            fun parts hparts _ => .pure (.template hstart (within_joinTexts ?_))
          · cases t.1.formatted with
            | true =>
                cases heq : splitPieces t.1.raw (List.length t.1.body + 1) 0 0 t.1.body with
                | none => exact fun _ => .fails fun _ => ⟨_, rfl⟩
                | some x =>
                    obtain ⟨ps, _ | ⟨c, r⟩⟩ := x
                    · exact h.partsOf t.2 _ ps (located_splitPieces heq (htoks t ht).2).1
                    · exact fun _ => .fails fun _ => ⟨_, rfl⟩
            | false => exact reads_literalText (fun _ => htext _) t.1.raw false t.1.body _
          · simpa using fun p ps hps hp => hparts ps hps p hp
      | false =>
          refine .next (.mapM (Q := fun _ => True) fun t _ => ?_) fun _ _ _ => .pure (.constant hstart)
          exact reads_literalText (Q := fun _ => True) (fun _ => trivial) t.1.raw false t.1.body _

/-! ## Displays -/

/-- A list of elements in front of clauses is at fault. -/
theorem reads_rejectClauses (g : Grammar) (first : Expr) : ReadsWithin P (rejectClauses g first) fun _ => True := by
  intro x
  refine .next (reads_atClauses x) fun b _ y => ?_
  cases b with
  | true => exact .fails (Fails.behind fun _ _ => ⟨_, rfl⟩)
  | false => exact .any

/-- What round brackets hold. -/
theorem Grammar.Located.parenthesised (h : g.Located P) :
    Begins P (Script.parenthesised g) (Expr.Within (lineLimits P)) := by
  intro x
  refine .line fun l hl => .expectOp rfl fun hx y => .takeClosing (fun _ => .pure (.display (hl hx) (by simp))) ?_
  refine .atWord (fun _ => ?_) ?_
  · exact .bind (h.yieldExpression y) fun _ e he _ => .expectClosing fun _ => .pure he
  · refine .bind (h.starNamed y) fun _ first hfirst z => .next (reads_atClauses z) fun b _ y => ?_
    cases b with
    | true =>
        refine .bind (h.clausesFor first y) fun _ cs hcs _ => .expectClosing fun _ => .pure ?_
        exact .comprehension (hl hx) hfirst hcs fun _ _ => trivial
    | false =>
        refine .atOp (fun _ => ?_) (.expectClosing fun _ => ?_)
        · refine .next (h.starNamed.moreItems hfirst y) fun items hitems _ => .expectClosing fun _ => ?_
          exact .pure (.display (hl hx) hitems)
        · cases first <;> first | exact .pure hfirst | exact .fails fun _ => ⟨_, rfl⟩

/-- What square brackets hold. -/
theorem Grammar.Located.listDisplay (h : g.Located P) :
    Begins P (Script.listDisplay g) (Expr.Within (lineLimits P)) := by
  intro x
  refine .line fun l hl => .expectOp rfl fun hx y => .takeOp rfl (fun _ _ => .pure (.display (hl hx) (by simp))) ?_
  refine .bind (h.starNamed y) fun _ first hfirst z => .next (reads_atClauses z) fun b _ y => ?_
  cases b with
  | true =>
      refine .bind (h.clausesFor first y) fun _ cs hcs _ => .expectOp rfl fun _ _ => .pure ?_
      exact .comprehension (hl hx) hfirst hcs fun _ _ => trivial
  | false =>
      refine .next (h.starNamed.moreItems hfirst y) fun items hitems z => ?_
      refine .next (reads_rejectClauses g first z) fun _ _ _ => .expectOp rfl fun _ _ => ?_
      exact .pure (.display (hl hx) hitems)

/-- An item of a mapping stands on lines of a kind. -/
def DictItem.Located (P : Nat → Prop) (i : Option Expr × Expr) : Prop :=
  (∀ k ∈ i.1, k.Within (lineLimits P)) ∧ i.2.Within (lineLimits P)

/-- An item of a mapping. -/
theorem Grammar.Located.dictItem (h : g.Located P) (isFirst : Bool) :
    ReadsWithin P (Script.dictItem g isFirst) (DictItem.Located P) := by
  intro x
  refine .line fun start _ => .takeOp rfl (fun _ y => ?_) ?_
  · exact .bind (h.bitOr y) fun _ e he _ => .pure ⟨nofun, he⟩
  · refine .bind (h.expression x) fun _ k hk y => .line fun l _ => .atOp (fun _ => ?_) ?_
    · refine .advance fun z => .atOp (fun _ => ?_) (.atOp (fun _ => .fails fun _ => ⟨_, rfl⟩) ?_)
      · exact .atOp (fun _ => .fails fun _ => ⟨_, rfl⟩) (.fails fun _ => ⟨_, rfl⟩)
      · refine .bind (h.expression z) fun _ v hv _ => .pure ⟨fun e he => ?_, hv⟩
        cases he
        exact hk
    · cases isFirst <;> exact .fails fun _ => ⟨_, rfl⟩

/-- The items of a mapping behind the first one. -/
theorem Grammar.Located.dictItems (h : g.Located P) {l : Nat} (hl : P l) {first : Option Expr × Expr}
    (hfirst : DictItem.Located P first) :
    ReadsWithin P (Script.dictItems g l first) (Expr.Within (lineLimits P)) := by
  intro x
  refine .next (.loop (fun is => ∀ i ∈ is, DictItem.Located P i) (by simpa using hfirst) fun acc hacc y => ?_)
    fun items hitems _ => .expectOp rfl fun _ _ => .pure ?_
  · refine .atOp (fun _ => .advance fun z => .atOp (fun _ => .done) ?_) .done
    exact .next (h.dictItem false z) fun item hitem _ => .more (by simpa [hitem] using hacc)
  · exact .dict hl (fun i hi => (hitems i (List.mem_reverse.1 hi)).1)
      fun i hi => (hitems i (List.mem_reverse.1 hi)).2

/-- The value that belongs to a first key, and the rest of the mapping. -/
theorem Grammar.Located.mappingFrom (h : g.Located P) {l : Nat} (hl : P l) (colon : Nat) {first : Expr}
    (hfirst : first.Within (lineLimits P)) : ReadsWithin P
    (do
      if (← atOp "\x7d") || (← atOp ",") then report colon
      let v ← g.expression
      match first with
      | .star sl _ => report sl
      | .bind bl _ _ _ => report bl
      | _ =>
        if ← atClauses then
          let cs ← Script.clauses g
          expectOp "\x7d"
          return .dictComprehension l first v cs
        Script.dictItems g l (some first, v)) (Expr.Within (lineLimits P)) := by
  intro x
  refine .atOp (fun _ => ?_) (.atOp (fun _ => .fails fun _ => ⟨_, rfl⟩) ?_)
  · exact .atOp (fun _ => .fails fun _ => ⟨_, rfl⟩) (.fails fun _ => ⟨_, rfl⟩)
  · refine .bind (h.expression x) fun _ v hv y => ?_
    have hitem : DictItem.Located P (some first, v) := ⟨fun e he => by cases he; exact hfirst, hv⟩
    have hrest : ReadsAt P false y
        (do
          if ← atClauses then
            let cs ← Script.clauses g
            expectOp "\x7d"
            return .dictComprehension l first v cs
          Script.dictItems g l (some first, v)) (Expr.Within (lineLimits P)) := by
      refine .next (reads_atClauses y) fun b _ z => ?_
      cases b with
      | true =>
          refine .bind (h.clauses z) fun _ cs hcs _ => .expectOp rfl fun _ _ => .pure ?_
          exact .dictComprehension hl hfirst hv hcs fun _ _ => trivial
      | false => exact h.dictItems hl hitem z
    cases first with
    | star | bind => exact .fails fun _ => ⟨_, rfl⟩
    | _ => exact hrest

/-- What curly brackets hold. -/
theorem Grammar.Located.braced (h : g.Located P) :
    Begins P (Script.braced g) (Expr.Within (lineLimits P)) := by
  intro x
  refine .line fun l hl => .expectOp rfl fun hx y =>
    .takeOp rfl (fun _ _ => .pure (.dict (hl hx) (by simp) (by simp))) ?_
  refine .atOp (fun _ => .line fun starLine _ => ?_) ?_
  · refine .next (h.dictItem true y) fun first hfirst z => .next (reads_atClauses z) fun b _ y => ?_
    cases b with
    | true => exact .fails (Fails.behind fun _ _ => ⟨_, rfl⟩)
    | false => exact h.dictItems (hl hx) hfirst y
  · refine .bind (h.starNamed y) fun _ first hfirst z => .atOp (fun _ => ?_) ?_
    · exact .line fun colon _ => .advance (h.mappingFrom (hl hx) colon hfirst)
    · refine .next (reads_atClauses z) fun b _ y => ?_
      cases b with
      | true =>
          refine .bind (h.clausesFor first y) fun _ cs hcs _ => .expectOp rfl fun _ _ => .pure ?_
          exact .comprehension (hl hx) hfirst hcs fun _ _ => trivial
      | false =>
          refine .next (h.starNamed.moreItems hfirst y) fun items hitems z => ?_
          refine .next (reads_rejectClauses g first z) fun _ _ _ => .expectOp rfl fun _ _ => ?_
          exact .pure (.display (hl hx) hitems)

/-! ## Primaries -/

/-- The value of a number. -/
theorem reads_numberExpr {l : Nat} (hl : P l) (n : Numeric) :
    ReadsWithin P (numberExpr l n) (Expr.Within (lineLimits P)) := by
  intro x
  cases n <;> first | exact .pure (.constant hl) | exact .fails fun _ => ⟨_, rfl⟩

/-- The smallest expressions. -/
theorem Grammar.Located.atom (h : g.Located P) :
    Begins P (Script.atom g) (Expr.Within (lineLimits P)) := by
  intro x
  refine .line fun l hl => .peek ?_
  split
  · exact .node rfl (.advance fun _ => .pure (.name (hl rfl) trivial))
  · exact .node rfl (.advance fun _ => .pure (.constant (hl rfl)))
  · exact .node rfl (.advance fun _ => .pure (.constant (hl rfl)))
  · exact .node rfl (.advance fun _ => .pure (.constant (hl rfl)))
  · exact .node rfl (.advance (reads_numberExpr (hl rfl) _))
  · exact .node rfl (h.strings _)
  · exact h.parenthesised _
  · exact h.listDisplay _
  · exact h.braced _
  · exact .node rfl (.advance fun _ => .pure (.constant (hl rfl)))
  · exact .fails fun _ => ⟨_, rfl⟩

/-- The arguments read so far stand on lines of a kind, and so does the bracket in front of them. -/
structure ArgState.Located (P : Nat → Prop) (s : ArgState) : Prop where
  args : ∀ a ∈ s.args, a.Within (lineLimits P)
  start : P s.start

/-- One more argument. -/
theorem ArgState.Located.cons {s s' : ArgState} (hs : s.Located P) {a : Argument}
    (ha : a.Within (lineLimits P)) (hargs : s'.args = a :: s.args) (hstart : s'.start = s.start) :
    s'.Located P where
  args := by
    rw [hargs]
    simpa [ha] using hs.args
  start := hstart ▸ hs.start

/-- One argument of a call. -/
theorem Grammar.Located.argument (h : g.Located P) (s : ArgState) (hs : s.Located P) :
    Begins P (Script.argument g s) (ArgState.Located P) := by
  intro x
  refine .line fun l hl => .peek (.peekSecond fun y => ?_)
  split
  · cases s.unpacked with
    | true => exact .fails fun _ => ⟨_, rfl⟩
    | false =>
        refine .node rfl (.advance fun z => .bind (h.expression z) fun _ e he _ => ?_)
        exact .pure (hs.cons (.star he) rfl rfl)
  · refine .node rfl (.advance fun z => .bind (h.expression z) fun _ e he _ => ?_)
    exact .pure (hs.cons (.doubleStar he) rfl rfl)
  · refine .node rfl (.advance fun _ => .advance fun z => .bind (h.expression z) fun _ e he y => ?_)
    refine .next (reads_atClauses y) fun b _ _ => ?_
    cases b with
    | true => exact .fails fun _ => ⟨_, rfl⟩
    | false => exact .pure (hs.cons (.named (hl rfl) he) rfl rfl)
  · refine .node rfl (.advance fun _ => .advance fun z => .bind (h.expression z) fun _ e he y => ?_)
    cases s.named || s.unpacked with
    | true => exact .fails fun s => (fails_rejectPositional g s).bind _
    | false => exact .pure (hs.cons (.positional (.bind (hl rfl) trivial (hl rfl) he)) rfl rfl)
  · refine .bind (h.expression _) fun _ e he y => .atOp (fun _ => .fails fun _ => ⟨_, rfl⟩) ?_
    refine .atOp (fun _ => .fails fun _ => ⟨_, rfl⟩) (.next (reads_atClauses y) fun b _ z => ?_)
    cases b with
    | true =>
        refine .bind (h.clauses z) fun _ cs hcs u => ?_
        have hcall : ({ s with args := [.positional (.comprehension s.start .generator e cs)] }).Located P :=
          ⟨by simpa using .positional (.comprehension hs.start he hcs fun _ _ => trivial), hs.start⟩
        cases s.args.isEmpty with
        | true =>
            refine .atOp (fun _ => .pure hcall) (.fails fun s => ?_)
            exact Fails.behind (fun d _ => by cases d <;> exact ⟨_, rfl⟩) s
        | false =>
            refine .fails fun s => Fails.behind (fun c s => ?_) s
            cases c <;> exact Fails.behind (fun d _ => by cases d <;> exact ⟨_, rfl⟩) s
    | false =>
        cases s.named || s.unpacked with
        | true => exact .fails fun s => (fails_rejectPositional g s).bind _
        | false => exact .pure (hs.cons (.positional he) rfl rfl)

/-- The arguments of a call. -/
theorem Grammar.Located.arguments (h : g.Located P) {start : Nat} (hstart : P start) :
    ReadsWithin P (Script.arguments g start) fun as => ∀ a ∈ as, a.Within (lineLimits P) := by
  intro x
  refine .takeClosing (fun _ => .pure (by simp)) ?_
  refine .bind (h.argument _ ⟨by simp, hstart⟩ x) fun _ first hfirst y => ?_
  refine .next (.loop _ hfirst fun s hs z => ?_) fun s hs _ => .expectClosing fun _ => .pure ?_
  · refine .takeOp rfl (fun _ y => .atOp (fun _ => .done) ?_) .done
    exact .bind (h.argument s hs y) fun _ s hs _ => .more hs
  · simpa using hs.args

/-- A bound of a slice. -/
theorem Grammar.Located.bound (h : g.Located P) : ReadsWithin P
    (do
      if (← peek).startsExpression then
        let e ← g.expression
        return some e
      return Option.none) fun v : Option Expr => ∀ e ∈ v, e.Within (lineLimits P) := by
  intro x
  refine .peek ?_
  cases x.startsExpression with
  | true => exact .bind (h.expression x) fun _ e he _ => .more he
  | false => exact .done

/-- An index or a slice. -/
theorem Grammar.Located.sliceItem (h : g.Located P) :
    Begins P (Script.sliceItem g) (Expr.Within (lineLimits P)) := by
  intro x
  refine .line fun l hl => ?_
  have htail {begins : Bool} (y : Lexeme) (hline : y.isIdle = false → P l) (low : Option Expr)
      (hlow : ∀ e ∈ low, e.Within (lineLimits P)) : ReadsAt P begins y
      (do
        let bound : Parse (Option Expr) := do
          if (← peek).startsExpression then
            let e ← g.expression
            return some e
          return Option.none
        expectOp ":"
        let high ← bound
        if ← takeOp ":" then
          let step ← bound
          return Expr.slice l low high step
        return Expr.slice l low high Option.none) (Expr.Within (lineLimits P)) := by
    refine .expectOp rfl fun hy z => .next (h.bound z) fun high hhigh u => .takeOp rfl (fun _ v => ?_) ?_
    · exact .next (h.bound v) fun step hstep _ => .pure (.slice (hline hy) hlow hhigh hstep)
    · exact .pure (.slice (hline hy) hlow hhigh nofun)
  refine .atOp (fun _ => htail x hl _ nofun) (.takeOp rfl (fun hx y => ?_) ?_)
  · exact .bind (h.bitOr y) fun _ e he _ => .pure (.star (hl hx) he)
  · refine .bind (h.namedExpression x) fun hx e he y => .atOp (fun _ => ?_) (.pure he)
    have hlow : ∀ e' ∈ some e, Expr.Within (lineLimits P) e' := fun e' he' => Option.mem_some.1 he' ▸ he
    cases e with
    | bind => exact .fails fun _ => ⟨_, rfl⟩
    | _ => exact htail y (fun _ => hl hx) _ hlow

/-- What the square brackets of a subscript hold. -/
theorem Grammar.Located.subscriptIndex (h : g.Located P) :
    Begins P (Script.subscriptIndex g) (Expr.Within (lineLimits P)) := by
  intro x
  refine .line fun l hl => .bind (h.sliceItem x) fun hx first hfirst y => ?_
  have hitems (y : Lexeme) : ReadsAt P false y
      (do
        let items ← loop (fun acc => do
          if ← takeOp "," then
            if ← atOp "]" then return Option.none
            let e ← Script.sliceItem g
            return some (e :: acc)
          return Option.none) [first]
        return Expr.display l .tuple items.reverse) (Expr.Within (lineLimits P)) := by
    refine .next (.loop (fun es => ∀ e ∈ es, e.Within (lineLimits P)) (by simpa using hfirst) fun acc hacc z => ?_)
      fun es hes _ => .pure (.display (hl hx) (by simpa using hes))
    refine .takeOp rfl (fun _ u => .atOp (fun _ => .done) ?_) .done
    exact .bind (h.sliceItem u) fun _ e he _ => .more (by simpa [he] using hacc)
  cases first with
  | star => exact .atOp (fun _ => hitems y) (hitems y)
  | _ => exact .atOp (fun _ => hitems y) (.pure hfirst)

/-- A trailer of a primary. -/
theorem Grammar.Located.trailer (h : g.Located P) {l : Nat} (hl : P l) (e : Expr)
    (he : e.Within (lineLimits P)) : StepsWithin P (Expr.Within (lineLimits P)) (Script.trailer g l e) := by
  intro x
  refine .peek ?_
  split
  · refine .advance fun y => .line fun idLine hline => .bind .name fun hy id _ _ => ?_
    exact .more (.member hl he (hline hy))
  · refine .line fun start hstart => .advance fun y => ?_
    exact .next (h.arguments (hstart rfl) y) fun args hargs _ => .more (.call hl he hargs)
  · refine .advance fun y => .bind (h.subscriptIndex y) fun _ i hi _ => .expectOp rfl fun _ _ => ?_
    exact .more (.subscript hl he hi)
  · exact .done

/-- An atom with its trailers. -/
theorem Grammar.Located.primary (h : g.Located P) :
    Begins P (Script.primary g) (Expr.Within (lineLimits P)) := by
  intro x
  refine .line fun l hl => .bind (h.atom x) fun hx e he _ => ?_
  exact .loop _ he fun e he => h.trailer (hl hx) e he

/-- A primary that may be awaited. -/
theorem Grammar.Located.awaited (h : g.Located P) :
    Begins P (Script.awaited g) (Expr.Within (lineLimits P)) := by
  intro x
  refine .line fun l hl => .takeWord (fun hx y => ?_) (h.primary x)
  exact .bind (h.primary y) fun _ e he _ => .pure (.await (hl hx) he)

/-- A signed power. -/
theorem Grammar.Located.factorOf (h : g.Located P) :
    Begins P (Script.factor g) (Expr.Within (lineLimits P)) := by
  intro x
  refine .line fun l hl => .peek ?_
  split
  iterate 3
    · refine .node rfl (.advance fun y => .bind (h.factor y) fun _ e he _ => ?_)
      exact .pure (.unary (hl rfl) he)
  · refine .bind (h.awaited _) fun hx base hbase y => .takeOp rfl (fun _ z => ?_) (.pure hbase)
    exact .bind (h.factor z) fun _ e he _ => .pure (.binary (hl hx) hbase he)

end

end Stencil.Script
